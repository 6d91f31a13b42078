import Espalier.Proofs.Scan.Expression
import Espalier.Scan.Split

/-!
# The items between brackets

A text that was cut at a bracket is read a second time, alone, to split it at its separators. The
second reading meets what the first one met: no step looks ahead for a closing bracket, so that it
makes no difference whether one follows, and nothing is open where the bracket was (`Clears.read`).
So the split succeeds: `topLevelParts_of_closedBy`.
-/

namespace Espalier.Scan

section
variable {size position : Nat} {s s' : State} {c : Char} {event : Event} {w cs : List Char}

/-! ## Looking ahead -/

/-- The character gives the one before it no other meaning: it makes no comment, flags or
substitution of it and ends no line. -/
def isInert (c : Char) : Bool :=
  !isFlag c && c != '/' && c != '*' && c != '\x7b' && c != '\n'

/-- A step does the same before an inert character as at the end of the text. -/
theorem step_before_inert {d : Char} (h : isInert d = true) :
    s.step position c (some d) = s.step position c none := by
  obtain ⟨mode, stack, operand⟩ := s
  simp only [isInert, Bool.and_eq_true, bne_iff_ne, Bool.not_eq_true'] at h
  obtain ⟨⟨⟨⟨hflag, hslash⟩, hstar⟩, hbrace⟩, hline⟩ := h
  simp only [State.step, State.inTemplate, State.inCode, afterRegex, Option.any_some,
    Option.any_none, Option.some.injEq, reduceCtorEq, hflag, hslash, hstar, hbrace, hline]

theorem step_append_inert {d : Char} (h : isInert d = true) (w rest : List Char) :
    s.step position c (w ++ d :: rest).head? = s.step position c w.head? := by
  cases w with
  | nil => exact step_before_inert h
  | cons => rfl

/-! ## Texts that can be read to their end -/

theorem read_nil_iff : upToUnmatched size s position [] = .ok none ↔ s.faultAtEnd size = none := by
  rw [upToUnmatched]
  cases s.faultAtEnd size <;> simp

theorem read_cons_iff (hstep : s.step position c w.head? = .ok (s', event))
    (hevent : event ≠ .unmatched) :
    upToUnmatched size s position (c :: w) = .ok none
      ↔ upToUnmatched size s' (position + 1) w = .ok none := by
  rw [upToUnmatched_cons hstep hevent]
  generalize upToUnmatched size s' (position + 1) w = r
  match r with
  | .ok (some _) => simp [withFront]
  | .ok none | .error _ => simp [withFront]

/-- The reading of a text that leaves nothing over begins with a step. -/
theorem exists_step_of_read (h : upToUnmatched size s position (c :: w) = .ok none) :
    ∃ s' event, s.step position c w.head? = .ok (s', event) ∧ event ≠ .unmatched ∧
      upToUnmatched size s' (position + 1) w = .ok none := by
  cases hstep : s.step position c w.head? with
  | error fault => rw [upToUnmatched, hstep] at h; cases h
  | ok r =>
    obtain ⟨s', event⟩ := r
    by_cases hevent : event = .unmatched
    · subst hevent
      rw [upToUnmatched, hstep] at h
      cases h
    · exact ⟨s', event, rfl, hevent, (read_cons_iff hstep hevent).1 h⟩

/-! ## Texts that lead back to code -/

/-- The text leads from the state back to code outside all frames, where a bracket is unmatched. -/
def Clears (size : Nat) (s : State) (position : Nat) (w : List Char) : Prop :=
  upToUnmatched size s position (w ++ [']']) = .ok (some ⟨w, ']', []⟩)

theorem clears_iff_balanced : Clears size {} position w ↔ Balanced true w := by
  rw [Clears, upToUnmatched_eq_some_iff]
  exact ⟨fun h => h.2.2, fun h => ⟨rfl, rfl, h⟩⟩

theorem clears_nil_iff : Clears size s position [] ↔ s.mode = .code ∧ s.stack = [] := by
  constructor
  · intro h
    rw [Clears, List.nil_append] at h
    cases hstep : s.step position ']' ([] : List Char).head? with
    | error fault => rw [upToUnmatched, hstep] at h; cases h
    | ok r =>
      obtain ⟨s', event⟩ := r
      by_cases hevent : event = .unmatched
      · subst hevent
        obtain ⟨hmode, hstack, -⟩ := step_unmatched hstep
        exact ⟨hmode, hstack⟩
      · rw [upToUnmatched_cons hstep hevent] at h
        generalize upToUnmatched size s' (position + 1) [] = r at h
        rcases r with _ | _ | _ <;> cases h
  · obtain ⟨mode, stack, operand⟩ := s
    rintro ⟨rfl, rfl⟩
    exact upToUnmatched_closer rfl

theorem clears_cons_iff (hstep : s.step position c w.head? = .ok (s', event))
    (hevent : event ≠ .unmatched) :
    Clears size s position (c :: w) ↔ Clears size s' (position + 1) w := by
  have hstep' : s.step position c (w ++ [']']).head? = .ok (s', event) :=
    (step_append_inert rfl w []).trans hstep
  rw [Clears, List.cons_append, upToUnmatched_cons hstep' hevent, Clears]
  generalize upToUnmatched size s' (position + 1) (w ++ [']']) = r
  match r with
  | .ok (some ⟨_, _, _⟩) => simp [withFront]
  | .ok none | .error _ => simp [withFront]

theorem Clears.exists_step (h : Clears size s position (c :: w)) :
    ∃ s' event, s.step position c w.head? = .ok (s', event) ∧ event ≠ .unmatched ∧
      Clears size s' (position + 1) w := by
  have hsame : s.step position c (w ++ [']']).head? = s.step position c w.head? :=
    step_append_inert rfl w []
  cases hstep : s.step position c w.head? with
  | error fault =>
    rw [Clears, List.cons_append, upToUnmatched, hsame.trans hstep] at h
    cases h
  | ok r =>
    obtain ⟨s', event⟩ := r
    by_cases hevent : event = .unmatched
    · subst hevent
      rw [Clears, List.cons_append, upToUnmatched, hsame.trans hstep] at h
      cases h
    · exact ⟨s', event, rfl, hevent, (clears_cons_iff hstep hevent).1 h⟩

/-- The text before an unmatched bracket can be read alone, and nothing is open at its end. -/
theorem Clears.read : ∀ {s : State} {position : Nat}, Clears size s position w →
    upToUnmatched size s position w = .ok none := by
  induction w with
  | nil =>
    intro s position h
    obtain ⟨mode, stack, operand⟩ := s
    obtain ⟨rfl, rfl⟩ := clears_nil_iff.1 h
    rfl
  | cons c w ih =>
    intro s position h
    obtain ⟨s', event, hstep, hevent, hrest⟩ := h.exists_step
    exact (read_cons_iff hstep hevent).2 (ih hrest)

/-! ## Splitting what can be read -/

/-- A step that meets no unmatched bracket ends a part or goes on with it. -/
theorem partsFrom_cons {separator : String} (hstep : s.step position c cs.head? = .ok (s', event))
    (hevent : event ≠ .unmatched) :
    partsFrom separator size s position (c :: cs)
      = (partsFrom separator size s' (position + 1) cs).map
          (if separates separator c event then ([] :: ·) else consPart c) := by
  rw [partsFrom, hstep]
  cases event with
  | unmatched => exact absurd rfl hevent
  | covered | plain depth =>
    simp only
    cases partsFrom separator size s' (position + 1) cs with
    | error fault => rfl
    | ok parts =>
      simp only [Except.map]
      split <;> rfl

/-- A text can be split, at any separator, exactly if it can be read to its end. -/
theorem exists_partsFrom_iff (separator : String) : ∀ {s : State} {position : Nat},
    (∃ parts, partsFrom separator size s position cs = .ok parts)
      ↔ upToUnmatched size s position cs = .ok none := by
  induction cs with
  | nil =>
    intro s position
    rw [read_nil_iff, partsFrom]
    cases s.faultAtEnd size <;> simp
  | cons c cs ih =>
    intro s position
    constructor
    · rintro ⟨parts, h⟩
      cases hstep : s.step position c cs.head? with
      | error fault => rw [partsFrom, hstep] at h; cases h
      | ok r =>
        obtain ⟨s', event⟩ := r
        by_cases hevent : event = .unmatched
        · subst hevent
          rw [partsFrom, hstep] at h
          cases h
        · rw [partsFrom_cons hstep hevent] at h
          cases hrest : partsFrom separator size s' (position + 1) cs with
          | error fault => rw [hrest] at h; cases h
          | ok found => exact (read_cons_iff hstep hevent).2 (ih.1 ⟨found, hrest⟩)
    · intro h
      obtain ⟨s', event, hstep, hevent, hrest⟩ := exists_step_of_read h
      obtain ⟨parts, hparts⟩ := ih.2 hrest
      rw [partsFrom_cons hstep hevent, hparts]
      exact ⟨_, rfl⟩

/-- What stands before a bracket can be split, at any separator. -/
theorem topLevelParts_of_closedBy {closer : String} {cut : Cut}
    (h : closedBy closer size position cs = .ok cut) (separator : String) :
    ∃ parts, topLevelParts (String.ofList cut.body) separator = .ok parts := by
  obtain ⟨-, -, hbalanced⟩ := upToUnmatched_eq_some_iff.1 (closedBy_eq_ok_iff.1 h).1
  -- where a text begins has no influence on where it is cut
  have hclears : Clears (String.ofList cut.body).length {} 0 cut.body :=
    clears_iff_balanced.2 hbalanced
  obtain ⟨parts, hparts⟩ := (exists_partsFrom_iff separator).2 hclears.read
  refine ⟨parts.map String.ofList, ?_⟩
  rw [topLevelParts, String.toList_ofList, hparts]

end

end Espalier.Scan
