import Espalier.Proofs.Scan.Parts
import Mathlib.Data.List.Infix

/-!
# Lists of expressions

A text is split at the commas that stand outside all brackets and literals. The grammar finds the
same commas without a machine: they are the ones behind balanced text. `Listed` puts a text together
from its parts in these words, and `topLevelParts_eq_ok_iff` says that the split finds exactly these
parts. So a split and a join undo each other: `topLevelParts_join` and `topLevelParts_intercalate`.

The last part of a list may end inside a line comment. `Readable` says so within the grammar: with a
line end behind it the text is balanced.
-/

namespace Espalier.Scan

open Espalier.Text

/-! ## Joining the parts -/

section
variable {separator : String} {size position : Nat} {s : State} {cs : List Char}
  {parts : List (List Char)}

theorem consPart_eq_cons (c : Char) (parts : List (List Char)) :
    ∃ first others, consPart c parts = first :: others := by
  cases parts with
  | nil => exact ⟨_, _, rfl⟩
  | cons part parts => exact ⟨_, _, rfl⟩

theorem intercalate_consPart (gap : List Char) (c : Char) {parts : List (List Char)}
    (h : parts ≠ []) : gap.intercalate (consPart c parts) = c :: gap.intercalate parts := by
  match parts, h with
  | [part], _ => simp [consPart]
  | part :: other :: parts, _ => simp [consPart, List.intercalate_cons_cons]

/-- The parts, with the separator between them, make up the text. -/
theorem intercalate_partsFrom (h : partsFrom separator size s position cs = .ok parts) :
    parts ≠ [] ∧ separator.toList.intercalate parts = cs := by
  induction cs generalizing s position parts with
  | nil =>
    rw [partsFrom] at h
    split at h
    · cases h
    · cases h
      exact ⟨List.cons_ne_nil _ _, rfl⟩
  | cons c cs ih =>
    rw [partsFrom] at h
    split at h
    · cases h
    · cases h
    · split at h
      case h_1 => cases h
      case h_2 found hfound =>
        obtain ⟨hne, hjoin⟩ := ih hfound
        split at h
        case isTrue hseparates =>
          cases h
          obtain ⟨part, others, rfl⟩ := List.exists_cons_of_ne_nil hne
          simp only [separates, Bool.and_eq_true, beq_iff_eq] at hseparates
          rw [hseparates.2] at hjoin ⊢
          refine ⟨List.cons_ne_nil _ _, ?_⟩
          rw [List.intercalate_cons_cons, hjoin]
          rfl
        case isFalse =>
          cases h
          obtain ⟨first, others, hcons⟩ := consPart_eq_cons c found
          exact ⟨hcons ▸ List.cons_ne_nil _ _, by rw [intercalate_consPart _ _ hne, hjoin]⟩

/-- A part is a piece of the text. -/
theorem infix_intercalate {gap part : List Char} {parts : List (List Char)} (h : part ∈ parts) :
    part <:+: gap.intercalate parts := by
  induction parts with
  | nil => cases h
  | cons first parts ih =>
    cases parts with
    | nil =>
      obtain rfl := List.mem_singleton.1 h
      simp
    | cons other parts =>
      rw [List.intercalate_cons_cons]
      rcases List.mem_cons.1 h with rfl | hmem
      · exact ((List.prefix_append part _).trans (List.prefix_append _ _)).isInfix
      · exact (ih hmem).trans (List.suffix_append _ _).isInfix

end

/-! ## The first comma -/

section
variable {size position : Nat} {s s' : State} {c : Char} {event : Event} {w rest : List Char}

/-- What separates two parts is a comma in code, outside all frames. -/
theorem step_of_separates {s s' : State} {position : Nat} {c : Char} {next : Option Char}
    {event : Event} (hstep : s.step position c next = .ok (s', event))
    (h : separates "," c event = true) :
    s.mode = .code ∧ s.stack = [] ∧ s' = ⟨.code, [], true⟩ := by
  simp only [separates, Bool.and_eq_true, beq_iff_eq] at h
  obtain ⟨rfl, hcomma⟩ := h
  obtain rfl : ',' = c := by simpa using hcomma
  obtain ⟨mode, stack, operand⟩ := s
  cases mode with
  | code =>
    rcases step_code_cases hstep with ⟨rest, -, hevent, -⟩ | hcode
    · cases hevent
    · generalize hevent : Event.plain 0 = event at hcode
      cases hcode with
      | quote hc => rcases hc with hc | hc <;> cases hc
      | backtick hc | lineComment hc | blockComment hc | regex hc => cases hc
      | opener hopener => cases hopener
      | @closer frame rest _ _ hc => cases frame <;> cases hc
      | unmatched => cases hevent
      | ordinary =>
        have hdepth : 0 = stack.length := Event.plain.inj hevent
        obtain rfl := List.eq_nil_of_length_eq_zero hdepth.symm
        exact ⟨rfl, rfl, rfl⟩
  | skip | lineComment | flags => cases hstep
  | quoted | blockComment | regex =>
    simp only [State.step] at hstep
    repeat' split at hstep
    all_goals cases hstep

/-- No comma of the text stands where nothing is open. -/
def Uncut (size : Nat) (s : State) (position : Nat) (w : List Char) : Prop :=
  ∀ u v, w = u ++ ',' :: v → ¬Clears size s position u

theorem Uncut.step (h : Uncut size s position (c :: w))
    (hstep : s.step position c w.head? = .ok (s', event)) (hevent : event ≠ .unmatched) :
    separates "," c event = false ∧ Uncut size s' (position + 1) w := by
  constructor
  · rw [Bool.eq_false_iff]
    intro hseparates
    obtain ⟨hmode, hstack, -⟩ := step_of_separates hstep hseparates
    simp only [separates, Bool.and_eq_true, beq_iff_eq] at hseparates
    obtain rfl : ',' = c := by simpa using hseparates.2
    exact h [] w rfl (clears_nil_iff.2 ⟨hmode, hstack⟩)
  · rintro u v rfl hclears
    rw [step_append_inert rfl] at hstep
    exact h (c :: u) v rfl ((clears_cons_iff hstep hevent).2 hclears)

/-- A comma where nothing is open ends the first part, and the text behind it is read from the
start. -/
theorem partsFrom_append_comma : ∀ {s : State} {position : Nat},
    Clears size s position w → Uncut size s position w →
    partsFrom "," size s position (w ++ ',' :: rest)
      = (partsFrom "," size {} (position + w.length + 1) rest).map (w :: ·) := by
  induction w with
  | nil =>
    intro s position hclears _
    obtain ⟨mode, stack, operand⟩ := s
    obtain ⟨rfl, rfl⟩ := clears_nil_iff.1 hclears
    have hstep : State.step ⟨.code, [], operand⟩ position ',' rest.head?
        = .ok (⟨.code, [], true⟩, .plain 0) := rfl
    exact partsFrom_cons hstep nofun
  | cons c w ih =>
    intro s position hclears huncut
    obtain ⟨s', event, hstep, hevent, hrest⟩ := hclears.exists_step
    obtain ⟨hseparates, huncut'⟩ := huncut.step hstep hevent
    have hstep' : s.step position c (w ++ ',' :: rest).head? = .ok (s', event) :=
      (step_append_inert rfl w rest).trans hstep
    rw [List.cons_append, partsFrom_cons hstep' hevent, ih hrest huncut', hseparates,
      List.length_cons, Nat.add_assoc position, Nat.add_comm 1 w.length]
    cases partsFrom "," size {} (position + (w.length + 1) + 1) rest <;> rfl

/-- A text without such a comma is its only part. -/
theorem partsFrom_uncut : ∀ {s : State} {position : Nat},
    upToUnmatched size s position w = .ok none → Uncut size s position w →
    partsFrom "," size s position w = .ok [w] := by
  induction w with
  | nil =>
    intro s position h _
    cases hfault : s.faultAtEnd size with
    | some fault => rw [upToUnmatched, hfault] at h; cases h
    | none => rw [partsFrom, hfault]
  | cons c w ih =>
    intro s position h huncut
    obtain ⟨s', event, hstep, hevent, hrest⟩ := exists_step_of_read h
    obtain ⟨hseparates, huncut'⟩ := huncut.step hstep hevent
    rw [partsFrom_cons hstep hevent, ih hrest huncut', hseparates]
    rfl

/-- The text behind a comma where nothing is open decides whether the whole leads back to code. -/
theorem Clears.append_comma_iff : ∀ {s : State} {position : Nat}, Clears size s position w →
    (Clears size s position (w ++ ',' :: rest)
      ↔ Clears size {} (position + w.length + 1) rest) := by
  induction w with
  | nil =>
    intro s position hclears
    obtain ⟨mode, stack, operand⟩ := s
    obtain ⟨rfl, rfl⟩ := clears_nil_iff.1 hclears
    have hstep : State.step ⟨.code, [], operand⟩ position ',' rest.head?
        = .ok (⟨.code, [], true⟩, .plain 0) := rfl
    exact clears_cons_iff hstep nofun
  | cons c w ih =>
    intro s position hclears
    obtain ⟨s', event, hstep, hevent, hrest⟩ := hclears.exists_step
    have hstep' : s.step position c (w ++ ',' :: rest).head? = .ok (s', event) :=
      (step_append_inert rfl w rest).trans hstep
    rw [List.cons_append, clears_cons_iff hstep' hevent, ih hrest, List.length_cons,
      Nat.add_assoc position, Nat.add_comm 1 w.length]

end

/-! ## A line end behind a text -/

section
variable {size position : Nat} {s s' : State} {c : Char} {event : Event} {w : List Char}

/-- A string literal began with a quote. -/
def Mode.Begun : Mode → Prop
  | .quoted mark _ _ => mark = '\x22' ∨ mark = '\x27'
  | _ => True

theorem Mode.Begun.step (h : s.mode.Begun) {next : Option Char}
    (hstep : s.step position c next = .ok (s', event)) : s'.mode.Begun := by
  obtain ⟨mode, stack, operand⟩ := s
  cases mode with
  | code =>
    rcases step_code_cases hstep with ⟨rest, -, -, rfl⟩ | hcode
    · unfold State.inTemplate
      repeat' split
      all_goals trivial
    · cases hcode with
      | quote hmark => exact hmark
      | _ => trivial
  | quoted mark start escaped =>
    simp only [State.step] at hstep
    repeat' split at hstep
    all_goals cases hstep <;> first | exact h | trivial
  | skip | lineComment | flags | blockComment | regex =>
    simp only [State.step, afterRegex] at hstep
    repeat' split at hstep
    all_goals (cases hstep; try split)
    all_goals trivial

/-- A step does the same before a line end as at the end of the text, unless it is in a line
comment, which ends there. -/
theorem step_before_newline (h : s.mode ≠ .lineComment) :
    s.step position c (some '\n') = s.step position c none := by
  obtain ⟨mode, stack, operand⟩ := s
  have hflag : isFlag '\n' = false := by decide
  cases mode with
  | lineComment => exact absurd rfl h
  | code | skip | quoted | blockComment | regex | flags =>
    simp [State.step, State.inTemplate, State.inCode, afterRegex, hflag]

/-- Nothing is open at the end of a text exactly when a line end leads back to code. -/
theorem faultAtEnd_eq_none_iff (hbegun : s.mode.Begun) (hline : s.mode ≠ .lineComment) :
    s.faultAtEnd size = none ↔ Clears size s position ['\n'] := by
  obtain ⟨mode, stack, operand⟩ := s
  have hafter {s' : State}
      (hstep : State.step ⟨mode, stack, operand⟩ position '\n' none = .ok (s', .covered)) :
      Clears size ⟨mode, stack, operand⟩ position ['\n'] ↔ s'.mode = .code ∧ s'.stack = [] :=
    (clears_cons_iff hstep (by decide)).trans clears_nil_iff
  cases mode with
  | lineComment => exact absurd rfl hline
  | code =>
    by_cases hstack : stack.head? = some .template
    · obtain ⟨rest, rfl⟩ := List.head?_eq_some_iff.1 hstack
      have hstep : State.step ⟨.code, .template :: rest, operand⟩ position '\n' none
          = .ok (⟨.code, .template :: rest, operand⟩, .covered) := rfl
      rw [hafter hstep]
      simp [State.faultAtEnd]
    · have hplain : Event.plain stack.length ≠ .unmatched := by simp
      rw [clears_cons_iff (step_newline hstack) hplain, clears_nil_iff]
      simp [State.faultAtEnd]
  | skip | flags =>
    rw [hafter rfl]
    simp [State.faultAtEnd, afterRegex]
  | blockComment start opening =>
    cases opening <;> rw [hafter rfl] <;> simp [State.faultAtEnd]
  | quoted mark start escaped =>
    cases escaped with
    | true => rw [hafter rfl]; simp [State.faultAtEnd]
    | false =>
      constructor
      · intro hfault
        cases hfault
      · intro h
        obtain ⟨_, _, hstep, -⟩ := h.exists_step
        rcases hbegun with rfl | rfl <;> cases hstep
  | regex start inClass escaped =>
    cases escaped with
    | true => rw [hafter rfl]; simp [State.faultAtEnd]
    | false =>
      constructor
      · intro hfault
        cases hfault
      · intro h
        obtain ⟨_, _, hstep, -⟩ := h.exists_step
        cases hstep

/-- A text can be read to its end exactly when it leads back to code with a line end behind it. -/
theorem read_iff_clears : ∀ {s : State} {position : Nat} {c : Char}, s.mode.Begun →
    (upToUnmatched size s position (c :: w) = .ok none
      ↔ Clears size s position (c :: w ++ ['\n'])) := by
  induction w with
  | nil =>
    intro s position c hbegun
    by_cases hline : s.mode = .lineComment
    · obtain ⟨mode, stack, operand⟩ := s
      subst hline
      have hend : State.step ⟨.lineComment, stack, operand⟩ position c ([] : List Char).head?
          = .ok (⟨.lineComment, stack, operand⟩, .covered) := rfl
      have hnewline : State.step ⟨.lineComment, stack, operand⟩ position c ['\n'].head?
          = .ok (⟨.code, stack, operand⟩, .covered) := rfl
      have hcode : State.faultAtEnd ⟨.code, stack, operand⟩ size = none
          ↔ Clears size ⟨.code, stack, operand⟩ (position + 1) ['\n'] :=
        faultAtEnd_eq_none_iff trivial nofun
      have hread : upToUnmatched size ⟨.lineComment, stack, operand⟩ position [c] = .ok none
          ↔ State.faultAtEnd ⟨.code, stack, operand⟩ size = none :=
        (read_cons_iff hend nofun).trans read_nil_iff
      exact hread.trans (hcode.trans (clears_cons_iff hnewline nofun).symm)
    · have hsame : s.step position c (some '\n') = s.step position c none :=
        step_before_newline hline
      have hafter {s' : State} {event : Event}
          (hstep : s.step position c (some '\n') = .ok (s', event)) :
          s'.mode ≠ .lineComment := fun hmode => by
        have hready := Ready.step hstep
        rw [Ready, hmode] at hready
        exact hready rfl
      constructor
      · intro h
        obtain ⟨s', event, hstep, hevent, hrest⟩ := exists_step_of_read h
        have hstep' := hsame.trans hstep
        have hend : s'.faultAtEnd size = none ↔ Clears size s' (position + 1) ['\n'] :=
          faultAtEnd_eq_none_iff (hbegun.step hstep) (hafter hstep')
        exact (clears_cons_iff hstep' hevent).2 (hend.1 (read_nil_iff.1 hrest))
      · intro h
        obtain ⟨s', event, hstep, hevent, hrest⟩ := h.exists_step
        have hend : s'.faultAtEnd size = none ↔ Clears size s' (position + 1) ['\n'] :=
          faultAtEnd_eq_none_iff (hbegun.step hstep) (hafter hstep)
        exact (read_cons_iff (hsame.symm.trans hstep) hevent).2 (read_nil_iff.2 (hend.2 hrest))
  | cons d w ih =>
    intro s position c hbegun
    constructor
    · intro h
      obtain ⟨s', event, hstep, hevent, hrest⟩ := exists_step_of_read h
      have hstep' : s.step position c (d :: w ++ ['\n']).head? = .ok (s', event) := hstep
      exact (clears_cons_iff hstep' hevent).2 ((ih (hbegun.step hstep)).1 hrest)
    · intro h
      obtain ⟨s', event, hstep, hevent, hrest⟩ := h.exists_step
      have hstep' : s.step position c (d :: w).head? = .ok (s', event) := hstep
      exact (read_cons_iff hstep' hevent).2 ((ih (hbegun.step hstep)).2 hrest)

end

/-! ## Items -/

/-- No comma of the text stands behind balanced text. -/
def Undivided (operand : Bool) (w : List Char) : Prop :=
  ∀ u v, w = u ++ ',' :: v → ¬Balanced operand u

/-- An item of a list is balanced and holds no comma outside its brackets and literals. -/
structure ListItem (operand : Bool) (w : List Char) : Prop where
  balanced : Balanced operand w
  undivided : Undivided operand w

/-- The text can be read to its end. A line end behind it closes the comment that it may end in. -/
def Readable (w : List Char) : Prop :=
  Balanced true (w ++ ['\n'])

/-- A text and its parts: items with commas between them, the last of which may end inside a line
comment. -/
inductive Listed : List Char → List (List Char) → Prop
  | last {w : List Char} : Readable w → Undivided true w → Listed w [w]
  | cons {w cs : List Char} {parts : List (List Char)} : ListItem true w → Listed cs parts →
      Listed (w ++ ',' :: cs) (w :: parts)

section
variable {size position : Nat} {w cs : List Char} {parts : List (List Char)}

theorem uncut_iff_undivided : Uncut size {} position w ↔ Undivided true w :=
  forall_congr' fun _ => forall_congr' fun _ => imp_congr_right fun _ =>
    not_congr clears_iff_balanced

theorem read_iff_readable : upToUnmatched size {} position w = .ok none ↔ Readable w := by
  cases w with
  | nil => exact ⟨fun _ => .char rfl nofun .nil, fun _ => rfl⟩
  | cons c w =>
    have hbegun : (State.mode {}).Begun := trivial
    exact (read_iff_clears hbegun).trans clears_iff_balanced

theorem Balanced.readable (h : Balanced true w) : Readable w := by
  have hclears : Clears 0 {} 0 w := clears_iff_balanced.2 h
  exact read_iff_readable.1 hclears.read

theorem balanced_append_comma_iff {rest : List Char} (h : Balanced true w) :
    Balanced true (w ++ ',' :: rest) ↔ Balanced true rest := by
  have hclears : Clears 0 {} 0 w := clears_iff_balanced.2 h
  rw [← clears_iff_balanced, hclears.append_comma_iff, clears_iff_balanced]

/-- Of the commas behind balanced text there is a first one. -/
theorem exists_first_comma {u v : List Char} (h : Balanced true u) :
    ∃ u' v', u ++ ',' :: v = u' ++ ',' :: v' ∧ ListItem true u' := by
  by_cases hu : ∃ x y, u = x ++ ',' :: y ∧ Balanced true x
  · obtain ⟨x, y, hxy, hx⟩ := hu
    obtain ⟨u', v', heq, hitem⟩ := exists_first_comma hx
    exact ⟨u', v', by rw [hxy, List.append_assoc, List.cons_append, heq], hitem⟩
  · exact ⟨u, v, rfl, h, fun x y hxy hx => hu ⟨x, y, hxy, hx⟩⟩
termination_by u.length
decreasing_by
  rw [hxy, List.length_append, List.length_cons]
  omega

/-- The parts that the machine finds are those that the text is put together from. -/
theorem listed_of_partsFrom {size position : Nat} {cs : List Char} {parts : List (List Char)}
    (h : partsFrom "," size {} position cs = .ok parts) : Listed cs parts := by
  by_cases hcomma : ∃ u v, cs = u ++ ',' :: v ∧ Balanced true u
  · obtain ⟨u, v, hcs, hbalanced⟩ := hcomma
    obtain ⟨first, rest, hfirst, hitem⟩ := exists_first_comma (v := v) hbalanced
    have hsplit : cs = first ++ ',' :: rest := hcs.trans hfirst
    rw [hsplit, partsFrom_append_comma (clears_iff_balanced.2 hitem.balanced)
      (uncut_iff_undivided.2 hitem.undivided)] at h
    cases hrest : partsFrom "," size {} (position + first.length + 1) rest with
    | error fault => rw [hrest] at h; cases h
    | ok found =>
      rw [hrest] at h
      cases h
      rw [hsplit]
      exact .cons hitem (listed_of_partsFrom hrest)
  · have hundivided : Undivided true cs := fun u v hcs hu => hcomma ⟨u, v, hcs, hu⟩
    have hread := (exists_partsFrom_iff ",").1 ⟨parts, h⟩
    rw [partsFrom_uncut hread (uncut_iff_undivided.2 hundivided)] at h
    cases h
    exact .last (read_iff_readable.1 hread) hundivided
termination_by cs.length
decreasing_by
  rw [hsplit, List.length_append, List.length_cons]
  omega

/-- The machine splits a text into the parts that it is put together from, and no others. -/
theorem partsFrom_eq_ok_iff : partsFrom "," size {} position cs = .ok parts ↔ Listed cs parts := by
  refine ⟨listed_of_partsFrom, fun h => ?_⟩
  induction h generalizing position with
  | last hreadable hundivided =>
    exact partsFrom_uncut (read_iff_readable.2 hreadable) (uncut_iff_undivided.2 hundivided)
  | cons hitem _ ih =>
    rw [partsFrom_append_comma (clears_iff_balanced.2 hitem.balanced)
      (uncut_iff_undivided.2 hitem.undivided), ih]
    rfl

theorem topLevelParts_eq_ok_iff {source : String} {parts : List String} :
    topLevelParts source "," = .ok parts ↔ Listed source.toList (parts.map String.toList) := by
  unfold topLevelParts
  constructor
  · intro h
    split at h
    case h_1 => cases h
    case h_2 found hfound =>
      cases h
      simpa [Function.comp_def] using partsFrom_eq_ok_iff.1 hfound
  · intro h
    rw [partsFrom_eq_ok_iff.2 h]
    simp [Function.comp_def]

theorem Listed.ne_nil (h : Listed cs parts) : parts ≠ [] := by
  cases h <;> exact List.cons_ne_nil _ _

theorem intercalate_comma (h : parts ≠ []) :
    [','].intercalate (w :: parts) = w ++ ',' :: [','].intercalate parts := by
  rw [List.intercalate_cons_of_ne_nil h, List.append_assoc]
  rfl

theorem Listed.join (h : Listed cs parts) : [','].intercalate parts = cs := by
  induction h with
  | last => exact List.intercalate_singleton
  | cons _ hrest ih => rw [intercalate_comma hrest.ne_nil, ih]

theorem Listed.readable (h : Listed cs parts) : ∀ w ∈ parts, Readable w ∧ Undivided true w := by
  induction h with
  | last hreadable hundivided => exact List.forall_mem_singleton.2 ⟨hreadable, hundivided⟩
  | cons hitem _ ih =>
    exact List.forall_mem_cons.2 ⟨⟨hitem.balanced.readable, hitem.undivided⟩, ih⟩

/-- In a balanced text the last part is an item as well. -/
theorem Listed.items (h : Listed cs parts) (hcs : Balanced true cs) :
    ∀ w ∈ parts, ListItem true w := by
  induction h with
  | last _ hundivided => exact List.forall_mem_singleton.2 ⟨hcs, hundivided⟩
  | cons hitem _ ih =>
    exact List.forall_mem_cons.2 ⟨hitem, ih ((balanced_append_comma_iff hitem.balanced).1 hcs)⟩

theorem Listed.intercalate {others : List (List Char)} (hothers : ∀ w ∈ others, ListItem true w)
    {last : List Char} (hlast : Listed last [last]) :
    Listed ([','].intercalate (others ++ [last])) (others ++ [last]) := by
  induction others with
  | nil => simpa using hlast
  | cons w others ih =>
    obtain ⟨hw, hothers⟩ := List.forall_mem_cons.1 hothers
    have hne : others ++ [last] ≠ [] := List.append_ne_nil_of_right_ne_nil _ (List.cons_ne_nil _ _)
    rw [List.cons_append, intercalate_comma hne]
    exact .cons hw (ih hothers)

/-- Items with commas between them make up a text that splits into the items. -/
theorem listed_of_items (hne : parts ≠ []) (h : ∀ w ∈ parts, ListItem true w) :
    Listed ([','].intercalate parts) parts := by
  have hlast := h _ (List.getLast_mem hne)
  have hlisted := Listed.intercalate (fun w hw => h w (List.mem_of_mem_dropLast hw))
    (.last hlast.balanced.readable hlast.undivided)
  rwa [List.dropLast_concat_getLast hne] at hlisted

/-- Items with commas between them make up a balanced text. -/
theorem balanced_intercalate (h : ∀ w ∈ parts, ListItem true w) :
    Balanced true ([','].intercalate parts) := by
  induction parts with
  | nil => exact .nil
  | cons w parts ih =>
    obtain ⟨hw, hparts⟩ := List.forall_mem_cons.1 h
    cases parts with
    | nil => simpa using hw.balanced
    | cons other parts =>
      rw [intercalate_comma (List.cons_ne_nil _ _)]
      exact (balanced_append_comma_iff hw.balanced).2 (ih hparts)

end

/-! ## Splitting and joining -/

/-- A split loses nothing: the parts with the separator between them make up the source. At a comma
it leaves nothing to split: a part read alone is its own only part. -/
theorem topLevelParts_join (source separator : String) (parts : List String)
    (h : topLevelParts source separator = .ok parts) :
    String.intercalate separator parts = source ∧
    (separator = "," → ∀ part ∈ parts, topLevelParts part "," = .ok [part]) := by
  constructor
  · unfold topLevelParts at h
    split at h
    case h_1 => cases h
    case h_2 found hfound =>
      cases h
      rw [← String.toList_inj, String.toList_intercalate, List.map_map]
      simpa [Function.comp_def] using (intercalate_partsFrom hfound).2
  · rintro rfl part hpart
    have hlisted := topLevelParts_eq_ok_iff.1 h
    obtain ⟨hreadable, hundivided⟩ := hlisted.readable _ (List.mem_map_of_mem hpart)
    exact topLevelParts_eq_ok_iff.2 (.last hreadable hundivided)

/-- Commas in a regular expression, a template literal and a comment stay in their parts. -/
theorem topLevelParts_join_mixed :
    topLevelParts "/,/g,\x60${f(a, b)},\x60, c // d, e" ","
      = .ok ["/,/g", "\x60${f(a, b)},\x60", " c // d, e"] ∧
    topLevelParts " c // d, e" "," = .ok [" c // d, e"] := by
  have hparts : topLevelParts "/,/g,\x60${f(a, b)},\x60, c // d, e" ","
      = .ok ["/,/g", "\x60${f(a, b)},\x60", " c // d, e"] := by decide +kernel
  exact ⟨hparts, (topLevelParts_join _ _ _ hparts).2 rfl _ (by simp)⟩

/-- A join is undone by a split, if each part but the last is still one part with a comma behind it,
and the last one by itself. -/
theorem topLevelParts_intercalate (others : List String) (last : String)
    (hothers : ∀ part ∈ others, topLevelParts (part ++ ",") "," = .ok [part, ""])
    (hlast : topLevelParts last "," = .ok [last]) :
    topLevelParts (String.intercalate "," (others ++ [last])) "," = .ok (others ++ [last]) := by
  have hitems : ∀ w ∈ others.map String.toList, ListItem true w := by
    intro w hw
    obtain ⟨part, hpart, rfl⟩ := List.mem_map.1 hw
    have hlisted := topLevelParts_eq_ok_iff.1 (hothers part hpart)
    generalize (part ++ ",").toList = text at hlisted
    cases hlisted with
    | cons hitem _ => exact hitem
  rw [topLevelParts_eq_ok_iff, String.toList_intercalate, List.map_append]
  exact .intercalate hitems (topLevelParts_eq_ok_iff.1 hlast)

/-- The last expression may end inside a comment. -/
theorem topLevelParts_intercalate_mixed :
    topLevelParts ("f(a, b)" ++ ",") "," = .ok ["f(a, b)", ""] ∧
    topLevelParts ("'\x5c','" ++ ",") "," = .ok ["'\x5c','", ""] ∧
    topLevelParts "c / d // e, f" "," = .ok ["c / d // e, f"] ∧
    topLevelParts "f(a, b),'\x5c',',c / d // e, f" ","
      = .ok ["f(a, b)", "'\x5c','", "c / d // e, f"] := by
  have hcall : topLevelParts ("f(a, b)" ++ ",") "," = .ok ["f(a, b)", ""] := by decide +kernel
  have hliteral : topLevelParts ("'\x5c','" ++ ",") "," = .ok ["'\x5c','", ""] := by
    decide +kernel
  have hlast : topLevelParts "c / d // e, f" "," = .ok ["c / d // e, f"] := by decide +kernel
  have hothers : ∀ part ∈ ["f(a, b)", "'\x5c','"],
      topLevelParts (part ++ ",") "," = .ok [part, ""] :=
    List.forall_mem_cons.2 ⟨hcall, List.forall_mem_singleton.2 hliteral⟩
  exact ⟨hcall, hliteral, hlast, topLevelParts_intercalate _ _ hothers hlast⟩

end Espalier.Scan
