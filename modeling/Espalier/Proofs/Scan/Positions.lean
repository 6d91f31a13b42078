import Espalier.Proofs.Scan.Completion

/-!
# Where a fault is found

A fault names the place where reading gave up, or the place where the literal or comment began that
has no end. The machine carries the second kind of place with it, and it only ever holds places that
it has passed (`State.Within`). So a fault lies inside the text that was read: `closedBy_fault`.
-/

namespace Espalier.Scan

/-- Where the literal or comment began that the machine is in the middle of. -/
def Mode.start? : Mode → Option Nat
  | .quoted _ start _ | .blockComment start _ | .regex start _ _ => some start
  | .code | .skip | .lineComment | .flags => none

/-- What the machine is in the middle of began between `low` and `position`. -/
def State.Within (s : State) (low position : Nat) : Prop :=
  ∀ start ∈ s.mode.start?, low ≤ start ∧ start ≤ position

/-- The fault lies between two places. -/
def Fault.Between (fault : Fault) (low high : Nat) : Prop :=
  low ≤ fault.position ∧ fault.position ≤ high

section
variable {s s' : State} {low position size : Nat} {c : Char} {next : Option Char} {event : Event}
  {fault : Fault}

theorem State.Within.of_none (h : s.mode.start? = none) : s.Within low position := by
  rw [State.Within, h]
  nofun

theorem State.Within.mono {high : Nat} (h : s.Within low position) (hle : position ≤ high) :
    s.Within low high :=
  fun start hstart => ⟨(h start hstart).1, Nat.le_trans (h start hstart).2 hle⟩

/-- A step in code begins a literal or comment at the character that it reads, if at all. -/
theorem CodeStep.start? {stack : List Frame} {operand : Bool}
    (h : CodeStep stack operand position c next s' event) :
    ∀ start ∈ s'.mode.start?, start = position := by
  cases h with
  | quote | blockComment | regex =>
    intro start hstart
    exact (Option.mem_some.1 hstart).symm
  | backtick | lineComment | opener | closer | unmatched | ordinary => nofun

/-- A step leaves the mode as it is, begins something at its character or ends something. -/
theorem step_start? (hstep : s.step position c next = .ok (s', event)) :
    ∀ start ∈ s'.mode.start?, start ∈ s.mode.start? ∨ start = position := by
  obtain ⟨mode, stack, operand⟩ := s
  cases mode with
  | code =>
    intro start hstart
    rcases step_code_cases hstep with ⟨rest, rfl, -, rfl⟩ | hcode
    · exfalso
      unfold State.inTemplate at hstart
      repeat' split at hstart
      all_goals cases hstart
    · exact .inr (hcode.start? start hstart)
  | skip =>
    cases hstep
    nofun
  | lineComment =>
    cases hstep
    intro start hstart
    by_cases hline : next = some '\n'
    all_goals
      simp only [hline, if_true, if_false] at hstart
      cases hstart
  | flags =>
    cases hstep
    intro start hstart
    unfold afterRegex at hstart
    split at hstart <;> cases hstart
  | quoted | blockComment | regex =>
    intro start hstart
    simp only [State.step, afterRegex] at hstep
    repeat' split at hstep
    all_goals cases hstep
    all_goals first | exact .inl hstart | cases hstart

theorem State.Within.step (h : s.Within low position) (hlow : low ≤ position)
    (hstep : s.step position c next = .ok (s', event)) : s'.Within low (position + 1) := by
  intro start hstart
  rcases step_start? hstep start hstart with hkept | rfl
  · exact h.mono (Nat.le_succ _) start hkept
  · exact ⟨hlow, Nat.le_succ _⟩

/-- A step gives up at its character, or where the literal began that it is in. -/
theorem step_fault (hstep : s.step position c next = .error fault) :
    fault.position ∈ s.mode.start? ∨ fault.position = position := by
  obtain ⟨mode, stack, operand⟩ := s
  cases mode with
  | code =>
    right
    simp only [State.step] at hstep
    split at hstep
    case h_1 => cases hstep
    case h_2 =>
      simp only [State.inCode, State.codeChar, State.close] at hstep
      repeat' split at hstep
      all_goals cases hstep
      rfl
  | skip | lineComment | flags => cases hstep
  | quoted | blockComment | regex =>
    simp only [State.step] at hstep
    repeat' split at hstep
    all_goals cases hstep
    all_goals exact .inl rfl

theorem State.Within.step_fault (h : s.Within low position) (hlow : low ≤ position)
    (hstep : s.step position c next = .error fault) : fault.Between low position := by
  rcases Scan.step_fault hstep with hstart | heq
  · exact h _ hstart
  · exact ⟨heq ▸ hlow, Nat.le_of_eq heq⟩

theorem State.Within.faultAtEnd (h : s.Within low position) (hlow : low ≤ position)
    (hsize : position ≤ size) (hfault : s.faultAtEnd size = some fault) :
    fault.Between low size := by
  obtain ⟨mode, stack, operand⟩ := s
  cases mode with
  | quoted | blockComment | regex =>
    cases hfault
    exact h.mono hsize _ rfl
  | code | skip | lineComment | flags =>
    simp only [State.faultAtEnd] at hfault
    split at hfault
    case isTrue => cases hfault
    case isFalse =>
      cases hfault
      exact ⟨Nat.le_trans hlow hsize, Nat.le_refl _⟩

/-- A reading that gives up does so inside its text. -/
theorem upToUnmatched_fault {cs : List Char} : ∀ {s : State} {position : Nat},
    s.Within low position → low ≤ position → position + cs.length ≤ size →
    upToUnmatched size s position cs = .error fault → fault.Between low size := by
  induction cs with
  | nil =>
    intro s position hwithin hlow hsize h
    cases hend : s.faultAtEnd size with
    | none => rw [upToUnmatched, hend] at h; cases h
    | some found =>
      rw [upToUnmatched, hend] at h
      cases h
      exact hwithin.faultAtEnd hlow hsize hend
  | cons c cs ih =>
    intro s position hwithin hlow hsize h
    rw [List.length_cons] at hsize
    cases hstep : s.step position c cs.head? with
    | error found =>
      rw [upToUnmatched, hstep] at h
      cases h
      obtain ⟨hfrom, hto⟩ := hwithin.step_fault hlow hstep
      exact ⟨hfrom, by omega⟩
    | ok r =>
      obtain ⟨s', event⟩ := r
      by_cases hevent : event = .unmatched
      · subst hevent
        rw [upToUnmatched, hstep] at h
        cases h
      · rw [upToUnmatched_cons hstep hevent] at h
        cases hrest : upToUnmatched size s' (position + 1) cs with
        | ok found =>
          rw [hrest] at h
          cases found <;> cases h
        | error found =>
          rw [hrest] at h
          cases h
          exact ih (hwithin.step hlow hstep) (by omega) (by omega) hrest

/-- An expression that cannot be read has its fault between the place where it begins and the end of
the source. -/
theorem closedBy_fault {closer : String} {cs : List Char} (hsize : position + cs.length ≤ size)
    (h : closedBy closer size position cs = .error fault) : fault.Between position size := by
  unfold closedBy at h
  split at h
  case h_1 found hread =>
    cases h
    exact upToUnmatched_fault (.of_none rfl) (Nat.le_refl _) hsize hread
  case h_2 =>
    cases h
    exact ⟨by show position ≤ size; omega, Nat.le_refl _⟩
  case h_3 cut hcut =>
    split at h
    case isTrue => cases h
    case isFalse =>
      cases h
      rw [upToUnmatched_append hcut, List.length_append] at hsize
      exact ⟨Nat.le_add_right .., by show position + cut.body.length ≤ size; omega⟩

end

end Espalier.Scan
