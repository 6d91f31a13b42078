import Espalier.Proofs.Interpolation.Pieces
import Espalier.Proofs.Scan.Positions

/-!
# Where the scan of a text stops

A scan that meets a fault stops at a marker, and the text before the marker can be scanned on its
own: its expressions end where they ended in the whole text, since the end of an expression depends
on nothing behind it. `StopsAt` says this of a scan that is under way; one rule for each thing that
a look at the text can find leads from the stop of the remaining scan to the stop of the whole. Main
statement: `interpolate_stops`.
-/

namespace Espalier

open Espalier.Text Espalier.Scan

namespace Interpolation

/-! ## The text before a stop -/

/-- Looking at the start of a text gives one result. -/
theorem Leads.lead_eq {cs : List Char} {found : Lead} (h : Leads cs found) : lead cs = found := by
  cases h with
  | done => rfl
  | escaped kind rest => cases kind <;> rfl
  | opened kind rest => cases kind <;> rfl
  | @other c rest hplain =>
    have hleads := leads_lead (c :: rest)
    generalize lead (c :: rest) = found at hleads
    cases hleads with
    | escaped kind tail => exact absurd rfl (hplain.not_escaped kind tail rfl)
    | opened kind tail => exact absurd rfl (hplain.not_opened kind rfl)
    | other => rfl

/-- A marker that begins in a shorter text begins in the longer one as well. -/
theorem Plain.of_append {c : Char} {front rest : List Char} (h : Plain c (front ++ rest)) :
    Plain c front := by
  refine ⟨fun kind hmark hhead => h.not_opened kind hmark ?_, fun kind tail hslash htail => ?_⟩
  · obtain ⟨tail, rfl⟩ := List.head?_eq_some_iff.1 hhead
    rfl
  · subst htail
    exact h.not_escaped kind (tail ++ rest) hslash rfl

/-! ## Stops -/

/-- What stands behind a marker at `position` is refused: it has no end, or it is blank. -/
def Refused (size position : Nat) (rest : List Char) (fault : Fault) : Prop :=
  closedBy "\x7d" size (position + 2) rest = .error fault ∨
    ∃ cut, closedBy "\x7d" size (position + 2) rest = .ok cut ∧ strip cut.body = [] ∧
      fault = ⟨.blank, position⟩

/-- The scan stops at a marker between `front` and `rest`: the marker is not escaped, `front` is
scanned on its own with at most a literal run left over, and `rest` is refused. -/
structure StopsAt (size : Nat) (pending : List Char) (position : Nat) (segs : List Segment)
    (fault : Fault) (front rest : List Char) : Prop where
  unescaped : front.getLast? ≠ some '\x5c'
  scanned : ∃ run, ∀ size' position',
    segmentsFrom size' pending position' front = (segs ++ literal run, none)
  refused : Refused size (position + front.length) rest fault

section
variable {size position : Nat} {pending front rest : List Char} {segs : List Segment}
  {fault : Fault}

theorem StopsAt.here (h : Refused size position rest fault) :
    StopsAt size pending position [] fault [] rest where
  unescaped := nofun
  scanned := ⟨pending, fun _ _ => segmentsFrom_done rfl⟩
  refused := h

theorem StopsAt.other {c : Char} {kind : SegmentKind}
    (hplain : Plain c (front ++ kind.mark :: '\x7b' :: rest))
    (h : StopsAt size (c :: pending) (position + 1) segs fault front rest) :
    StopsAt size pending position segs fault (c :: front) rest where
  unescaped := by
    cases front with
    | nil =>
      intro hslash
      exact hplain.not_escaped kind rest (Option.some.inj hslash) rfl
    | cons d front =>
      rw [List.getLast?_cons_cons]
      exact h.unescaped
  scanned := by
    obtain ⟨run, hrun⟩ := h.scanned
    refine ⟨run, fun size' position' => ?_⟩
    rw [segmentsFrom_other (Leads.other hplain.of_append).lead_eq]
    exact hrun size' _
  refused := by
    have hlength : position + (c :: front).length = position + 1 + front.length := by
      rw [List.length_cons, Nat.add_assoc, Nat.add_comm 1]
    rw [hlength]
    exact h.refused

theorem StopsAt.escaped {kind : SegmentKind}
    (h : StopsAt size ('\x7b' :: kind.mark :: pending) (position + 3) segs fault front rest) :
    StopsAt size pending position segs fault ('\x5c' :: kind.mark :: '\x7b' :: front) rest where
  unescaped := by
    cases front with
    | nil => nofun
    | cons d front =>
      rw [List.getLast?_cons_cons, List.getLast?_cons_cons, List.getLast?_cons_cons]
      exact h.unescaped
  scanned := by
    obtain ⟨run, hrun⟩ := h.scanned
    refine ⟨run, fun size' position' => ?_⟩
    rw [segmentsFrom_escaped (Leads.escaped kind front).lead_eq]
    exact hrun size' _
  refused := by
    have hlength : position + ('\x5c' :: kind.mark :: '\x7b' :: front).length
        = position + 3 + front.length := by
      simp only [List.length_cons]
      omega
    rw [hlength]
    exact h.refused

/-- The body of an expression before the stop is read in the same way when the rest is missing. -/
theorem StopsAt.expr {kind : SegmentKind} {body : List Char} (hbalanced : Balanced true body)
    (hblank : strip body ≠ [])
    (h : StopsAt size [] (position + 3 + body.length) segs fault front rest) :
    StopsAt size pending position (literal pending ++ ⟨kind, String.ofList body⟩ :: segs) fault
      (kind.mark :: '\x7b' :: (body ++ '\x7d' :: front)) rest where
  unescaped := by
    have hlast : (kind.mark :: '\x7b' :: (body ++ '\x7d' :: front)).getLast?
        = some (front.getLast?.getD '\x7d') := by
      simp [List.getLast?_cons, List.getLast?_append]
    rw [hlast]
    cases hfront : front.getLast? with
    | none => decide
    | some d =>
      intro hslash
      exact h.unescaped (hfront.trans hslash)
  scanned := by
    obtain ⟨run, hrun⟩ := h.scanned
    refine ⟨run, fun size' position' => ?_⟩
    have hcut : closedBy "\x7d" size' (position' + 2) (body ++ '\x7d' :: front)
        = .ok ⟨body, '\x7d', front⟩ := closedBy_brace_iff.2 ⟨rfl, rfl, hbalanced⟩
    rw [segmentsFrom_opened (Leads.opened kind _).lead_eq, hcut]
    simp only [List.isEmpty_iff, if_neg hblank, hrun, List.append_assoc, List.cons_append]
  refused := by
    have hlength : position + (kind.mark :: '\x7b' :: (body ++ '\x7d' :: front)).length
        = position + 3 + body.length + front.length := by
      simp only [List.length_cons, List.length_append]
      omega
    rw [hlength]
    exact h.refused

end

/-- A literal run is one segment unless it is empty. -/
theorem literal_eq (pending : List Char) :
    literal pending = if String.ofList pending.reverse = "" then []
      else [⟨.text, quote (String.ofList pending.reverse)⟩] := by
  simp [literal, quote]

/-- A scan with a fault stops at a marker. -/
theorem exists_stopsAt {size : Nat} {cs pending : List Char} {position : Nat} {segs : List Segment}
    {fault : Fault} (h : segmentsFrom size pending position cs = (segs, some fault)) :
    ∃ front kind rest, cs = front ++ SegmentKind.mark kind :: '\x7b' :: rest ∧
      StopsAt size pending position segs fault front rest := by
  induction hlength : cs.length using Nat.strongRecOn generalizing cs pending position segs with
  | ind n ih =>
    subst hlength
    have hleads := leads_lead cs
    generalize hlead : lead cs = found at hleads
    cases hleads with
    | done =>
      rw [segmentsFrom_done hlead] at h
      cases h
    | @other c rest hplain =>
      rw [segmentsFrom_other hlead] at h
      obtain ⟨front, kind, rest, rfl, hstop⟩ := ih _ (Nat.lt_succ_self _) h rfl
      exact ⟨c :: front, kind, rest, rfl, hstop.other hplain⟩
    | escaped kind rest =>
      rw [segmentsFrom_escaped hlead] at h
      obtain ⟨front, kind', rest, rfl, hstop⟩ := ih _ (by simp; omega) h rfl
      exact ⟨_, kind', rest, rfl, hstop.escaped⟩
    | opened kind rest =>
      rw [segmentsFrom_opened hlead] at h
      cases hcut : closedBy "\x7d" size (position + 2) rest with
      | error found =>
        rw [hcut] at h
        cases h
        exact ⟨[], kind, rest, rfl, .here (.inl hcut)⟩
      | ok cut =>
        rw [hcut] at h
        simp only [List.isEmpty_iff] at h
        by_cases hblank : strip cut.body = []
        · rw [if_pos hblank] at h
          cases h
          exact ⟨[], kind, rest, rfl, .here (.inr ⟨cut, hcut, hblank, rfl⟩)⟩
        · rw [if_neg hblank] at h
          obtain ⟨hrest, -, hbalanced⟩ := closedBy_brace_iff.1 hcut
          have hshorter : cut.rest.length < (kind.mark :: '\x7b' :: rest).length := by
            rw [hrest]
            simp
            omega
          obtain ⟨rfl, hafter⟩ := Prod.mk.inj h
          obtain ⟨front, kind', rest', hcs, hstop⟩ := ih _ hshorter (Prod.ext rfl hafter) rfl
          refine ⟨_, kind', rest', ?_, hstop.expr hbalanced hblank⟩
          rw [hrest, hcs]
          simp

/-- The fault of a stop lies behind its marker, and inside the source. -/
theorem Refused.between {size position : Nat} {rest : List Char} {fault : Fault}
    (h : Refused size position rest fault) (hsize : position + 2 + rest.length ≤ size) :
    fault.Between position size := by
  rcases h with hfault | ⟨cut, -, -, rfl⟩
  · obtain ⟨hfrom, hto⟩ := closedBy_fault hsize hfault
    exact ⟨by omega, hto⟩
  · exact ⟨Nat.le_refl _, by show position ≤ size; omega⟩

end Interpolation

open Interpolation

/-- A text whose scan has a fault is cut in two by the marker where the scan stops. The marker is
not escaped, and the first part is scanned without a fault into the segments found so far and at
most one more, the literal run before the marker. Reading an expression behind the marker gives this
very fault or a blank expression, and the fault lies between the marker and the end of the text. -/
theorem interpolate_stops (text : String) (segs : List Segment) (fault : Fault)
    (h : interpolate text = (segs, some fault)) :
    ∃ (front back : String) (kind : SegmentKind) (rest : List Char) (run : String),
      text = front ++ back ∧ back.toList = kind.mark :: '\x7b' :: rest ∧
      front.toList.getLast? ≠ some '\x5c' ∧
      interpolate front = (segs ++ (if run = "" then [] else [⟨.text, quote run⟩]), none) ∧
      (expressionAt text (front.length + 2) "\x7d" = .error fault ∨
        ∃ span, expressionAt text (front.length + 2) "\x7d" = .ok span ∧
          strip span.text.toList = [] ∧ fault = ⟨.blank, front.length⟩) ∧
      front.length ≤ fault.position ∧ fault.position ≤ text.length := by
  obtain ⟨front, kind, rest, htext, hstop⟩ := exists_stopsAt h
  obtain ⟨run, hrun⟩ := hstop.scanned
  have hrefused := hstop.refused
  rw [Nat.zero_add] at hrefused
  have hlength : text.length = front.length + 2 + rest.length := by
    rw [← String.length_toList, htext]
    simp
    omega
  have hdrop : text.toList.drop (front.length + 2) = rest := by
    rw [htext, ← List.drop_drop]
    simp
  refine ⟨String.ofList front, String.ofList (kind.mark :: '\x7b' :: rest), kind, rest,
    String.ofList run.reverse, ?_, String.toList_ofList, ?_, ?_, ?_, ?_⟩
  · rw [← String.ofList_append, ← htext, String.ofList_toList]
  · rw [String.toList_ofList]
    exact hstop.unescaped
  · rw [interpolate, String.toList_ofList, hrun, literal_eq]
  · rw [String.length_ofList, expressionAt, hdrop]
    rcases hrefused with hfault | ⟨cut, hcut, hblank, hfault⟩
    · exact .inl (by rw [hfault])
    · refine .inr ⟨_, by rw [hcut], ?_, hfault⟩
      rw [String.toList_ofList]
      exact hblank
  · rw [String.length_ofList]
    exact hrefused.between (Nat.le_of_eq hlength.symm)

/-- The second marker of this text has no end, and the text before it has two segments and a run. -/
theorem interpolate_stops_unclosed :
    interpolate "a#\x7bb\x7dc!\x7b["
      = ([⟨.text, "\x22a\x22"⟩, ⟨.text, "b"⟩], some ⟨.unclosed, 9⟩) ∧
    ∃ (front back : String) (kind : SegmentKind) (rest : List Char) (run : String),
      "a#\x7bb\x7dc!\x7b[" = front ++ back ∧ back.toList = kind.mark :: '\x7b' :: rest ∧
      front.toList.getLast? ≠ some '\x5c' ∧
      interpolate front = ([⟨.text, "\x22a\x22"⟩, ⟨.text, "b"⟩]
        ++ (if run = "" then [] else [⟨.text, quote run⟩]), none) ∧
      (expressionAt "a#\x7bb\x7dc!\x7b[" (front.length + 2) "\x7d" = .error ⟨.unclosed, 9⟩ ∨
        ∃ span, expressionAt "a#\x7bb\x7dc!\x7b[" (front.length + 2) "\x7d" = .ok span ∧
          strip span.text.toList = [] ∧ (⟨.unclosed, 9⟩ : Fault) = ⟨.blank, front.length⟩) ∧
      front.length ≤ 9 ∧ 9 ≤ "a#\x7bb\x7dc!\x7b[".length := by
  have hscan : interpolate "a#\x7bb\x7dc!\x7b["
      = ([⟨.text, "\x22a\x22"⟩, ⟨.text, "b"⟩], some ⟨.unclosed, 9⟩) := by decide +kernel
  exact ⟨hscan, interpolate_stops _ _ _ hscan⟩

end Espalier
