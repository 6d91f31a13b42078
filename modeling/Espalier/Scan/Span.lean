import Espalier.Scan.Machine

/-!
# Where an expression ends

An expression that begins at a known offset ends at the first closing bracket that has no opening
one. `upToUnmatched` splits a text there, and `expressionAt` gives the span of the expression when
that bracket is the one the caller waits for.
-/

namespace Espalier.Scan

/-- A text cut at its first unmatched closing bracket. -/
structure Cut where
  body : List Char
  closer : Char
  rest : List Char
  deriving DecidableEq, Repr

/-- Cut a text at its first unmatched closing bracket. The text begins at `position` in a source of
`size` characters; `none` when no bracket is left over and nothing is open at the end. -/
def upToUnmatched (size : Nat) (s : State) (position : Nat) :
    List Char → Except Fault (Option Cut)
  | [] =>
    match s.faultAtEnd size with
    | some fault => .error fault
    | none => .ok none
  | c :: cs =>
    match s.step position c cs.head? with
    | .error fault => .error fault
    | .ok (_, .unmatched) => .ok (some ⟨[], c, cs⟩)
    | .ok (s', _) =>
      match upToUnmatched size s' (position + 1) cs with
      | .ok (some cut) => .ok (some { cut with body := c :: cut.body })
      | other => other

/-- Nothing is lost: the parts of a cut make up the text. -/
theorem upToUnmatched_append {size : Nat} {s : State} {position : Nat} {cs : List Char} {cut : Cut}
    (h : upToUnmatched size s position cs = .ok (some cut)) :
    cs = cut.body ++ cut.closer :: cut.rest := by
  induction cs generalizing s position cut with
  | nil =>
    simp only [upToUnmatched] at h
    split at h <;> simp at h
  | cons c cs ih =>
    simp only [upToUnmatched] at h
    split at h
    · simp at h
    · simp only [Except.ok.injEq, Option.some.injEq] at h
      subst h
      rfl
    · split at h
      next cut' hcut =>
        simp only [Except.ok.injEq, Option.some.injEq] at h
        subst h
        simp [ih hcut]
      next other hother =>
        exact absurd h (hother cut)

/-- An expression up to the bracket `closer`, which begins at `position` in a source of `size`
characters. -/
def closedBy (closer : String) (size position : Nat) (cs : List Char) : Except Fault Cut :=
  match upToUnmatched size {} position cs with
  | .error fault => .error fault
  | .ok none => .error ⟨.unclosed, size⟩
  | .ok (some cut) =>
    if closer.toList = [cut.closer] then .ok cut
    else .error ⟨.unmatched cut.closer, position + cut.body.length⟩

/-- An expression closed by a bracket is followed by that bracket and the rest. -/
theorem closedBy_append {closer : String} {size position : Nat} {cs : List Char} {cut : Cut}
    (h : closedBy closer size position cs = .ok cut) :
    cs = cut.body ++ cut.closer :: cut.rest := by
  unfold closedBy at h
  split at h
  · simp at h
  · simp at h
  · next cut' hcut =>
    split at h
    · simp only [Except.ok.injEq] at h
      subst h
      exact upToUnmatched_append hcut
    · simp at h

/-- The span of an expression in its source; `stop` is the offset of the closing bracket. -/
structure Span where
  start : Nat
  stop : Nat
  text : String
  deriving DecidableEq, Repr

/-- The expression of `source` that begins at `start` and ends at an unmatched `closer`. -/
def expressionAt (source : String) (start : Nat) (closer : String) : Except Fault Span :=
  match closedBy closer source.length start (source.toList.drop start) with
  | .error fault => .error fault
  | .ok cut => .ok ⟨start, start + cut.body.length, String.ofList cut.body⟩

end Espalier.Scan
