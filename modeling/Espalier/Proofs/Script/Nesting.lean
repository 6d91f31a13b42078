import Espalier.Proofs.Script.Invariants

/-!
# Brackets of what is read

The tokens that a reader passes have their brackets in pairs. `Reach` is the least property of
tokens that reading keeps, and `crossAll` passes several tokens at once. Main statement:
`crossAll_of_parse`, by which the brackets of a program match.
-/

namespace Espalier.Script

/-- The closing brackets that are due after several tokens. -/
def crossAll (due : List Mark) : List TokenKind → Option (List Mark)
  | [] => some due
  | kind :: kinds => (kind.cross due).bind (crossAll · kinds)

theorem crossAll_append (due : List Mark) (a b : List TokenKind) :
    crossAll due (a ++ b) = (crossAll due a).bind (crossAll · b) := by
  induction a generalizing due with
  | nil => rfl
  | cons kind a ih =>
    rw [List.cons_append, crossAll, crossAll, Option.bind_assoc]
    congr
    funext due
    exact ih due

/-- No token is to be read again. -/
def Settled (ts : List Token) : Prop :=
  ∀ t ∈ ts, t.retry = none

namespace Reader

/-- Reading may come from the tokens `start`, with the brackets `base` due, to others. -/
inductive Reach (base : List Mark) (start : List Token) : List Mark → List Token → Prop
  | refl : Reach base start base start
  | pass {due due' : List Mark} {t : Token} {ts : List Token} : Reach base start due (t :: ts) →
    t.kind.cross due = some due' → Reach base start due' ts
  | retry {due : List Mark} {t : Token} {ts more : List Token} {text : String} :
    Reach base start due (t :: ts) → t.retry.bind Retry.regex? = some (text, more) →
    Reach base start due more

theorem kept_reach (base : List Mark) (start : List Token) : Kept (Reach base start) where
  pass := .pass
  retry := .retry

/-- Reading keeps every property that passing tokens keeps. -/
theorem upholds_of_kept {inv : List Mark → List Token → Prop} (hinv : Kept inv) (fuel : Nat) :
    Upholds inv (fun _ _ => True) fuel :=
  upholds hinv (fun _ _ _ => trivial) fuel

/-- Where nothing is to be read again, reading goes from token to token. -/
theorem Reach.passed {base due : List Mark} {start ts : List Token} (h : Reach base start due ts)
    (hstart : Settled start) :
    ∃ front, start = front ++ ts ∧ crossAll base (front.map (·.kind)) = some due := by
  induction h with
  | refl => exact ⟨[], rfl, rfl⟩
  | @pass due due' t ts _ hcross ih =>
    obtain ⟨front, rfl, hfront⟩ := ih
    refine ⟨front ++ [t], by simp, ?_⟩
    rw [List.map_append, crossAll_append, hfront]
    show (t.kind.cross due).bind some = some due'
    rw [hcross]
    rfl
  | @retry due t ts more text _ hretry ih =>
    obtain ⟨front, rfl, -⟩ := ih
    rw [hstart t (by simp)] at hretry
    cases hretry

end Reader

/-- The brackets of a program match. -/
theorem crossAll_of_parse {source : String} {program : Program}
    (h : parse source = some program) (hsettled : Settled (tokenize source)) :
    ∃ front last, tokenize source = front ++ [last] ∧ last.kind = .eof ∧
      crossAll [] (front.map (·.kind)) = some [] := by
  unfold parse parseTokens at h
  obtain ⟨⟨found, rest⟩, hread, hrest⟩ := Option.bind_eq_some_iff.1 h
  have hupholds := Reader.upholds_of_kept (Reader.kept_reach [] (tokenize source))
    (readingDepth source.length)
  obtain ⟨-, hreach⟩ := hupholds.statements [] _ _ _ .refl hread
  obtain ⟨front, hfront, hcross⟩ := hreach.passed hsettled
  dsimp only at hrest
  split at hrest
  case h_1 line retry => exact ⟨front, _, hfront, rfl, hcross⟩
  case h_2 => cases hrest

end Espalier.Script
