import Espalier.Proofs.Template.Faults
import Espalier.Proofs.Template.Frame
import Espalier.Script.Lexer

/-!
# Comments around a block

The source of a block inside a comment may hold the end of a comment, in a text, in code or from a
comment inside the block, and so may the value of the comment. All of it is collected first, and
every end in it is broken up before the comment's own end is put behind it. Breaking up leaves no
end and makes none, also where the pieces meet (`unended_breakCommentEnds`), so the comment is a
single one (`visit_singleComment`).
-/

namespace Espalier.Template

open Espalier.Script

/-! ## Ends of comments -/

/-- The end that is put behind the text is the first one. -/
def Unended (cs : List Char) : Prop :=
  ∀ rest, afterBlockComment (cs ++ '*' :: '/' :: rest) = some rest

theorem afterBlockComment_cons {c : Char} {cs : List Char} (h : c ≠ '*' ∨ cs.head? ≠ some '/') :
    afterBlockComment (c :: cs) = afterBlockComment cs := by
  rw [afterBlockComment]
  rintro rest rfl rfl
  exact h.elim (absurd rfl) (absurd rfl)

theorem Unended.cons {c : Char} {cs : List Char} (h : Unended cs)
    (hc : c ≠ '*' ∨ cs.head? ≠ some '/') : Unended (c :: cs) := by
  intro rest
  rw [List.cons_append, afterBlockComment_cons, h rest]
  refine hc.imp_right fun hhead => ?_
  cases cs with
  | nil => exact fun heq => absurd heq (by simp)
  | cons d cs => exact hhead

theorem head?_breakCommentEnds (cs : List Char) : (breakCommentEnds cs).head? = cs.head? := by
  fun_cases breakCommentEnds cs <;> rfl

theorem unended_breakCommentEnds (cs : List Char) : Unended (breakCommentEnds cs) := by
  fun_induction breakCommentEnds cs with
  | case1 => exact fun rest => rfl
  | case2 cs ih =>
    exact ((ih.cons (.inl (by decide))).cons (.inl (by decide))).cons (.inr (by simp))
  | case3 c cs hne ih =>
    refine ih.cons (Decidable.or_iff_not_imp_left.2 fun hstar hslash => ?_)
    rw [head?_breakCommentEnds] at hslash
    obtain ⟨rest, hrest⟩ := List.head?_eq_some_iff.1 hslash
    exact hne rest (Decidable.not_not.1 hstar) hrest

/-- A comment is opened and not ended by what is put inside it. -/
theorem exists_breakCommentEnds (cs : List Char) :
    ∃ inside, breakCommentEnds ('/' :: '*' :: cs) = '/' :: '*' :: inside ∧ Unended inside := by
  by_cases hslash : cs.head? = some '/'
  · obtain ⟨rest, rfl⟩ := List.head?_eq_some_iff.1 hslash
    have hinside : Unended ('/' :: breakCommentEnds rest) :=
      (unended_breakCommentEnds rest).cons (.inl (by decide))
    exact ⟨' ' :: '/' :: breakCommentEnds rest, rfl, hinside.cons (.inl (by decide))⟩
  · have hstar : breakCommentEnds ('*' :: cs) = '*' :: breakCommentEnds cs := by
      rw [breakCommentEnds]
      rintro rest - rfl
      exact hslash rfl
    exact ⟨breakCommentEnds cs, congrArg _ hstar, unended_breakCommentEnds cs⟩

/-- An end that stands somewhere in the text is found, or one before it. -/
theorem exists_afterBlockComment {cs : List Char} {k : Nat} (h : "*/".toList <+: cs.drop k) :
    ∃ rest, afterBlockComment cs = some rest ∧ cs.length ≤ rest.length + (k + 2) := by
  induction cs generalizing k with
  | nil =>
    rw [List.drop_nil] at h
    cases List.prefix_nil.1 h
  | cons c cs ih =>
    by_cases hend : c = '*' ∧ cs.head? = some '/'
    · obtain ⟨rfl, hhead⟩ := hend
      obtain ⟨rest, rfl⟩ := List.head?_eq_some_iff.1 hhead
      exact ⟨rest, rfl, by simp only [List.length_cons]; omega⟩
    · rw [afterBlockComment_cons (Decidable.not_and_iff_or_not.1 hend)]
      cases k with
      | zero =>
        obtain ⟨rest, hrest⟩ := h
        obtain ⟨rfl, rfl⟩ := List.cons.inj hrest
        exact absurd ⟨rfl, rfl⟩ hend
      | succ k =>
        obtain ⟨rest, hrest, hlength⟩ := ih h
        exact ⟨rest, hrest, by rw [List.length_cons]; omega⟩

/-- No end stands before the one that is put behind the text. -/
theorem Unended.length_le {cs rest : List Char} {k : Nat} (h : Unended cs)
    (hk : "*/".toList <+: (cs ++ '*' :: '/' :: rest).drop k) : cs.length ≤ k := by
  obtain ⟨found, hfound, hlength⟩ := exists_afterBlockComment hk
  rw [h rest] at hfound
  cases hfound
  simp only [List.length_append, List.length_cons] at hlength
  omega

/-- The text is one comment and the end of its line. -/
structure SingleComment (text : List Char) : Prop where
  opens : "/*".toList <+: text
  closes : "*/\n".toList <:+ text
  /-- Behind the opening, the end of a comment stands nowhere but at the end. -/
  ended : ∀ k, 2 ≤ k → ("*/".toList <+: text.drop k ↔ k + 3 = text.length)
  /-- Wherever the text stands in a program, it is passed as one comment. -/
  passed : ∀ (s : LexState) rest, s.look (text ++ rest) = .skip (s.withGap .comment) ('\n' :: rest)

theorem Unended.singleComment {inside : List Char} (h : Unended inside) :
    SingleComment ('/' :: '*' :: (inside ++ "*/\n".toList)) where
  opens := List.prefix_append _ _
  closes := List.suffix_append ('/' :: '*' :: inside) _
  ended k hk := by
    obtain ⟨k, rfl⟩ := Nat.exists_eq_add_of_le' hk
    show "*/".toList <+: (inside ++ "*/\n".toList).drop k ↔ _
    have hlength : ('/' :: '*' :: (inside ++ "*/\n".toList)).length = inside.length + 5 := by simp
    rw [hlength]
    constructor
    · intro hprefix
      obtain ⟨j, rfl⟩ := Nat.exists_eq_add_of_le (h.length_le hprefix)
      rw [List.drop_append, List.drop_eq_nil_of_le (Nat.le_add_right _ j), Nat.add_sub_cancel_left,
        List.nil_append] at hprefix
      have hsecond : ¬"*/".toList <+: "*/\n".toList.drop 1 := by decide
      have hshort : 2 ≤ 3 - j := by simpa using hprefix.length_le
      have hj : j = 0 ∨ j = 1 := by omega
      obtain rfl | rfl := hj
      · rfl
      · exact absurd hprefix hsecond
    · intro hend
      have hk : k = inside.length := by omega
      rw [hk, List.drop_left]
      exact ⟨['\n'], rfl⟩
  passed s rest := by
    have hafter : afterBlockComment (inside ++ ("*/\n".toList ++ rest)) = some ('\n' :: rest) :=
      h ('\n' :: rest)
    rw [List.cons_append, List.cons_append, List.append_assoc, LexState.look, hafter]

/-! ## The comment of a block -/

theorem Reports.exists_ok_iff {fault? : Option GenerateFault}
    {r : Except GenerateFailure Emission} (h : Reports fault? r) :
    (∃ s, r = .ok s) ↔ fault? = none := by
  cases fault? with
  | none => exact iff_of_true h rfl
  | some fault =>
    obtain ⟨helpers, rfl⟩ := h
    exact iff_of_false nofun nofun

/-- Whether a block has a source does not depend on what has been emitted before. -/
theorem exists_visitOptional_iff {block : Option (Block String)} (s : Emission) :
    (∃ s', visitOptional block s = .ok s') ↔ firstFault (insideOptional block) = none :=
  (visitOptional_reports block s).exists_ok_iff

/-- A comment that is written out around a block with a source has a source: one comment and a line
end, whatever the value of the comment and the nodes of the block are. -/
theorem visit_singleComment {block : Option (Block String)} {t t' : Emission}
    (h : visitOptional block t = .ok t') (line : Int) (value : String) (s : Emission) :
    ∃ s' fragments, (Node.blockComment line value block true).visit s = .ok s' ∧
      s'.fragments = s.fragments ++ fragments ∧
      SingleComment (String.join fragments.toList).toList := by
  have hnone := (exists_visitOptional_iff t).1 ⟨t', h⟩
  obtain ⟨inner, hinner⟩ :=
    (exists_visitOptional_iff (s.deeper.capture.emit ["/*", value, "\n"])).2 hnone
  obtain ⟨a, ha⟩ := visitOptional_local block _ _ hinner
  have hsource : inner.source.toList
      = '/' :: '*' :: (value ++ "\n" ++ String.join a.fragments).toList := by
    rw [ha.eq_extend hinner]
    simp [Emission.extend, Emission.emit, Emission.source, Emission.capture]
  obtain ⟨inside, hbroken, hunended⟩ :=
    exists_breakCommentEnds (value ++ "\n" ++ String.join a.fragments).toList
  rw [← hsource] at hbroken
  let fragments := #[String.ofList (breakCommentEnds inner.source.toList), "*/", "\n"]
  refine ⟨((inner.release s.fragments).emit fragments.toList).shallower, fragments, ?_, rfl, ?_⟩
  · rw [Node.visit, if_pos rfl]
    show (visitOptional block _ >>= _) = _
    rw [hinner]
    rfl
  · have htext :
        (String.join fragments.toList).toList = '/' :: '*' :: (inside ++ "*/\n".toList) := by
      simp [fragments, hbroken]
    rw [htext]
    exact hunended.singleComment

/-- The value goes on with a slash behind the opening, and a comment, a text and code inside hold
ends of comments. -/
theorem visit_singleComment_nested :
    ∃ s' fragments, (Node.blockComment 1 "/ */" (some (.mk 1 [
        .blockComment 2 "*" (some (.mk 2 [.text 3 "a */ b"])) true,
        .literal 4 "c**/d*"])) true).visit {} = .ok s' ∧
      s'.fragments = ({} : Emission).fragments ++ fragments ∧
      SingleComment (String.join fragments.toList).toList := by
  have hnone : firstFault (insideOptional (some (.mk 1 [
      .blockComment 2 "*" (some (.mk 2 [.text 3 "a */ b"])) true, .literal 4 "c**/d*"])))
        = none := by decide +kernel
  obtain ⟨t', ht⟩ := (exists_visitOptional_iff {}).2 hnone
  exact visit_singleComment ht 1 "/ */" {}

end Espalier.Template
