import Espalier.Proofs.Script.Invariants
import Espalier.Proofs.Script.Literals

/-!
# Tokens of some text

What the readers may rely on: the tokens they are given are those of some text (`Scanned`). Every
token that is a part of it is one that the lexer finds, and so is a regular expression that is read
instead of a division. No literal stands behind the word that introduces an accessor.
-/

namespace Espalier.Script

open Espalier.Text
open Reader (nextKind)

/-! ## Words -/

theorem isNameStart_of_isSpace {c : Char} (h : isSpace c = true) : isNameStart c = false := by
  have hall : ∀ r ∈ spaceTable, ∀ n ∈ List.range' r.1 (r.2 + 1 - r.1),
      isNameStart (Char.ofNat n) = false := by decide +kernel
  simp only [isSpace, inRanges, List.any_eq_true, Bool.and_eq_true, decide_eq_true_eq] at h
  obtain ⟨r, hr, hlow, hhigh⟩ := h
  have hc := hall r hr c.toNat (List.mem_range'_1.2 ⟨hlow, by omega⟩)
  rwa [Char.ofNat_toNat] at hc

/-- A word is found where a name may start. -/
theorem look_of_isNameStart (s : LexState) {c : Char} (hc : isNameStart c = true) (cs : List Char) :
    ∃ word rest, s.look (c :: cs) = .token (wordKind word rest) none rest := by
  have hne : ∀ d, isNameStart d = false → c ≠ d := by
    rintro d hd rfl
    exact Bool.false_ne_true (hd.symm.trans hc)
  have hspace : isSpace c = false := by
    refine Bool.eq_false_iff.2 fun hspace => ?_
    exact Bool.false_ne_true ((isNameStart_of_isSpace hspace).symm.trans hc)
  have hdigit := not_isDigit_of_isNameStart hc
  have hcr := hne '\r' (by decide)
  have hlf := hne '\n' (by decide)
  have hslash := hne '/' (by decide)
  have hdot := hne '.' (by decide)
  have hdouble := hne '\x22' (by decide)
  have hsingle := hne '\x27' (by decide)
  refine ⟨String.ofList (readName (c :: cs)).1, (readName (c :: cs)).2, ?_⟩
  rw [LexState.look]
  · simp only [hcr, hlf, hslash, hdouble, hsingle, hspace, hdigit, hc, or_self, if_false, if_true,
      Bool.false_eq_true]
  all_goals
    intros
    simp_all

theorem isBlank_of_isDigit {d : Char} (hd : d.isDigit = true) : isBlank d = false := by
  have hblanks : ∀ n < 58, 48 ≤ n → isBlank (Char.ofNat n) = false := by decide
  simp only [Char.isDigit, Bool.and_eq_true, decide_eq_true_eq, ge_iff_le,
    UInt32.le_iff_toNat_le] at hd
  have hblank := hblanks d.toNat (Nat.lt_succ_of_le hd.2) hd.1
  rwa [Char.ofNat_toNat] at hblank

/-- The kind is that of a string or a number. -/
def TokenKind.isLiteral : TokenKind → Bool
  | .string _ | .number _ => true
  | _ => false

theorem isLiteral_wordKind (word : String) (rest : List Char) :
    (wordKind word rest).isLiteral = false := by
  obtain h | h | ⟨keyword, h⟩ | h := wordKind_cases word rest <;> rw [h] <;> rfl

/-- A blank and a name lead to no literal. -/
theorem isLiteral_of_blankThenName (s : LexState) {cs : List Char} (h : blankThenName cs = true) :
    (nextKind (s.tokens cs)).isLiteral = false := by
  unfold blankThenName at h
  split at h
  case h_2 => cases h
  case h_1 b c more =>
    obtain ⟨hblank, hc⟩ := Bool.and_eq_true_iff.1 h
    have hb : ∀ d, isBlank d = false → b ≠ d := by
      rintro d hd rfl
      exact Bool.false_ne_true (hd.symm.trans hblank)
    have hword : ∀ s' : LexState, (nextKind (s'.tokens (c :: more))).isLiteral = false := by
      intro s'
      obtain ⟨word, rest, hlook⟩ := look_of_isNameStart s' hc more
      rw [tokens_token hlook]
      exact isLiteral_wordKind word rest
    cases hlook : s.look (b :: c :: more) with
    | stop kind =>
      rw [tokens_stop hlook]
      obtain ⟨rfl, -⟩ | rfl := stop_of_look hlook <;> rfl
    | lineSemi rest =>
      rw [tokens_lineSemi hlook]
      rfl
    | skip s' rest =>
      rw [tokens_skip hlook]
      have hgap := gapText_of_look hlook
      generalize hcs : b :: c :: more = cs at hgap
      cases hgap with
      | space =>
        cases hcs
        exact hword _
      | lineEnd hend =>
        cases hend with
        | newline | «return» =>
          cases hcs
          exact hword _
        | both =>
          cases hcs
          exact absurd hc (by decide)
      | blockComment | lineComment =>
        cases hcs
        exact absurd rfl (hb '/' (by decide))
    | token kind retry rest =>
      rw [tokens_token hlook]
      have htext := tokenText_of_look hlook
      have hsound := sound_of_look hlook
      generalize hcs : b :: c :: more = cs at htext
      cases htext with
      | word => exact isLiteral_wordKind _ _
      | @number w rest =>
        obtain ⟨d, ds, hw, hd⟩ := NumberText.exists_cons hsound
        rw [String.toList_ofList] at hw
        rw [hw] at hcs
        obtain ⟨rfl, -⟩ := List.cons.inj hcs
        obtain hdigit | ⟨rfl, -⟩ := hd
        · exact (Bool.false_ne_true ((isBlank_of_isDigit hdigit).symm.trans hblank)).elim
        · exact absurd rfl (hb '.' (by decide))
      | @string mark w rest hmark =>
        obtain ⟨rfl, -⟩ := List.cons.inj hcs
        obtain rfl | rfl := hmark
        · exact absurd hblank (by decide)
        · exact absurd hblank (by decide)
      | regex | slash | mark => rfl

/-! ## Tokens of some text -/

/-- The tokens are those of some text, as far as there are any. -/
def Scanned (ts : List Token) : Prop :=
  ts = [] ∨ ∃ (s : LexState) (cs : List Char), ts = s.tokens cs

/-- The kind is that of a part of the text, no end and no supplied semicolon. -/
def TokenKind.isPart : TokenKind → Bool
  | .lineSemi | .eof | .invalid => false
  | _ => true

theorem scanned_tokens (s : LexState) (cs : List Char) : Scanned (s.tokens cs) :=
  .inr ⟨s, cs, rfl⟩

/-- A token is a part of the text, with the tokens of the rest behind it, or it stands for a place
in the text. -/
theorem look_of_tokens {s : LexState} {cs : List Char} {t : Token} {ts : List Token}
    (h : s.tokens cs = t :: ts) :
    t.kind.isPart = false ∧ t.retry = none ∧ Scanned ts ∨
    ∃ (s' : LexState) (cs' rest : List Char), s'.look cs' = .token t.kind t.retry rest ∧
      ts = (s'.after t.kind).tokens rest := by
  induction s, cs using LexState.look_induction with
  | stop s cs kind hlook =>
    rw [tokens_stop hlook] at h
    cases h
    refine .inl ⟨?_, rfl, .inl rfl⟩
    obtain ⟨rfl, -⟩ | rfl := stop_of_look hlook <;> rfl
  | skip s cs s' rest hlook ih =>
    rw [tokens_skip hlook] at h
    exact ih h
  | lineSemi s cs rest hlook =>
    rw [tokens_lineSemi hlook] at h
    cases h
    exact .inl ⟨rfl, rfl, scanned_tokens _ _⟩
  | token s cs kind retry rest hlook =>
    rw [tokens_token hlook] at h
    cases h
    exact .inr ⟨s, cs, rest, hlook, rfl⟩

namespace Scanned



variable {t : Token} {ts more : List Token} {kind : TokenKind}

theorem tail (h : Scanned ts) : Scanned ts.tail := by
  cases ts with
  | nil => exact h
  | cons t ts =>
    obtain hnil | ⟨s, cs, htokens⟩ := h
    · cases hnil
    · obtain ⟨-, -, hts⟩ | ⟨s', _, rest, -, rfl⟩ := look_of_tokens htokens.symm
      · exact hts
      · exact scanned_tokens _ _

theorem genuine (h : Scanned ts) (hnext : nextKind ts = kind) (hpart : kind.isPart = true) :
    kind.Genuine := by
  subst hnext
  cases ts with
  | nil => cases hpart
  | cons t ts =>
    obtain hnil | ⟨s, cs, htokens⟩ := h
    · cases hnil
    · obtain ⟨hkind, -⟩ | ⟨s', cs', rest, hlook, -⟩ := look_of_tokens htokens.symm
      · cases hkind.symm.trans hpart
      · exact ⟨s', cs', t.retry, rest, hlook⟩

/-- What is read instead of a slash is a regular expression, with tokens of a text behind it. -/
theorem retry {text : String}
    (hretry : t.retry.bind Retry.regex? = some (text, more)) :
    (TokenKind.regex text).Genuine ∧ Scanned more := by
  obtain ⟨again, -, hregex⟩ := Option.bind_eq_some_iff.1 hretry
  obtain ⟨⟨w, rest⟩, hread, heq⟩ := Option.map_eq_some_iff.1 hregex
  cases heq
  have hsound : (TokenKind.regex (String.ofList w)).Sound := by
    show RegexText (String.ofList w).toList
    rw [String.toList_ofList]
    exact regexText_of_read hread
  exact ⟨hsound.genuine, scanned_tokens _ _⟩


theorem isPart_of_isAccessor (h : kind.isAccessor = true) : kind.isPart = true := by
  cases kind with
  | getter | setter => rfl
  | _ => cases h

theorem blankThenName_of_isAccessor {word : String} {rest : List Char}
    (h : (wordKind word rest).isAccessor = true) : blankThenName rest = true := by
  unfold wordKind at h
  split at h
  case isTrue hget => exact hget.2
  case isFalse =>
    split at h
    case isTrue hset => exact hset.2
    case isFalse => split at h <;> cases h

/-- No literal stands behind the word that introduces an accessor. -/
theorem isLiteral_tail (h : Scanned ts) (hnext : (nextKind ts).isAccessor = true) :
    (nextKind ts.tail).isLiteral = false := by
  cases ts with
  | nil => rfl
  | cons t ts =>
    obtain hnil | ⟨s, cs, htokens⟩ := h
    · cases hnil
    · have haccessor : t.kind.isAccessor = true := hnext
      obtain ⟨hkind, -⟩ | ⟨s', cs', rest, hlook, rfl⟩ := look_of_tokens htokens.symm
      · cases (isPart_of_isAccessor haccessor).symm.trans hkind
      · refine isLiteral_of_blankThenName _ ?_
        have htext := tokenText_of_look hlook
        generalize t.kind = kind, t.retry = again at haccessor htext
        cases htext with
        | word => exact blankThenName_of_isAccessor haccessor
        | mark | slash | number | string | regex => cases haccessor

end Scanned
end Espalier.Script
