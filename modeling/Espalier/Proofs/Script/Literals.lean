import Espalier.Proofs.Script.Lexing
import Espalier.Proofs.Script.Seams
import Mathlib.Data.List.Infix

/-!
# Tokens read again

What the lexer has taken for a token is the same token in any other text, as long as the text goes
on with a character that the token cannot go on with (`TokenKind.stops`). `TokenKind.Sound` says of
a token that it is one that the lexer finds; numbers are described by their grammar, since a number
may go on with a dot or not. Main statement: `look_of_ends`.
-/

namespace Espalier.Script

open Espalier.Text

/-! ## Numbers -/

theorem readWhile_stop {p : Char → Bool} {text : List Char} (h : ∀ d ∈ text, p d = true) {c : Char}
    (hc : p c = false) (rest : List Char) :
    readWhile p (text ++ c :: rest) = (text, c :: rest) := by
  rw [readWhile, List.takeWhile_append_of_pos h, List.dropWhile_append_of_pos h,
    List.takeWhile_cons_of_neg (by simp [hc]), List.dropWhile_cons_of_neg (by simp [hc]),
    List.append_nil]

theorem mem_readWhile {p : Char → Bool} {cs : List Char} {d : Char} (h : d ∈ (readWhile p cs).1) :
    p d = true :=
  List.all_eq_true.1 List.all_takeWhile d h

/-- An exponent, or nothing. -/
inductive ExponentText : List Char → Prop
  | none : ExponentText []
  | plain {e : Char} {digits : List Char} (he : e = 'e' ∨ e = 'E') (hne : digits ≠ [])
      (hdigits : ∀ d ∈ digits, d.isDigit = true) : ExponentText (e :: digits)
  | signed {e sign : Char} {digits : List Char} (he : e = 'e' ∨ e = 'E')
      (hsign : sign = '+' ∨ sign = '-') (hne : digits ≠ [])
      (hdigits : ∀ d ∈ digits, d.isDigit = true) : ExponentText (e :: sign :: digits)

theorem readExponentDigits_eq_some {opening cs : List Char} {part : Part}
    (h : readExponentDigits opening cs = some part) :
    ∃ digits, part.1 = opening ++ digits ∧ digits ≠ [] ∧ ∀ d ∈ digits, d.isDigit = true := by
  simp only [readExponentDigits] at h
  split at h
  · cases h
  · rename_i hne
    cases h
    exact ⟨_, rfl, fun hnil => hne (by rw [hnil]; rfl), fun d => mem_readWhile⟩

theorem exponentText_readExponent (cs : List Char) : ExponentText (readExponent cs).1 := by
  simp only [readExponent]
  split
  case h_2 => exact .none
  case h_1 e sign rest =>
    split
    case isFalse => exact .none
    case isTrue he =>
      split
      case isTrue hsign =>
        cases hread : readExponentDigits [e, sign] rest with
        | none => exact .none
        | some part =>
          obtain ⟨digits, hpart, hne, hdigits⟩ := readExponentDigits_eq_some hread
          rw [Option.getD_some, hpart]
          exact .signed he hsign hne hdigits
      case isFalse =>
        cases hread : readExponentDigits [e] (sign :: rest) with
        | none => exact .none
        | some part =>
          obtain ⟨digits, hpart, hne, hdigits⟩ := readExponentDigits_eq_some hread
          rw [Option.getD_some, hpart]
          exact .plain he hne hdigits

theorem readExponentDigits_stop {opening digits : List Char} (hne : digits ≠ [])
    (hdigits : ∀ d ∈ digits, d.isDigit = true) {c : Char} (hc : c.isDigit = false)
    (rest : List Char) :
    readExponentDigits opening (digits ++ c :: rest) = some (opening ++ digits, c :: rest) := by
  simp only [readExponentDigits, readWhile_stop hdigits hc]
  rw [if_neg (by simpa using hne)]

/-- The exponent ends before a character that is no digit; if there is none, none begins there. -/
theorem ExponentText.read {text : List Char} (h : ExponentText text) {c : Char}
    (hc : c.isDigit = false) (he : c ≠ 'e') (hE : c ≠ 'E') (rest : List Char) :
    readExponent (text ++ c :: rest) = (text, c :: rest) := by
  cases h with
  | none =>
    cases rest with
    | nil => rfl
    | cons d rest => simp [readExponent, he, hE]
  | @plain e digits hmark hne hdigits =>
    obtain ⟨d, ds, rfl⟩ := List.exists_cons_of_ne_nil hne
    have hd : d.isDigit = true := hdigits d (List.mem_cons_self ..)
    have hsign : ¬(d = '+' ∨ d = '-') := by
      rintro (rfl | rfl) <;> cases hd
    have hread : readExponentDigits [e] _ = _ := readExponentDigits_stop hne hdigits hc rest
    simp only [List.cons_append, readExponent, if_pos hmark, if_neg hsign] at hread ⊢
    rw [hread]
    rfl
  | @signed e sign digits hmark hsign hne hdigits =>
    have hread : readExponentDigits [e, sign] _ = _ :=
      readExponentDigits_stop hne hdigits hc rest
    simp only [List.cons_append, readExponent, if_pos hmark, if_pos hsign]
    rw [hread]
    rfl

/-- No digit stands at the start of an exponent. -/
theorem ExponentText.exists_cons {text : List Char} (h : ExponentText text) {c : Char}
    (hc : c.isDigit = false) (rest : List Char) :
    ∃ d more, text ++ c :: rest = d :: more ∧ d.isDigit = false ∧
      (text ≠ [] → d = 'e' ∨ d = 'E') := by
  cases h with
  | none => exact ⟨c, rest, rfl, hc, fun h => absurd rfl h⟩
  | plain he | signed he =>
    refine ⟨_, _, rfl, ?_, fun _ => he⟩
    obtain rfl | rfl := he <;> rfl

/-- The part of a number behind its whole part. -/
inductive FractionText : List Char → Prop
  | exponent {text : List Char} (h : ExponentText text) : FractionText text
  | fraction {digits text : List Char} (hdigits : ∀ d ∈ digits, d.isDigit = true)
      (h : ExponentText text) : FractionText ('.' :: digits ++ text)

theorem fractionText_readFraction (cs : List Char) : FractionText (readFraction cs).1 := by
  unfold readFraction
  split
  · exact .fraction (fun d => mem_readWhile) (exponentText_readExponent _)
  · exact .exponent (exponentText_readExponent _)

theorem FractionText.read {text : List Char} (h : FractionText text) {c : Char}
    (hc : c.isDigit = false) (he : c ≠ 'e') (hE : c ≠ 'E') (hdot : text = [] → c ≠ '.')
    (rest : List Char) : readFraction (text ++ c :: rest) = (text, c :: rest) := by
  cases h with
  | exponent h =>
    obtain ⟨d, more, heq, -, hd⟩ := h.exists_cons hc rest
    have hread := h.read hc he hE rest
    have hne : d ≠ '.' := by
      rintro rfl
      by_cases hnil : text = []
      · subst hnil
        cases heq
        exact hdot rfl rfl
      · obtain h | h := hd hnil <;> cases h
    rw [heq] at hread ⊢
    rw [readFraction]
    · exact hread
    · intro tail heq
      cases heq
      exact hne rfl
  | @fraction digits text hdigits h =>
    obtain ⟨d, more, heq, hd, -⟩ := h.exists_cons hc rest
    have hread := h.read hc he hE rest
    rw [heq] at hread
    simp only [List.cons_append, List.append_assoc, heq, readFraction, readWhile_stop hdigits hd,
      hread]

theorem FractionText.head {text : List Char} (h : FractionText text) :
    text = [] ∨ ∃ d more, text = d :: more ∧ (d = '.' ∨ d = 'e' ∨ d = 'E') := by
  cases h with
  | exponent h =>
    cases h with
    | none => exact .inl rfl
    | plain he | signed he => exact .inr ⟨_, _, rfl, .inr he⟩
  | fraction => exact .inr ⟨_, _, rfl, .inl rfl⟩

/-- A number. -/
inductive NumberText : List Char → Prop
  | hex {x : Char} {digits : List Char} (hx : x = 'x' ∨ x = 'X') (hne : digits ≠ [])
      (hdigits : ∀ d ∈ digits, isHexDigit d = true) : NumberText ('0' :: x :: digits)
  | octal {digits : List Char} (hne : digits ≠ [])
      (hdigits : ∀ d ∈ digits, isOctalDigit d = true) : NumberText ('0' :: digits)
  | zero {text : List Char} (h : FractionText text) : NumberText ('0' :: text)
  | decimal {d : Char} {digits text : List Char} (hd : d.isDigit = true) (hzero : d ≠ '0')
      (hdigits : ∀ d ∈ digits, d.isDigit = true) (h : FractionText text) :
      NumberText (d :: digits ++ text)
  | point {d : Char} {digits text : List Char} (hd : d.isDigit = true)
      (hdigits : ∀ d ∈ digits, d.isDigit = true) (h : ExponentText text) :
      NumberText ('.' :: d :: digits ++ text)

theorem numberText_readNumber {c : Char} {cs : List Char}
    (h : c.isDigit = true ∨ c = '.' ∧ ∃ d more, cs = d :: more ∧ d.isDigit = true) :
    NumberText (readNumber (c :: cs)).1 := by
  unfold readNumber
  split
  case h_1 x digit rest heq =>
    cases heq
    split
    case isTrue hx =>
      refine .hex hx.1 ?_ fun d => mem_readWhile
      simp [readWhile, hx.2]
    case isFalse =>
      split
      case isTrue hoctal =>
        refine .octal ?_ fun d => mem_readWhile
        simp [readWhile, hoctal]
      case isFalse => exact .zero (fractionText_readFraction _)
  case h_2 heq =>
    cases heq
    dsimp only
    split
    case isTrue => exact .zero (fractionText_readFraction _)
    case isFalse hne => exact .octal (fun hnil => hne (by rw [hnil]; rfl)) fun d => mem_readWhile
  case h_3 hlong hshort =>
    have hzero : c ≠ '0' := fun hc => hshort cs (by rw [hc])
    obtain hdigit | ⟨rfl, d, more, rfl, hd⟩ := h
    · have htake : (readWhile Char.isDigit (c :: cs)).1 = c :: cs.takeWhile Char.isDigit := by
        rw [readWhile, List.takeWhile_cons_of_pos hdigit]
      show NumberText ((readWhile Char.isDigit (c :: cs)).1 ++ _)
      rw [htake]
      exact .decimal hdigit hzero (fun d => List.all_eq_true.1 List.all_takeWhile d)
        (fractionText_readFraction _)
    · have hnone : readWhile Char.isDigit ('.' :: d :: more) = ([], '.' :: d :: more) := rfl
      have htake : (readWhile Char.isDigit (d :: more)).1 = d :: more.takeWhile Char.isDigit := by
        rw [readWhile, List.takeWhile_cons_of_pos hd]
      simp only [hnone, readFraction, htake, List.nil_append]
      exact .point hd (fun d => List.all_eq_true.1 List.all_takeWhile d)
        (exponentText_readExponent _)

/-- The number is read as such before a dot. -/
def endsBeforeDot (text : List Char) : Bool :=
  (readNumber (text ++ ['.'])).1 == text

theorem isDigit_of_isOctalDigit {c : Char} (h : isOctalDigit c = true) : c.isDigit = true := by
  simp only [isOctalDigit, Bool.and_eq_true, decide_eq_true_eq] at h
  have hupper : c ≤ '9' := Char.le_trans h.2 (by decide)
  simpa [Char.isDigit, Char.le_def, UInt32.le_iff_toNat_le] using And.intro h.1 hupper

/-- A zero before what makes it neither hexadecimal nor octal. -/
theorem readNumber_zero {d : Char} (hx : d ≠ 'x') (hX : d ≠ 'X') (hoctal : isOctalDigit d = false)
    (more : List Char) :
    readNumber ('0' :: d :: more)
      = ('0' :: (readFraction (d :: more)).1, (readFraction (d :: more)).2) := by
  cases more with
  | nil => simp [readNumber, readWhile, hoctal]
  | cons digit more => simp [readNumber, hx, hX, hoctal]

/-- Digits that do not begin with a zero, and what follows them. -/
theorem readNumber_decimal {d : Char} {digits : List Char} (hzero : d ≠ '0')
    (hdigits : ∀ e ∈ d :: digits, e.isDigit = true) {c : Char} (hc : c.isDigit = false)
    (rest : List Char) :
    readNumber (d :: digits ++ c :: rest)
      = (d :: digits ++ (readFraction (c :: rest)).1, (readFraction (c :: rest)).2) := by
  have hread := readWhile_stop hdigits hc rest
  rw [readNumber, hread]
  all_goals
    intros
    simp_all

theorem NumberText.read {text : List Char} (h : NumberText text) {c : Char}
    (hdigit : isHexDigit c = false) (hx : c ≠ 'x') (hX : c ≠ 'X')
    (hdot : c = '.' → endsBeforeDot text = true) (rest : List Char) :
    readNumber (text ++ c :: rest) = (text, c :: rest) := by
  have hc : c.isDigit = false := by
    simp only [isHexDigit, Bool.or_eq_false_iff] at hdigit
    exact hdigit.1.1
  have hoctal : isOctalDigit c = false := Bool.eq_false_iff.2 fun h =>
    Bool.false_ne_true (hc.symm.trans (isDigit_of_isOctalDigit h))
  have he : c ≠ 'e' := by
    rintro rfl
    cases hdigit
  have hE : c ≠ 'E' := by
    rintro rfl
    cases hdigit
  cases h with
  | @hex x digits hmark hne hdigits =>
    obtain ⟨d, ds, rfl⟩ := List.exists_cons_of_ne_nil hne
    have hd : isHexDigit d = true := hdigits d (List.mem_cons_self ..)
    have hread := readWhile_stop hdigits hdigit rest
    simp only [List.cons_append, readNumber, hmark, hd, and_self, if_true] at hread ⊢
    rw [hread]
  | @octal digits hne hdigits =>
    obtain ⟨d, ds, rfl⟩ := List.exists_cons_of_ne_nil hne
    have hd : isOctalDigit d = true := hdigits d (List.mem_cons_self ..)
    have hnot : ¬(d = 'x' ∨ d = 'X') := by
      rintro (rfl | rfl) <;> cases hd
    have hread := readWhile_stop hdigits hoctal rest
    obtain ⟨y, more, heq⟩ : ∃ y more, ds ++ c :: rest = y :: more := by
      cases ds <;> exact ⟨_, _, rfl⟩
    simp only [List.cons_append, heq] at hread ⊢
    simp only [readNumber, hnot, false_and, if_false, hd, if_true, hread]
  | @zero text h =>
    obtain rfl | ⟨d, more, rfl, hd⟩ := h.head
    · have hstop : c ≠ '.' := by
        rintro rfl
        exact absurd (hdot rfl) (by decide)
      rw [List.cons_append, List.nil_append, readNumber_zero hx hX hoctal]
      have hread := h.read hc he hE (fun _ => hstop) rest
      rw [List.nil_append] at hread
      rw [hread]
    · have hread := h.read hc he hE (by rintro ⟨⟩) rest
      rw [List.cons_append] at hread
      rw [List.cons_append, List.cons_append, readNumber_zero, hread]
      all_goals obtain rfl | rfl | rfl := hd <;> decide
  | @decimal d digits text hd hzero hdigits h =>
    have hall : ∀ e ∈ d :: digits, e.isDigit = true := List.forall_mem_cons.2 ⟨hd, hdigits⟩
    have hstop : text = [] → c ≠ '.' := by
      rintro rfl rfl
      have hfalse := hdot rfl
      rw [endsBeforeDot, List.append_nil, readNumber_decimal hzero hall rfl] at hfalse
      simp [readFraction, readWhile, readExponent] at hfalse
    have hread := h.read hc he hE hstop rest
    obtain ⟨e, more, heq, hne⟩ : ∃ e more, text ++ c :: rest = e :: more ∧ e.isDigit = false := by
      obtain rfl | ⟨e, more, rfl, he⟩ := h.head
      · exact ⟨c, rest, rfl, hc⟩
      · refine ⟨e, _, rfl, ?_⟩
        obtain rfl | rfl | rfl := he <;> rfl
    rw [heq] at hread
    rw [List.append_assoc, heq, readNumber_decimal hzero hall hne, hread]
  | @point d digits text hd hdigits h =>
    have hall : ∀ e ∈ d :: digits, e.isDigit = true := List.forall_mem_cons.2 ⟨hd, hdigits⟩
    have hread := (FractionText.fraction hall h).read hc he hE (by rintro ⟨⟩) rest
    rw [readNumber]
    · have hnone : ∀ cs, readWhile Char.isDigit ('.' :: cs) = ([], '.' :: cs) := fun _ => rfl
      simp only [List.cons_append, hnone, List.nil_append] at hread ⊢
      rw [hread]
    all_goals
      intros
      simp_all

/-! ## String literals -/

theorem readQuoted_ne_nil {mark : Char} {cs : List Char} {part : Part}
    (h : readQuoted mark cs = some part) : part.1 ≠ [] := by
  fun_cases readQuoted mark cs
  all_goals simp_all [readQuoted, Part.prepend]
  all_goals grind [Part.prepend]

/-- A literal is read again with anything behind it. -/
theorem readQuoted_again {mark : Char} (hmark : mark ≠ '\x5c') {cs : List Char} {part : Part}
    (h : readQuoted mark cs = some part) (rest : List Char) :
    readQuoted mark (part.1 ++ rest) = some (part.1, rest) := by
  fun_induction readQuoted mark cs generalizing part with
  | case1 | case4 | case6 | case8 | case10 => cases h
  | case2 cs ih =>
    obtain ⟨inner, hinner, rfl⟩ := Option.map_eq_some_iff.1 h
    simp only [Part.prepend, List.cons_append, List.nil_append, readQuoted, ih hinner]
    rfl
  | case3 a b cs hhex ih =>
    obtain ⟨inner, hinner, rfl⟩ := Option.map_eq_some_iff.1 h
    simp only [Part.prepend, List.cons_append, List.nil_append, readQuoted, ih hinner,
      hhex, if_true]
    rfl
  | case5 a b c d cs hhex ih =>
    obtain ⟨inner, hinner, rfl⟩ := Option.map_eq_some_iff.1 h
    simp only [Part.prepend, List.cons_append, List.nil_append, readQuoted, ih hinner,
      hhex, if_true]
    rfl
  | case7 c cs hline hhex hcode hescape ih =>
    obtain ⟨inner, hinner, rfl⟩ := Option.map_eq_some_iff.1 h
    have happend := readQuoted_append hinner
    obtain ⟨d, ds, hd⟩ := List.exists_cons_of_ne_nil (readQuoted_ne_nil hinner)
    have hx : c ≠ 'x' := by
      rintro rfl
      exact absurd hescape (by decide)
    have hu : c ≠ 'u' := by
      rintro rfl
      exact absurd hescape (by decide)
    have hread := ih hinner
    simp only [Part.prepend, List.cons_append, List.nil_append]
    rw [readQuoted, if_pos hescape, hread]
    · rfl
    · rintro tail rfl heq
      rw [hd] at happend heq
      cases heq
      exact hline _ rfl happend.symm
    · exact fun _ _ _ h => absurd h hx
    · exact fun _ _ _ _ _ h => absurd h hu
  | case9 cs =>
    cases h
    simp only [List.cons_append, List.nil_append]
    rw [readQuoted, if_pos rfl]
    all_goals
      intros
      contradiction
  | case11 c cs _ _ _ _ hc hchar ih =>
    obtain ⟨inner, hinner, rfl⟩ := Option.map_eq_some_iff.1 h
    have hslash : c ≠ '\x5c' := by
      rintro rfl
      exact hchar rfl
    simp only [Part.prepend, List.cons_append, List.nil_append]
    rw [readQuoted, if_neg hc, if_neg hchar, ih hinner]
    · rfl
    all_goals
      intros
      contradiction

/-! ## Regular expressions -/

/-- The character is a flag of a regular expression. -/
def isFlag (c : Char) : Bool :=
  c.toNat < 128 && c.isAlphanum

/-- A regular expression is read again before a character that is no flag. -/
theorem readRegexTail_again {inClass : Bool} {cs : List Char} {part : Part}
    (h : readRegexTail inClass cs = some part) {c : Char} (hc : isFlag c = false)
    (rest : List Char) :
    readRegexTail inClass (part.1 ++ c :: rest) = some (part.1, c :: rest) := by
  fun_induction readRegexTail inClass cs generalizing part with
  | case1 | case2 | case4 => cases h
  | case3 inClass d cs hline ih =>
    obtain ⟨inner, hinner, rfl⟩ := Option.map_eq_some_iff.1 h
    simp only [Part.prepend, List.cons_append, List.nil_append]
    rw [readRegexTail, if_neg hline, ih hinner]
    rfl
  | case5 d cs _ hslash ih =>
    obtain ⟨inner, hinner, rfl⟩ := Option.map_eq_some_iff.1 h
    simp only [Part.prepend, List.cons_append, List.nil_append]
    rw [readRegexTail, if_neg hslash, if_pos rfl, ih hinner]
    · rfl
    · exact fun _ _ h => absurd h hslash
  | case6 inClass cs hclass flags _ hflags =>
    cases h
    have hall : ∀ d ∈ flags, isFlag d = true := by
      intro d hd
      have hmem : d ∈ (readWhile isFlag cs).1 := (congrArg Prod.fst hflags).symm ▸ hd
      exact mem_readWhile hmem
    have hread : readWhile (fun d => decide (d.toNat < 128) && d.isAlphanum) (flags ++ c :: rest)
        = (flags, c :: rest) := readWhile_stop hall hc rest
    simp only [List.cons_append]
    rw [readRegexTail, if_neg (by decide), if_neg hclass, if_pos rfl, hread]
    exact fun _ _ h => absurd h (by decide)
  | case7 inClass d cs _ hslash hclass hend ih =>
    obtain ⟨inner, hinner, rfl⟩ := Option.map_eq_some_iff.1 h
    simp only [Part.prepend, List.cons_append, List.nil_append]
    rw [readRegexTail, if_neg hslash, if_neg hclass, if_neg hend, ih hinner]
    · rfl
    · exact fun _ _ h => absurd h hslash

theorem readRegexTail_ne_nil {inClass : Bool} {cs : List Char} {part : Part}
    (h : readRegexTail inClass cs = some part) : part.1 ≠ [] := by
  fun_cases readRegexTail inClass cs
  all_goals simp_all [readRegexTail, Part.prepend]
  all_goals grind [Part.prepend]

/-- The text is a regular expression: a slash and something that begins no comment. -/
structure RegexText (text : List Char) : Prop where
  start : ∃ c cs, text = '/' :: c :: cs ∧ c ≠ '/' ∧ c ≠ '*'
  read : ∀ c, isFlag c = false → ∀ rest, readRegex (text ++ c :: rest) = some (text, c :: rest)

theorem regexText_of_read {cs : List Char} {part : Part} (h : readRegex cs = some part) :
    RegexText part.1 := by
  unfold readRegex at h
  split at h
  case h_2 => cases h
  case h_1 d cs =>
    split at h
    case isTrue => cases h
    case isFalse hstart =>
      obtain ⟨inner, hinner, rfl⟩ := Option.map_eq_some_iff.1 h
      have happend := readRegexTail_append hinner
      obtain ⟨e, es, he⟩ := List.exists_cons_of_ne_nil (readRegexTail_ne_nil hinner)
      rw [he] at happend
      cases happend
      rw [not_or] at hstart
      refine ⟨⟨_, es, congrArg _ he, hstart.2, hstart.1⟩, ?_⟩
      intro c hc rest
      have hread := readRegexTail_again hinner hc rest
      simp only [Part.prepend, he, List.cons_append, List.nil_append] at hread ⊢
      rw [readRegex, if_neg (not_or.2 hstart), hread]
      rfl

/-! ## Words -/

theorem isWord_readName {c : Char} {cs : List Char} (hc : isNameStart c = true)
    (hspace : isSpace c = false) : IsWord (String.ofList (readName (c :: cs)).1) where
  start := by
    rw [String.toList_ofList, readName, List.takeWhile_cons_of_pos hc]
    simp [hc, hspace]
  rest := by
    rw [String.toList_ofList, readName]
    have hopening : ∀ d ∈ (c :: cs).takeWhile isNameStart, isNameStart d = true :=
      fun d => List.all_eq_true.1 List.all_takeWhile d
    rw [List.dropWhile_append_of_pos hopening]
    refine List.all_eq_true.2 fun d hd => ?_
    exact List.all_eq_true.1 List.all_takeWhile d ((List.dropWhile_suffix _).mem hd)

/-- A word and what its token is, whatever follows. -/
theorem look_wordKind (s : LexState) {text : String} (h : IsWord text) {c : Char}
    (hstart : isNameStart c = false) (hpart : isNamePart c = false) (rest : List Char) :
    s.look (text.toList ++ c :: rest)
      = .token (wordKind text (c :: rest)) none (c :: rest) := by
  obtain ⟨d, ds, htext, hname, hspace⟩ := h.exists_cons
  have hread := readName_word h hstart hpart rest
  have hdigit := not_isDigit_of_isNameStart hname
  have hne : ∀ e, isNameStart e = false → d ≠ e := by
    rintro e he rfl
    rw [hname] at he
    cases he
  have hcr := hne '\r' (by decide)
  have hlf := hne '\n' (by decide)
  have hslash := hne '/' (by decide)
  have hdot := hne '.' (by decide)
  have hdouble := hne '\x22' (by decide)
  have hsingle := hne '\x27' (by decide)
  rw [htext, List.cons_append] at hread ⊢
  rw [LexState.look]
  · simp only [hcr, hlf, hslash, hdouble, hsingle, hspace, hdigit, hname, hread, or_self, if_false,
      if_true, Bool.false_eq_true]
    rw [← htext, String.ofList_toList]
  all_goals
    intros
    simp_all

theorem wordKind_of_not_blank {text : String} {rest : List Char}
    (h : text = "get" ∨ text = "set" → blankThenName rest = false) :
    wordKind text rest = wordToken text := by
  have hget : ¬(text = "get" ∧ blankThenName rest = true) :=
    fun hblank => Bool.false_ne_true ((h (.inl hblank.1)).symm.trans hblank.2)
  have hset : ¬(text = "set" ∧ blankThenName rest = true) :=
    fun hblank => Bool.false_ne_true ((h (.inr hblank.1)).symm.trans hblank.2)
  exact (if_neg hget).trans (if_neg hset)

/-! ## Marks -/

/-- The characters that longer marks go on with behind this one. -/
def Mark.growths (m : Mark) : List Char :=
  Mark.all.filterMap fun longer =>
    if m.text.toList.isPrefixOf longer.text.toList then longer.text.toList[m.text.toList.length]?
    else none

/-- The mark and the character begin another mark. -/
def Mark.grows (m : Mark) (c : Char) : Bool :=
  m.growths.contains c

/-- No mark begins with one that is listed before it. -/
theorem Mark.pairwise_all :
    Mark.all.Pairwise fun a b => a.text.toList.isPrefixOf b.text.toList = false := by
  decide +kernel

/-- A mark is read before a character that it does not grow with. -/
theorem Mark.read?_stop {m : Mark} (hm : m ∈ Mark.all) {c : Char} (hc : m.grows c = false)
    (rest : List Char) : Mark.read? (m.text.toList ++ c :: rest) = some (m, c :: rest) := by
  obtain ⟨before, after, hall, hnot⟩ := List.eq_append_cons_of_mem hm
  have hpairwise := Mark.pairwise_all
  rw [hall, List.pairwise_append] at hpairwise
  have hfind : Mark.all.find? (fun mark => mark.text.toList.isPrefixOf (m.text.toList ++ c :: rest))
      = some m := by
    rw [List.find?_eq_some_iff_append]
    refine ⟨List.isPrefixOf_iff_prefix.2 (List.prefix_append _ _), before, after, hall, ?_⟩
    intro a ha
    have hshort : ¬a.text.toList <+: m.text.toList := by
      rw [← List.isPrefixOf_iff_prefix, hpairwise.2.2 a ha m (List.mem_cons_self ..)]
      exact Bool.false_ne_true
    rw [Bool.not_eq_true', ← Bool.not_eq_true, List.isPrefixOf_iff_prefix]
    intro hlong
    obtain h | h := List.prefix_or_prefix_of_prefix hlong (List.prefix_append _ (c :: rest))
    · exact hshort h
    · obtain ⟨tail, htail⟩ := h
      cases tail with
      | nil =>
        rw [List.append_nil] at htail
        exact hshort (htail ▸ List.prefix_rfl)
      | cons d tail =>
        rw [← htail, List.prefix_append_right_inj] at hlong
        obtain ⟨rfl, -⟩ := List.cons_prefix_cons.1 hlong
        have hgrows : m.grows d = true := by
          refine List.contains_iff_mem.2 (List.mem_filterMap.2 ⟨a, ?_, ?_⟩)
          · rw [hall]
            exact List.mem_append_left _ ha
          · rw [if_pos (List.isPrefixOf_iff_prefix.2 ⟨_, htail⟩), ← htail,
              List.getElem?_append_right (Nat.le_refl _), Nat.sub_self]
            rfl
        exact Bool.false_ne_true (hc.symm.trans hgrows)
  rw [Mark.read?, hfind, Option.map_some, ← String.length_toList, List.drop_left]

theorem Mark.grows_of_standsAlone {m : Mark} (h : m.standsAlone = true) (c : Char) :
    m.grows c = false := by
  have hnone : m.growths = [] := by
    cases m with
    | dot | not | binary | assign => cases h
    | _ => decide +kernel
  rw [grows, hnone]
  rfl

/-- The signs that marks grow with. -/
def growingSigns : List Char :=
  ['=', '<', '>', '&', '|', '+', '-']

/-- A mark grows with one of the signs, and with a sign of its own only if it is that sign. -/
theorem Mark.sign_of_grows {m : Mark} (hm : m ∈ Mark.all) {c : Char} (h : m.grows c = true) :
    c ∈ growingSigns ∧ (c = '+' → m = .binary .add) ∧ (c = '-' → m = .binary .sub) := by
  have hall : Mark.all.all fun m => m.growths.all fun c => growingSigns.contains c
      && (c != '+' || m == .binary .add) && (c != '-' || m == .binary .sub) := by decide +kernel
  have hsign := List.all_eq_true.1 (List.all_eq_true.1 hall m hm) c (List.contains_iff_mem.1 h)
  simp only [Bool.and_eq_true, Bool.or_eq_true, bne_iff_ne, beq_iff_eq] at hsign
  obtain ⟨⟨hmem, hplus⟩, hminus⟩ := hsign
  exact ⟨List.contains_iff_mem.1 hmem, fun hc => hplus.resolve_left (absurd hc),
    fun hc => hminus.resolve_left (absurd hc)⟩

theorem Mark.mem_growingSigns {m : Mark} (hm : m ∈ Mark.all) {c : Char} (h : m.grows c = true) :
    c ∈ growingSigns :=
  (Mark.sign_of_grows hm h).1

theorem Mark.grows_plus {m : Mark} (hm : m ∈ Mark.all) (h : m.grows '+' = true) :
    m = .binary .add :=
  (Mark.sign_of_grows hm h).2.1 rfl

theorem Mark.grows_minus {m : Mark} (hm : m ∈ Mark.all) (h : m.grows '-' = true) :
    m = .binary .sub :=
  (Mark.sign_of_grows hm h).2.2 rfl

/-- A mark that is no slash and no dot. -/
theorem look_eq_ofMark (s : LexState) {m : Mark} (hm : m ∈ Mark.all) (hslash : m.isSlash = false)
    (hdot : m ≠ .dot) (rest : List Char) :
    s.look (m.text.toList ++ rest) = Lexed.ofMark none (m.text.toList ++ rest) := by
  cases m with
  | binary op =>
    cases op with
    | isInstance | isIn => exact absurd hm (by decide)
    | div => cases hslash
    | _ => rfl
  | assign op =>
    cases op with
    | div => cases hslash
    | _ => rfl
  | dot => exact absurd rfl hdot
  | _ => rfl

/-! ## Tokens -/

/-- The token is one that the lexer finds. -/
def TokenKind.Sound : TokenKind → Prop
  | .name id => IsWord id ∧ Keyword.ofText? id = none
  | .keyword word => word ∈ Keyword.all
  | .mark m => m ∈ Mark.all
  | .number text => NumberText text.toList
  | .string text => ∃ mark body, (mark = '\x22' ∨ mark = '\x27') ∧ text.toList = mark :: body ∧
      ∀ rest, readQuoted mark (body ++ rest) = some (body, rest)
  | .regex text => RegexText text.toList
  | .getter | .setter => True
  | .lineSemi | .eof | .invalid => False

/-- The token ends before the character. -/
def TokenKind.stops (kind : TokenKind) (c : Char) : Bool :=
  match kind with
  | .name _ | .keyword _ | .getter | .setter => !isNameStart c && !isNamePart c
  | .number text => !isHexDigit c && c != 'x' && c != 'X' && (c != '.' || endsBeforeDot text.toList)
  | .regex _ => !isFlag c
  | .mark m =>
    !m.grows c && (m != .dot || !c.isDigit) && (m != .binary .div || (c != '/' && c != '*'))
  | _ => true

/-- The token ends before the text. -/
def TokenKind.Ends (kind : TokenKind) : List Char → Prop
  | [] => kind.isOpen = true
  | c :: rest => kind.stops c = true ∧
      (kind.text = "get" ∨ kind.text = "set" → blankThenName (c :: rest) = kind.isAccessor)

/-- The token begins with a slash. -/
def TokenKind.isSlash : TokenKind → Bool
  | .mark m => m.isSlash
  | .regex _ => true
  | _ => false

section
variable {kind : TokenKind}

theorem Keyword.isWord_text {word : Keyword} (h : word ∈ Keyword.all) :
    IsWord word.text ∧ wordToken word.text = .keyword word := by
  have hall : ∀ word ∈ Keyword.all, IsWord word.text ∧ wordToken word.text = .keyword word := by
    decide +kernel
  exact hall word h

theorem TokenKind.Sound.isWord (h : kind.Sound) (hword : kind.isWord = true) :
    IsWord kind.text ∧ wordToken kind.text = kind := by
  cases kind with
  | name id => exact ⟨h.1, by simp only [text, wordToken, h.2]⟩
  | keyword word => exact Keyword.isWord_text h
  | _ => cases hword

/-- A word is read before what ends it. -/
theorem look_word_of_ends (s : LexState) (h : kind.Sound) (hword : kind.isWord = true)
    {w : List Char} (hends : kind.Ends w) :
    s.look (kind.text.toList ++ w) = .token kind none w := by
  obtain ⟨hisWord, htoken⟩ := h.isWord hword
  have hplain : kind.isAccessor = false :=
    kind.not_isAccessor_of_finishesExpr (kind.finishesExpr_of_isWord hword)
  cases w with
  | nil =>
    cases kind with
    | name | keyword => cases hends
    | _ => cases hword
  | cons c rest =>
    obtain ⟨hstops, hblank⟩ := hends
    have hc : isNameStart c = false ∧ isNamePart c = false := by
      cases kind with
      | name | keyword => simpa [TokenKind.stops] using hstops
      | _ => cases hword
    rw [look_wordKind s hisWord hc.1 hc.2, wordKind_of_not_blank, htoken]
    intro haccessor
    rw [hblank haccessor, hplain]

theorem look_accessor_of_ends (s : LexState) (h : kind.isAccessor = true) {w : List Char}
    (hends : kind.Ends w) : s.look (kind.text.toList ++ w) = .token kind none w := by
  cases w with
  | nil =>
    cases kind with
    | getter | setter => cases hends
    | _ => cases h
  | cons c rest =>
    obtain ⟨hstops, hblank⟩ := hends
    cases kind with
    | getter =>
      have hc : isNameStart c = false ∧ isNamePart c = false := by
        simpa [TokenKind.stops] using hstops
      have hword : IsWord "get" := by decide
      refine (look_wordKind s hword hc.1 hc.2 rest).trans ?_
      rw [wordKind, if_pos ⟨rfl, hblank (.inl rfl)⟩]
    | setter =>
      have hc : isNameStart c = false ∧ isNamePart c = false := by
        simpa [TokenKind.stops] using hstops
      have hword : IsWord "set" := by decide
      refine (look_wordKind s hword hc.1 hc.2 rest).trans ?_
      rw [wordKind, if_neg (fun h => absurd h.1 (by decide)), if_pos ⟨rfl, hblank (.inr rfl)⟩]
    | _ => cases h

theorem look_mark_of_ends (s : LexState) {m : Mark} (h : m ∈ Mark.all) (hslash : m.isSlash = false)
    {w : List Char} (hends : (TokenKind.mark m).Ends w) :
    s.look (m.text.toList ++ w) = .token (.mark m) none w := by
  cases w with
  | nil =>
    have hopen : (TokenKind.mark m).isOpen = true := hends
    cases m with
    | binary | assign | dot | not | rparen => cases hopen
    | _ => rfl
  | cons c rest =>
    have hstops := hends.1
    simp only [TokenKind.stops, Bool.and_eq_true, Bool.not_eq_true'] at hstops
    by_cases hdot : m = .dot
    · subst hdot
      have hdigit : c.isDigit = false := by simpa using hstops.1.2
      show (if c.isDigit = true then _ else _) = _
      rw [hdigit]
      rfl
    · rw [look_eq_ofMark s h hslash hdot, Lexed.ofMark, Mark.read?_stop h hstops.1.1]

theorem NumberText.exists_cons {text : List Char} (h : NumberText text) :
    ∃ c cs, text = c :: cs ∧
      (c.isDigit = true ∨ c = '.' ∧ ∃ d more, cs = d :: more ∧ d.isDigit = true) := by
  cases h with
  | hex | octal | zero => exact ⟨_, _, rfl, .inl rfl⟩
  | decimal hd => exact ⟨_, _, rfl, .inl hd⟩
  | point hd => exact ⟨_, _, rfl, .inr ⟨rfl, _, _, rfl, hd⟩⟩

theorem isSpace_of_isDigit {d : Char} (hd : d.isDigit = true) : isSpace d = false := by
  have hspaces : ∀ n < 58, 48 ≤ n → isSpace (Char.ofNat n) = false := by decide
  simp only [Char.isDigit, Bool.and_eq_true, decide_eq_true_eq, ge_iff_le,
    UInt32.le_iff_toNat_le] at hd
  have hspace := hspaces d.toNat (Nat.lt_succ_of_le hd.2) hd.1
  rwa [Char.ofNat_toNat] at hspace

/-- The lexer reads a number where a digit stands, or a dot and a digit. -/
theorem look_eq_readNumber (s : LexState) {c : Char} {cs : List Char}
    (h : c.isDigit = true ∨ c = '.' ∧ ∃ d more, cs = d :: more ∧ d.isDigit = true) :
    s.look (c :: cs) = Lexed.ofPart .number (some (readNumber (c :: cs))) := by
  obtain hd | ⟨rfl, d, more, rfl, hd⟩ := h
  · have hne : ∀ e, e.isDigit = false → c ≠ e := by
      rintro e he rfl
      rw [hd] at he
      cases he
    have hcr := hne '\r' (by decide)
    have hlf := hne '\n' (by decide)
    have hslash := hne '/' (by decide)
    have hpoint := hne '.' (by decide)
    have hdouble := hne '\x22' (by decide)
    have hsingle := hne '\x27' (by decide)
    rw [LexState.look]
    · simp only [hcr, hlf, hslash, hdouble, hsingle, isSpace_of_isDigit hd, hd, or_self, if_false,
        if_true, Bool.false_eq_true]
    all_goals
      intros
      simp_all
  · show (if d.isDigit = true then _ else _) = _
    rw [if_pos hd]

theorem look_number_of_ends (s : LexState) {text : String} (h : NumberText text.toList)
    {w : List Char} (hends : (TokenKind.number text).Ends w) :
    s.look (text.toList ++ w) = .token (.number text) none w := by
  cases w with
  | nil => cases hends
  | cons c rest =>
    have hstops := hends.1
    simp only [TokenKind.stops, Bool.and_eq_true, Bool.not_eq_true', bne_iff_ne, Bool.or_eq_true]
      at hstops
    have hread := h.read hstops.1.1.1 hstops.1.1.2 hstops.1.2
      (fun hc => hstops.2.resolve_left fun hne => hne hc) rest
    obtain ⟨d, ds, htext, hstart⟩ := h.exists_cons
    rw [htext, List.cons_append] at hread
    have hlook : s.look (d :: (ds ++ c :: rest)) = _ :=
      look_eq_readNumber s (hstart.imp_right fun ⟨hdot, e, more, hds, he⟩ =>
        ⟨hdot, e, more ++ c :: rest, by rw [hds]; rfl, he⟩)
    rw [htext, List.cons_append, hlook, hread, ← htext, Lexed.ofPart, String.ofList_toList]

theorem look_string (s : LexState) {text : String} (h : (TokenKind.string text).Sound)
    (w : List Char) : s.look (text.toList ++ w) = .token (.string text) none w := by
  obtain ⟨mark, body, hmark, htext, hread⟩ := h
  have hlook : s.look (mark :: (body ++ w))
      = Lexed.ofPart .string ((readQuoted mark (body ++ w)).map (Part.prepend [mark])) := by
    obtain rfl | rfl := hmark <;> rfl
  rw [htext, List.cons_append, hlook, hread, Option.map_some, Lexed.ofPart]
  simp only [Part.prepend, List.cons_append, List.nil_append]
  rw [← htext, String.ofList_toList]

/-- A token is read again where it ends. Slashes have their own rules. -/
theorem look_of_ends (s : LexState) (h : kind.Sound) (hslash : kind.isSlash = false)
    {w : List Char} (hends : kind.Ends w) :
    s.look (kind.text.toList ++ w) = .token kind none w := by
  cases kind with
  | name | keyword => exact look_word_of_ends s h rfl hends
  | getter | setter => exact look_accessor_of_ends s rfl hends
  | mark m => exact look_mark_of_ends s h hslash hends
  | number text => exact look_number_of_ends s h hends
  | string text => exact look_string s h w
  | regex => cases hslash
  | lineSemi | eof | invalid => exact h.elim

theorem sound_wordKind {c : Char} {cs : List Char} (hc : isNameStart c = true)
    (hspace : isSpace c = false) (rest : List Char) :
    (wordKind (String.ofList (readName (c :: cs)).1) rest).Sound := by
  have hword : IsWord (String.ofList (readName (c :: cs)).1) := isWord_readName hc hspace
  unfold wordKind
  split
  · trivial
  · split
    · trivial
    · split
      case h_1 keyword hkeyword => exact List.mem_of_find?_eq_some hkeyword
      case h_2 hnone => exact ⟨hword, hnone⟩

theorem sound_ofMark {cs rest : List Char} {retry retry' : Option Retry}
    (h : Lexed.ofMark retry' cs = .token kind retry rest) : kind.Sound := by
  unfold Lexed.ofMark at h
  split at h
  case h_1 m _ hread =>
    cases h
    obtain ⟨found, hfound, heq⟩ := Option.map_eq_some_iff.1 hread
    cases heq
    exact List.mem_of_find?_eq_some hfound
  case h_2 => cases h

/-- Whatever the lexer finds is a sound token. -/
theorem sound_of_look {s : LexState} {cs rest : List Char} {retry : Option Retry}
    (h : s.look cs = .token kind retry rest) : kind.Sound := by
  have hnumber : ∀ {c : Char} {tail : List Char},
      (c.isDigit = true ∨ c = '.' ∧ ∃ d more, tail = d :: more ∧ d.isDigit = true) →
      Lexed.ofPart .number (some (readNumber (c :: tail))) = .token kind retry rest →
      kind.Sound := by
    intro c tail hstart h
    obtain ⟨w, hread, rfl, rfl⟩ := ofPart_eq_token h
    have htext := numberText_readNumber hstart
    rw [Option.some.inj hread] at htext
    show NumberText (String.ofList w).toList
    rwa [String.toList_ofList]
  unfold LexState.look at h
  split at h
  case h_1 => cases h
  case h_2 => exact absurd h lineEnd_ne_token
  case h_3 => cases h
  case h_4 => split at h <;> cases h
  case h_5 digit tail =>
    split at h
    case isTrue hdigit => exact hnumber (.inr ⟨rfl, digit, tail, rfl, hdigit⟩) h
    case isFalse =>
      cases h
      exact (by decide : Mark.dot ∈ Mark.all)
  case h_6 c tail _ _ _ _ =>
    split_ifs at h with hend hspace hslash hquote hdigit hname
    · exact absurd h lineEnd_ne_token
    · unfold LexState.slash at h
      split at h
      case isTrue => exact sound_ofMark h
      case isFalse =>
        obtain ⟨w, hread, rfl, rfl⟩ := ofPart_eq_token h
        show RegexText (String.ofList w).toList
        rw [String.toList_ofList]
        exact regexText_of_read hread
    · obtain ⟨w, hread, rfl, rfl⟩ := ofPart_eq_token h
      obtain ⟨⟨body, after⟩, hbody, heq⟩ := Option.map_eq_some_iff.1 hread
      cases heq
      have hmark : c ≠ '\x5c' := by
        rintro rfl
        exact absurd hquote (by decide)
      exact ⟨c, body, hquote, String.toList_ofList .., readQuoted_again hmark hbody⟩
    · exact hnumber (.inl hdigit) h
    · cases h
      exact sound_wordKind hname (Bool.eq_false_iff.2 hspace) _
    · exact sound_ofMark h

theorem TokenKind.Genuine.sound (h : kind.Genuine) : kind.Sound := by
  obtain ⟨s, cs, retry, rest, hlook⟩ := h
  exact sound_of_look hlook

theorem look_slash (s : LexState) {d : Char} (hslash : d ≠ '/') (hstar : d ≠ '*')
    (more : List Char) :
    s.look ('/' :: d :: more) = s.slash ('/' :: d :: more) := by
  rw [LexState.look]
  · rfl
  all_goals
    intros
    simp_all

/-- A sound token is found in its own text, with something behind it that it cannot go on with. -/
theorem TokenKind.Sound.genuine (h : kind.Sound) : kind.Genuine := by
  have hends : kind.isAccessor = false → kind.stops ';' = true → kind.Ends [';'] := by
    refine fun hplain hstops => ⟨hstops, fun _ => ?_⟩
    rw [hplain]
    rfl
  cases kind with
  | getter | setter =>
    exact ⟨{}, _, none, [' ', 'a'], look_accessor_of_ends {} rfl ⟨rfl, fun _ => rfl⟩⟩
  | mark m =>
    by_cases hslash : m.isSlash = true
    · have hmark : m = .binary .div ∨ m = .assign .div := by
        cases m with
        | binary op =>
          cases op with
          | div => exact .inl rfl
          | _ => cases hslash
        | assign op =>
          cases op with
          | div => exact .inr rfl
          | _ => cases hslash
        | _ => cases hslash
      obtain rfl | rfl := hmark
      · exact ⟨{ previous := some (.mark .rbracket) }, "/;".toList, none, [';'], rfl⟩
      · exact ⟨{ previous := some (.mark .rbracket) }, "/=;".toList, none, [';'], rfl⟩
    · have hstops : ∀ m ∈ Mark.all, (TokenKind.mark m).stops ';' = true := by decide +kernel
      exact ⟨{}, _, none, _, look_of_ends {} h (Bool.eq_false_iff.2 hslash)
        (hends rfl (hstops m h))⟩
  | regex text =>
    obtain ⟨d, cs, htext, hslash, hstar⟩ := h.start
    have hread := h.read ';' (by decide) []
    refine ⟨{}, text.toList ++ [';'], none, [';'], ?_⟩
    have hlook : ({} : LexState).look (text.toList ++ [';'])
        = ({} : LexState).slash (text.toList ++ [';']) := by
      rw [htext]
      exact look_slash {} hslash hstar _
    rw [hlook, LexState.slash, if_neg (by decide), hread, Lexed.ofPart, String.ofList_toList]
  | number text =>
    have hstops : (TokenKind.number text).stops ';' = true := by
      rw [TokenKind.stops, show isHexDigit ';' = false by decide]
      rfl
    exact ⟨{}, _, none, _, look_of_ends {} h rfl (hends rfl hstops)⟩
  | lineSemi | eof | invalid => exact h.elim
  | _ => exact ⟨{}, _, none, _, look_of_ends {} h rfl (hends rfl rfl)⟩

/-- A word that is no keyword is a name. -/
theorem isName_of_word {id : String} (h : IsWord id ∧ Keyword.ofText? id = none) : IsName id :=
  TokenKind.Sound.genuine h

/-- A name may be the name of a field. -/
theorem IsName.field {id : String} (h : IsName id) : (wordToken id).Genuine := by
  have htoken : wordToken id = .name id := (TokenKind.Genuine.sound h).isWord rfl |>.2
  rw [htoken]
  exact h

end

end Espalier.Script
