import Espalier.Proofs.Script.Lexing
import Espalier.Proofs.Script.Nesting
import Mathlib.Data.List.Infix

/-!
# Tokens in balanced text

The machine and the lexer read the same text in different ways: the machine knows no tokens and
tells a regular expression from a division by the last character before the slash. `showing` says of
tokens that this character tells the truth and that no literal holds a line end that the machine
does not accept. Main statement: `unwinds_of_tokens`, by which text with such tokens, whose brackets
match, is balanced.
-/

namespace Espalier.Scan

open Espalier.Script Espalier.Text

/-! ## Characters of words and numbers -/

/-- The character is neither a delimiter nor a slash nor a blank. -/
def isPlain (c : Char) : Bool :=
  isOrdinary c && c != '/' && !isBlank c

/-- The character is plain, and no operand is expected after it. -/
def isQuiet (c : Char) : Bool :=
  isPlain c && !beforeOperand c

/-- The code points that are not quiet, beyond the blanks. -/
theorem isQuiet_of_large {c : Char} (hlarge : 128 ≤ c.toNat) (hblank : isBlank c = false) :
    isQuiet c = true := by
  have hsmall : ('/' :: delimiters ++ "(,=:[!&|?\x7b\x7d;+-*%<>~^".toList).all (·.toNat < 128)
      = true := by
    decide
  have hne : ∀ d ∈ '/' :: delimiters ++ "(,=:[!&|?\x7b\x7d;+-*%<>~^".toList, c ≠ d := by
    rintro d hd rfl
    exact absurd (of_decide_eq_true (List.all_eq_true.1 hsmall c hd)) (by omega)
  have hordinary : isOrdinary c = true := by
    rw [isOrdinary_iff]
    intro hmem
    exact hne c (List.mem_append_left _ (List.mem_cons_of_mem _ hmem)) rfl
  have hbefore : beforeOperand c = false := by
    rw [beforeOperand, List.contains_eq_mem, decide_eq_false_iff_not]
    intro hmem
    exact hne c (List.mem_append_right _ hmem) rfl
  have hslash : c ≠ '/' := hne '/' (by decide)
  simp [isQuiet, isPlain, hordinary, hslash, hblank, hbefore]

/-- Ranges of two tables that do not meet. -/
theorem inRanges_disjoint {a b : List (Nat × Nat)}
    (h : ∀ r ∈ a, ∀ q ∈ b, r.2 < q.1 ∨ q.2 < r.1) {c : Char} (hc : inRanges a c = true) :
    inRanges b c = false := by
  simp only [inRanges, List.any_eq_true, List.any_eq_false, Bool.and_eq_true, decide_eq_true_eq]
    at hc ⊢
  obtain ⟨r, hr, hrange⟩ := hc
  intro q hq hother
  have := h r hr q hq
  omega

theorem isQuiet_of_name {c : Char} (h : isNameStart c = true ∨ isNamePart c = true) :
    isQuiet c = true := by
  by_cases hsmall : c.toNat < 128
  · have hall : ∀ n < 128, isNameStart (Char.ofNat n) = true ∨ isNamePart (Char.ofNat n) = true →
        isQuiet (Char.ofNat n) = true := by decide
    have hc := hall c.toNat hsmall
    rw [Char.ofNat_toNat] at hc
    exact hc h
  · refine isQuiet_of_large (Nat.not_lt.1 hsmall) ?_
    rw [isNameStart, isNamePart, if_neg hsmall, if_neg hsmall] at h
    obtain h | h := h
    · exact inRanges_disjoint (by decide +kernel) h
    · exact inRanges_disjoint (by decide +kernel) h

theorem isQuiet_of_isDigit {c : Char} (h : c.isDigit = true) : isQuiet c = true := by
  have hall : ∀ n < 58, 48 ≤ n → isQuiet (Char.ofNat n) = true := by decide
  simp only [Char.isDigit, Bool.and_eq_true, decide_eq_true_eq, ge_iff_le, UInt32.le_iff_toNat_le]
    at h
  rw [← Char.ofNat_toNat c]
  exact hall c.toNat (Nat.lt_succ_of_le h.2) h.1

theorem isQuiet_of_isHexDigit {c : Char} (h : isHexDigit c = true) : isQuiet c = true := by
  have hall : ∀ n < 128, isHexDigit (Char.ofNat n) = true → isQuiet (Char.ofNat n) = true := by
    decide
  have hsmall : c.toNat < 128 := by
    simp only [isHexDigit, Char.isDigit, Bool.or_eq_true, Bool.and_eq_true, decide_eq_true_eq,
      ge_iff_le, Char.le_def, UInt32.le_iff_toNat_le] at h
    have hval : c.toNat = c.val.toNat := rfl
    have hnine : '9'.val.toNat = 57 := rfl
    have hlow : 'f'.val.toNat = 102 := rfl
    have hhigh : 'F'.val.toNat = 70 := rfl
    omega
  have hc := hall c.toNat hsmall
  rw [Char.ofNat_toNat] at hc
  exact hc h

theorem isQuiet_of_isOctalDigit {c : Char} (h : isOctalDigit c = true) : isQuiet c = true := by
  refine isQuiet_of_isDigit ?_
  simp only [isOctalDigit, Bool.and_eq_true, decide_eq_true_eq, Char.le_def,
    UInt32.le_iff_toNat_le] at h
  simp only [Char.isDigit, Bool.and_eq_true, decide_eq_true_eq, ge_iff_le,
    UInt32.le_iff_toNat_le]
  have hseven : '7'.val.toNat = 55 := rfl
  have hnine : '9'.val.toNat = 57 := rfl
  omega

/-! ## Text of operands -/

/-- The text opens nothing, and no operand is expected after it. -/
structure Operand (w : List Char) : Prop where
  plain : ∀ c ∈ w, isPlain c = true
  last : ∀ c, w.getLast? = some c → isQuiet c = true

theorem isQuiet_iff {c : Char} :
    isQuiet c = true ↔ isPlain c = true ∧ beforeOperand c = false := by
  simp [isQuiet]

theorem operand_of_quiet {w : List Char} (h : ∀ c ∈ w, isQuiet c = true) : Operand w where
  plain c hc := (isQuiet_iff.1 (h c hc)).1
  last c hc := h c (List.mem_of_getLast? hc)

/-- Only the last character counts. -/
theorem Operand.prepend {a b : List Char} (ha : ∀ c ∈ a, isPlain c = true)
    (hb : Operand b) (hne : b ≠ []) : Operand (a ++ b) where
  plain := List.forall_mem_append.2 ⟨ha, hb.plain⟩
  last c hc := by
    obtain ⟨d, hd⟩ := Option.isSome_iff_exists.1 (List.getLast?_isSome.2 hne)
    rw [List.getLast?_append, hd] at hc
    cases hc
    exact hb.last c hd

theorem Operand.append {a b : List Char} (ha : Operand a) (hb : Operand b) : Operand (a ++ b) := by
  by_cases hne : b = []
  · rw [hne, List.append_nil]
    exact ha
  · exact .prepend ha.plain hb hne

/-- Quiet characters in front. -/
theorem Operand.cons {c : Char} {w : List Char} (hc : isQuiet c = true) (hw : Operand w) :
    Operand (c :: w) := by
  have hfirst : Operand [c] := operand_of_quiet (List.forall_mem_singleton.2 hc)
  exact hfirst.append hw

theorem operand_readWhile {p : Char → Bool} (hp : ∀ {c : Char}, p c = true → isQuiet c = true)
    (cs : List Char) : Operand (readWhile p cs).1 :=
  operand_of_quiet fun c hc => hp (List.all_eq_true.1 List.all_takeWhile c hc)

/-- The digits of an exponent come last. -/
theorem operand_readExponentDigits {opening cs : List Char} {part : Part}
    (hopening : ∀ c ∈ opening, isPlain c = true)
    (h : readExponentDigits opening cs = some part) : Operand part.1 := by
  have hdigits := operand_readWhile isQuiet_of_isDigit cs
  simp only [readExponentDigits] at h
  split at h
  case isTrue => cases h
  case isFalse hne =>
    cases h
    exact .prepend hopening hdigits (by simpa using hne)

theorem operand_readExponent (cs : List Char) : Operand (readExponent cs).1 := by
  have hnil : Operand [] := ⟨nofun, nofun⟩
  simp only [readExponent]
  split
  case h_1 e sign rest =>
    split
    case isFalse => exact hnil
    case isTrue he =>
      have hmark : isPlain e = true := by
        obtain rfl | rfl := he <;> decide
      split
      case isTrue hsign =>
        have hsigned : isPlain sign = true := by
          obtain rfl | rfl := hsign <;> decide
        cases hdigits : readExponentDigits [e, sign] rest with
        | none => exact hnil
        | some part =>
          exact operand_readExponentDigits (by simp [hmark, hsigned]) hdigits
      case isFalse =>
        cases hdigits : readExponentDigits [e] (sign :: rest) with
        | none => exact hnil
        | some part => exact operand_readExponentDigits (by simp [hmark]) hdigits
  case h_2 => exact hnil

theorem operand_readFraction (cs : List Char) : Operand (readFraction cs).1 := by
  unfold readFraction
  split
  · exact .cons (by decide)
      ((operand_readWhile isQuiet_of_isDigit _).append (operand_readExponent _))
  · exact operand_readExponent _

/-- A number is an operand. -/
theorem operand_readNumber (cs : List Char) : Operand (readNumber cs).1 := by
  have hzero : isQuiet '0' = true := by decide
  unfold readNumber
  split
  case h_1 x digit rest =>
    split
    case isTrue hx =>
      have hmark : isQuiet x = true := by
        obtain rfl | rfl := hx.1 <;> decide
      exact .cons hzero (.cons hmark (operand_readWhile isQuiet_of_isHexDigit _))
    case isFalse =>
      split
      · exact .cons hzero (operand_readWhile isQuiet_of_isOctalDigit _)
      · exact .cons hzero (operand_readFraction _)
  case h_2 =>
    dsimp only
    split
    · exact .cons hzero (operand_readFraction _)
    · exact .cons hzero (operand_readWhile isQuiet_of_isOctalDigit _)
  case h_3 => exact (operand_readWhile isQuiet_of_isDigit _).append (operand_readFraction _)

/-! ## Literals -/

/-- A hexadecimal digit is a plain character of a literal. -/
theorem QuotedText.hexDigit {mark c : Char} {cs : List Char}
    (hmark : mark = '\x22' ∨ mark = '\x27') (hc : isHexDigit c = true) (h : QuotedText mark cs) :
    QuotedText mark (c :: cs) := by
  refine .char ?_ ?_ ?_ h
  · rintro rfl
    exact absurd hc (by decide)
  · rintro rfl
    obtain rfl | rfl := hmark <;> exact absurd hc (by decide)
  · rintro rfl
    exact absurd hc (by decide)

/-- A string literal of the lexer is one of the machine, unless it goes on behind a carriage return
and a newline. -/
theorem quotedText_of_read {mark : Char} {cs : List Char} {part : Part}
    (hmark : mark = '\x22' ∨ mark = '\x27') (h : readQuoted mark cs = some part)
    (hline : ¬['\r', '\n'] <:+: part.1) : QuotedText mark part.1 := by
  have hrest : ∀ {front inner : List Char}, ¬['\r', '\n'] <:+: front ++ inner →
      ¬['\r', '\n'] <:+: inner :=
    fun h hwithin => h (hwithin.trans (List.suffix_append _ _).isInfix)
  fun_induction readQuoted mark cs generalizing part with
  | case1 | case4 | case6 | case8 | case10 => cases h
  | case9 =>
    cases h
    exact .close
  | case2 cs ih =>
    obtain ⟨inner, hread, rfl⟩ := Option.map_eq_some_iff.1 h
    exact absurd ⟨['\x5c'], inner.1, rfl⟩ hline
  | case3 a b cs hhex ih =>
    obtain ⟨inner, hread, rfl⟩ := Option.map_eq_some_iff.1 h
    rw [Bool.and_eq_true] at hhex
    have hinner := ih hread (hrest hline)
    exact .escape ((hinner.hexDigit hmark hhex.2).hexDigit hmark hhex.1)
  | case5 a b c d cs hhex ih =>
    obtain ⟨inner, hread, rfl⟩ := Option.map_eq_some_iff.1 h
    simp only [Bool.and_eq_true] at hhex
    have hinner := ih hread (hrest hline)
    have hlast := (hinner.hexDigit hmark hhex.2).hexDigit hmark hhex.1.2
    exact .escape ((hlast.hexDigit hmark hhex.1.1.2).hexDigit hmark hhex.1.1.1)
  | case7 c cs _ _ _ _ ih =>
    obtain ⟨inner, hread, rfl⟩ := Option.map_eq_some_iff.1 h
    exact .escape (ih hread (hrest hline))
  | case11 c cs _ _ _ _ hmark' hend ih =>
    obtain ⟨inner, hread, rfl⟩ := Option.map_eq_some_iff.1 h
    have hinner := ih hread (hrest hline)
    simp only [endsLine, Bool.or_eq_true, decide_eq_true_eq, beq_iff_eq, not_or] at hend
    exact .char hend.1 hmark' hend.2.1.1.1 hinner

/-- A regular expression of the lexer is one of the machine, followed by flags, if it keeps to its
line. -/
theorem regexText_of_read {inClass : Bool} {cs : List Char} {part : Part}
    (h : readRegexTail inClass cs = some part) (hline : '\n' ∉ part.1) :
    ∃ text flags, part.1 = text ++ flags ∧ RegexText inClass text ∧ flags.all isFlag = true := by
  fun_induction readRegexTail inClass cs generalizing part with
  | case1 | case2 | case4 => cases h
  | case3 inClass c cs hnewline ih =>
    obtain ⟨inner, hread, rfl⟩ := Option.map_eq_some_iff.1 h
    obtain ⟨text, flags, hinner, htext, hflags⟩ :=
      ih hread fun hmem => hline (List.mem_append_right _ hmem)
    exact ⟨'\x5c' :: c :: text, flags, by simp [Part.prepend, hinner], .escape htext, hflags⟩
  | case5 c cs _ hslash ih =>
    obtain ⟨inner, hread, rfl⟩ := Option.map_eq_some_iff.1 h
    obtain ⟨text, flags, hinner, htext, hflags⟩ :=
      ih hread fun hmem => hline (List.mem_append_right _ hmem)
    refine ⟨c :: text, flags, by simp [Part.prepend, hinner], ?_, hflags⟩
    have hnewline : c ≠ '\n' := fun hc => hline (hc ▸ List.mem_cons_self)
    by_cases hc : c = ']'
    · subst hc
      exact .closeClass htext
    · rw [decide_eq_true hc] at htext
      exact .classChar hslash hnewline hc htext
  | case6 inClass cs hclass flags rest hread =>
    cases h
    have hall : ∀ c ∈ flags, isFlag c = true := by
      intro c hc
      have hmem : c ∈ (readWhile (fun d => d.toNat < 128 && d.isAlphanum) cs).1 := by
        rw [hread]
        exact hc
      have halnum := List.all_eq_true.1 List.all_takeWhile c hmem
      rw [Bool.and_eq_true, decide_eq_true_eq] at halnum
      rw [isFlag, isAlphanumeric, if_pos halnum.1, halnum.2]
      rfl
    rw [Bool.eq_false_iff.2 hclass]
    exact ⟨['/'], flags, rfl, .close, List.all_eq_true.2 hall⟩
  | case7 inClass c cs _ hslash hclass hend ih =>
    obtain ⟨inner, hread, rfl⟩ := Option.map_eq_some_iff.1 h
    obtain ⟨text, flags, hinner, htext, hflags⟩ :=
      ih hread fun hmem => hline (List.mem_append_right _ hmem)
    refine ⟨c :: text, flags, by simp [Part.prepend, hinner], ?_, hflags⟩
    have hnewline : c ≠ '\n' := fun hc => hline (hc ▸ List.mem_cons_self)
    rw [Bool.eq_false_iff.2 hclass]
    by_cases hc : c = '['
    · subst hc
      exact .openClass htext
    · rw [decide_eq_false hc] at htext
      exact .char hslash hnewline hc hend htext

/-! ## Balanced text token by token -/

section
variable {operand : Bool} {w cs : List Char}

/-- Plain characters in front of balanced text. -/
theorem Balanced.plain (hw : ∀ c ∈ w, isPlain c = true) {last : Char}
    (hlast : w.getLast? = some last)
    (h : Balanced (beforeOperand last) cs) : Balanced operand (w ++ cs) := by
  induction w generalizing operand with
  | nil => cases hlast
  | cons c w ih =>
    obtain ⟨hc, hw⟩ := List.forall_mem_cons.1 hw
    simp only [isPlain, Bool.and_eq_true, bne_iff_ne, Bool.not_eq_true'] at hc
    refine .char hc.1.1 (fun hslash => absurd hslash hc.1.2) ?_
    rw [operandAfter, hc.2]
    cases w with
    | nil =>
      cases hlast
      exact h
    | cons d w => exact ih hw hlast

/-- An operand in front of balanced text. -/
theorem Operand.balanced (hw : Operand w) (hne : w ≠ []) (h : Balanced false cs) :
    Balanced operand (w ++ cs) := by
  obtain ⟨last, hlast⟩ := Option.isSome_iff_exists.1 (List.getLast?_isSome.2 hne)
  refine .plain hw.plain hlast ?_
  rw [(isQuiet_iff.1 (hw.last last hlast)).2]
  exact h

/-- A blank in front of balanced text. -/
theorem Balanced.blank {c : Char} (hc : isBlank c = true) (h : Balanced operand cs) :
    Balanced operand (c :: cs) := by
  refine .char (isOrdinary_of_isBlank hc)
    (fun hslash => absurd hslash (ne_of_isBlank hc List.mem_cons_self)) ?_
  rw [operandAfter, if_pos hc]
  exact h

end

/-- What a closing bracket closes. -/
def frameOf : Mark → Frame
  | .rparen => .round
  | .rbracket => .square
  | _ => .curly

/-- The text closes the brackets that are due, and is balanced before, between and after them. -/
def Unwinds : List Mark → Bool → List Char → Prop
  | [], operand, cs => Balanced operand cs
  | m :: due, operand, cs => ∃ inner rest, cs = inner ++ (frameOf m).closer :: rest ∧
    Balanced operand inner ∧ Unwinds due (beforeOperand (frameOf m).closer) rest

section
variable {due : List Mark} {operand operand' : Bool} {w cs : List Char}

/-- What may stand in front of balanced text may stand in front of text that closes brackets. -/
theorem Unwinds.prepend
    (hw : ∀ inner, inner <+: cs → Balanced operand' inner → Balanced operand (w ++ inner))
    (h : Unwinds due operand' cs) : Unwinds due operand (w ++ cs) := by
  cases due with
  | nil => exact hw cs (List.prefix_refl cs) h
  | cons m due =>
    obtain ⟨inner, rest, rfl, hinner, hrest⟩ := h
    exact ⟨w ++ inner, rest, by rw [List.append_assoc], hw inner (List.prefix_append _ _) hinner,
      hrest⟩

theorem Unwinds.opens {m closer : Mark} (hm : m.closer? = some closer)
    (h : Unwinds (closer :: due) true cs) : Unwinds due operand (m.text.toList ++ cs) := by
  obtain ⟨opener, htext, hopener⟩ : ∃ c, m.text.toList = [c] ∧
      Frame.ofOpener? c = some (frameOf closer) := by
    cases m <;> cases hm <;> exact ⟨_, rfl, rfl⟩
  obtain ⟨inner, rest, rfl, hinner, hrest⟩ := h
  have hgroup : ∀ after, after <+: rest → Balanced (beforeOperand (frameOf closer).closer) after →
      Balanced operand ((opener :: (inner ++ [(frameOf closer).closer])) ++ after) := by
    intro after _ hafter
    have hwhole : Balanced operand (opener :: (inner ++ (frameOf closer).closer :: after)) :=
      .group hopener hinner hafter
    simpa using hwhole
  have hall := hrest.prepend hgroup
  rw [htext]
  simpa using hall

theorem Unwinds.closes {m : Mark} (hm : m.isCloser = true)
    (h : Unwinds due (beforeOperand (frameOf m).closer) cs) :
    Unwinds (m :: due) operand (m.text.toList ++ cs) := by
  have htext : m.text.toList = [(frameOf m).closer] := by
    cases m <;> first | rfl | cases hm
  rw [htext]
  exact ⟨[], cs, rfl, .nil, h⟩

end

/-! ## What the machine sees of tokens -/

/-- After the token the machine expects an operand, as it does at the start. -/
def expectsOperand : Option TokenKind → Bool
  | none => true
  | some (.mark m) => m.text.toList.getLast?.any beforeOperand
  | some _ => false

/-- The machine takes a token for what it is: a slash after `before`, and a literal with the line
ends in it. -/
def shows (before : Option TokenKind) : TokenKind → Bool
  | .mark m => !m.isSlash || !expectsOperand before
  | .regex text => expectsOperand before && !text.toList.contains '\n'
  | .string text => !decide (['\r', '\n'] <:+: text.toList)
  | _ => true

/-- The machine takes all tokens for what they are. A semicolon that is supplied at a line end has
no text. -/
def showing (before : Option TokenKind) : List Token → Bool
  | [] => true
  | t :: ts =>
    if t.kind = .lineSemi then showing before ts
    else shows before t.kind && showing (some t.kind) ts

/-! ## One step of the lexer -/

/-- A piece of a text that ends otherwise leaves the text's last character. -/
theorem exists_rest_of_append {w rest cs : List Char} {c : Char} (h : w ++ rest = cs ++ [c])
    (hlast : w.getLast? ≠ some c) : ∃ cs', cs = w ++ cs' ∧ rest = cs' ++ [c] := by
  obtain ⟨mid, hmid, hrest⟩ | ⟨mid, hmid, hrest⟩ := List.append_eq_append_iff.1 h
  · exact ⟨mid, hmid, hrest⟩
  · obtain ⟨rfl, rfl⟩ | ⟨rfl, rfl⟩ := List.append_eq_singleton_iff.1 hrest.symm
    · exact ⟨[], by simpa using hmid.symm, rfl⟩
    · exact absurd (by rw [hmid, List.getLast?_concat]) hlast

theorem QuotedText.getLast? {mark : Char} {text : List Char} (h : QuotedText mark text) :
    text.getLast? = some mark := by
  induction h with
  | close => rfl
  | escape _ ih | char _ _ _ _ ih => simp [List.getLast?_cons, ih]

theorem RegexText.getLast? {inClass : Bool} {text : List Char} (h : RegexText inClass text) :
    text.getLast? = some '/' := by
  induction h with
  | close => rfl
  | escape _ ih | openClass _ ih | closeClass _ ih | classChar _ _ _ _ ih | char _ _ _ _ _ ih =>
    simp [List.getLast?_cons, ih]

theorem CommentText.getLast? {text : List Char} (h : CommentText text) :
    text.getLast? = some '/' := by
  induction h with
  | close => rfl
  | char _ _ ih => simp [List.getLast?_cons, ih]

section
variable {s s' : LexState} {cs rest w : List Char} {kind : TokenKind} {retry : Option Retry}
  {due due' : List Mark} {before : Option TokenKind} {operand operand' : Bool}

/-- A piece of the text is passed, and the brackets due before it are unwound if those due after it
are. -/
def Advances (due : List Mark) (operand : Bool) (cs : List Char) (due' : List Mark)
    (operand' : Bool) (rest : List Char) : Prop :=
  ∃ cs', cs'.length < cs.length ∧ cs' <:+ cs ∧ rest = cs' ++ [';'] ∧
    (Unwinds due' operand' cs' → Unwinds due operand cs)

theorem Advances.of_append {cs' : List Char} (hcs : cs = w ++ cs') (hrest : rest = cs' ++ [';'])
    (hne : w ≠ []) (hw : Unwinds due' operand' cs' → Unwinds due operand (w ++ cs')) :
    Advances due operand cs due' operand' rest := by
  subst hcs
  refine ⟨cs', ?_, List.suffix_append _ _, hrest, hw⟩
  have hpos := List.length_pos_iff.2 hne
  rw [List.length_append]
  omega

/-- A piece that opens and closes nothing. -/
theorem Advances.of_balanced (h : w ++ rest = cs ++ [';']) (hne : w ≠ [])
    (hlast : w.getLast? ≠ some ';')
    (hw : ∀ inner, inner <+: rest → Balanced operand' inner → Balanced operand (w ++ inner)) :
    Advances due operand cs due operand' rest := by
  obtain ⟨cs', hcs, hrest⟩ := exists_rest_of_append h hlast
  refine .of_append hcs hrest hne fun hcs' => hcs'.prepend fun inner hinner => hw inner ?_
  rw [hrest]
  exact hinner.trans (List.prefix_append _ _)

theorem Operand.advances (hw : Operand w) (hne : w ≠ []) (h : w ++ rest = cs ++ [';']) :
    Advances due operand cs due false rest := by
  refine .of_balanced h hne (fun hlast => ?_) fun inner _ => hw.balanced hne
  exact absurd (hw.last _ hlast) (by decide)

theorem advances_string {mark : Char} (hmark : mark = '\x22' ∨ mark = '\x27')
    (hread : readQuoted mark (w ++ rest) = some (w, rest))
    (hshow : shows before (.string (String.ofList (mark :: w))) = true)
    (h : mark :: (w ++ rest) = cs ++ [';']) : Advances due operand cs due false rest := by
  have hline : ¬['\r', '\n'] <:+: w := by
    intro hwithin
    simp only [shows, String.toList_ofList, Bool.not_eq_true', decide_eq_false_iff_not] at hshow
    exact hshow (hwithin.trans (List.suffix_cons _ _).isInfix)
  have htext := quotedText_of_read hmark hread hline
  refine Advances.of_balanced h (List.cons_ne_nil _ _) ?_ fun inner _ => .quoted hmark htext
  rw [List.getLast?_cons, htext.getLast?]
  obtain rfl | rfl := hmark <;> decide

theorem advances_regex (hnext : startsComment (w ++ rest) = false)
    (hread : readRegexTail false (w ++ rest) = some (w, rest))
    (hshow : shows before (.regex (String.ofList ('/' :: w))) = true)
    (h : '/' :: (w ++ rest) = cs ++ [';']) :
    Advances due (expectsOperand before) cs due false rest := by
  simp only [shows, String.toList_ofList, Bool.and_eq_true, Bool.not_eq_true',
    List.contains_eq_mem, decide_eq_false_iff_not] at hshow
  obtain ⟨text, flags, rfl, htext, hflags⟩ :=
    regexText_of_read hread fun hmem => hshow.2 (List.mem_cons_of_mem _ hmem)
  have hstart : startsComment text = false := by
    rw [List.append_assoc, startsComment, htext.head?_append] at hnext
    exact hnext
  refine Advances.of_balanced h (List.cons_ne_nil _ _) ?_ fun inner _ hinner => ?_
  · intro hlast
    rw [List.getLast?_cons, List.getLast?_append, htext.getLast?] at hlast
    cases hflag : flags.getLast? with
    | none =>
      rw [hflag] at hlast
      cases hlast
    | some d =>
      rw [hflag] at hlast
      cases hlast
      exact absurd (List.all_eq_true.1 hflags ';' (List.mem_of_getLast? hflag)) (by decide)
  · rw [hshow.1, List.cons_append, List.append_assoc]
    exact .regex hstart htext hflags hinner

theorem advances_slash {m : Mark} (hm : m.isSlash = true)
    (hnext : startsComment (m.text.toList ++ rest).tail = false)
    (hshow : shows before (.mark m) = true) (h : m.text.toList ++ rest = cs ++ [';']) :
    Advances due (expectsOperand before) cs due (expectsOperand (some (.mark m))) rest := by
  have hbefore : expectsOperand before = false := by simpa [shows, hm] using hshow
  have hdiv : m = .binary .div ∨ m = .assign .div := by
    unfold Mark.isSlash at hm
    split at hm
    · exact .inl rfl
    · exact .inr rfl
    · cases hm
  rw [hbefore]
  obtain rfl | rfl := hdiv
  · refine Advances.of_balanced h (by decide) (by decide) fun inner hinner hbalanced => ?_
    refine .char (by decide) (fun _ => ⟨rfl, ?_⟩) hbalanced
    obtain ⟨after, rfl⟩ := hinner
    cases inner with
    | nil => rfl
    | cons c inner => exact hnext
  · refine Advances.of_balanced h (by decide) (by decide) fun inner hinner hbalanced => ?_
    exact .char (by decide) (fun _ => ⟨rfl, rfl⟩) (.char (by decide) nofun hbalanced)

/-- The marks that open and close nothing and are no slash consist of plain characters. -/
theorem isPlain_of_mark {m : Mark} (hslash : m.isSlash = false) (hopens : m.closer? = none)
    (hcloses : m.isCloser = false) : ∀ c ∈ m.text.toList, isPlain c = true := by
  cases m with
  | binary op => cases op <;> first | exact List.all_eq_true.1 (by decide) | cases hslash
  | assign op => cases op <;> first | exact List.all_eq_true.1 (by decide) | cases hslash
  | lparen | lbrace | lbracket => cases hopens
  | rparen | rbrace | rbracket => cases hcloses
  | _ => exact List.all_eq_true.1 (by decide)

/-- Only the semicolon ends with one. -/
theorem eq_semi_of_getLast? {m : Mark} (h : m.text.toList.getLast? = some ';') : m = .semi := by
  cases m with
  | binary op => cases op <;> cases h
  | assign op => cases op <;> cases h
  | semi => rfl
  | _ => cases h

theorem advances_mark {m : Mark} (hm : m.isSlash = false) (hcs : cs ≠ [])
    (hcross : (TokenKind.mark m).cross due = some due') (h : m.text.toList ++ rest = cs ++ [';']) :
    Advances due operand cs due' (expectsOperand (some (.mark m))) rest := by
  obtain ⟨cs', hcs, hrest⟩ : ∃ cs', cs = m.text.toList ++ cs' ∧ rest = cs' ++ [';'] := by
    by_cases hlast : m.text.toList.getLast? = some ';'
    · obtain rfl := eq_semi_of_getLast? hlast
      obtain ⟨c, cs', rfl⟩ := List.exists_cons_of_ne_nil hcs
      obtain ⟨rfl, hrest⟩ := List.cons.inj h
      exact ⟨cs', rfl, hrest⟩
    · exact exists_rest_of_append h hlast
  refine .of_append hcs hrest m.text_ne_nil fun hcs' => ?_
  unfold TokenKind.cross at hcross
  simp only at hcross
  split at hcross
  case h_1 closer hopens =>
    cases hcross
    refine .opens hopens ?_
    have hoperand : expectsOperand (some (.mark m)) = true := by
      cases m <;> first | rfl | cases hopens
    rwa [hoperand] at hcs'
  case h_2 hopens =>
    split_ifs at hcross with hcloses hdue
    · cases hcross
      obtain ⟨tail, rfl⟩ : ∃ tail, due = m :: tail := by
        cases due with
        | nil => cases hdue
        | cons top tail =>
          cases hdue
          exact ⟨tail, rfl⟩
      refine .closes hcloses ?_
      have hoperand : expectsOperand (some (.mark m)) = beforeOperand (frameOf m).closer := by
        cases m <;> first | rfl | cases hcloses
      rwa [hoperand] at hcs'
    · cases hcross
      refine hcs'.prepend fun inner _ hinner => ?_
      obtain ⟨last, hlast⟩ := Option.isSome_iff_exists.1 (List.getLast?_isSome.2 m.text_ne_nil)
      rw [expectsOperand, hlast] at hinner
      exact .plain (isPlain_of_mark hm hopens (Bool.eq_false_iff.2 hcloses)) hlast hinner

/-- A token is passed. -/
theorem advances_token (h : TokenText s (cs ++ [';']) kind retry rest) (hcs : cs ≠ [])
    (hshow : shows before kind = true) (hcross : kind.cross due = some due') :
    Advances due (expectsOperand before) cs due' (expectsOperand (some kind)) rest := by
  generalize htext : cs ++ [';'] = text at h
  cases h with
  | @word w rest hne hread =>
    have hoperand : Operand w := operand_of_quiet fun c hc => isQuiet_of_name
      (mem_readName (by rw [hread]; exact hc : c ∈ (readName (w ++ rest)).1))
    have hword : (wordKind (String.ofList w) rest).cross due = some due ∧
        expectsOperand (some (wordKind (String.ofList w) rest)) = false := by
      obtain h | h | ⟨_, h⟩ | h := wordKind_cases (String.ofList w) rest <;>
        rw [h] <;> exact ⟨rfl, rfl⟩
    cases hword.1.symm.trans hcross
    rw [hword.2]
    exact hoperand.advances hne htext.symm
  | @number w rest hne hread =>
    have hoperand := operand_readNumber (w ++ rest)
    rw [hread] at hoperand
    cases hcross
    exact hoperand.advances hne htext.symm
  | string hmark hread =>
    cases hcross
    exact advances_string hmark hread hshow htext.symm
  | regex _ hnext hread =>
    cases hcross
    exact advances_regex hnext hread hshow htext.symm
  | @slash m _ hm _ hnext =>
    have hsame : (TokenKind.mark m).cross due = some due := by
      unfold Mark.isSlash at hm
      split at hm
      · rfl
      · rfl
      · cases hm
    cases hsame.symm.trans hcross
    exact advances_slash hm hnext hshow htext.symm
  | mark hm => exact advances_mark hm hcs hcross htext.symm

theorem isBlank_of_isSpace {c : Char} (h : isSpace c = true) (hmark : c ≠ '\ufeff') :
    isBlank c = true := by
  have hcover : ∀ r ∈ spaceTable,
      r = (0xfeff, 0xfeff) ∨ ∃ q ∈ blankTable, q.1 ≤ r.1 ∧ r.2 ≤ q.2 := by
    decide
  simp only [isSpace, isBlank, inRanges, List.any_eq_true, Bool.and_eq_true, decide_eq_true_eq]
    at h ⊢
  obtain ⟨r, hr, hrange⟩ := h
  obtain rfl | ⟨q, hq, hinside⟩ := hcover r hr
  · exact absurd (Char.toNat_inj.1 (show c.toNat = 0xfeff by omega)) hmark
  · exact ⟨q, hq, by omega⟩

/-- Blanks are passed. -/
theorem advances_blanks (hw : ∀ c ∈ w, isBlank c = true) (hne : w ≠ [])
    (h : w ++ rest = cs ++ [';']) : Advances due operand cs due operand rest := by
  refine .of_balanced h hne ?_ fun inner _ hinner => ?_
  · intro hlast
    exact absurd (hw _ (List.mem_of_getLast? hlast)) (by decide)
  · clear hne h
    induction w with
    | nil => exact hinner
    | cons c w ih =>
      obtain ⟨hc, hw⟩ := List.forall_mem_cons.1 hw
      exact .blank hc (ih hw)

theorem advances_lineEnd (hline : LineEnd (cs ++ [';']) rest) :
    Advances due operand cs due operand rest := by
  generalize htext : cs ++ [';'] = text at hline
  cases hline with
  | newline => exact advances_blanks (w := ['\n']) (List.all_eq_true.1 (by decide)) nofun htext.symm
  | «return» =>
    exact advances_blanks (w := ['\r']) (List.all_eq_true.1 (by decide)) nofun htext.symm
  | both =>
    exact advances_blanks (w := ['\r', '\n']) (List.all_eq_true.1 (by decide)) nofun htext.symm

/-- A gap is passed. -/
theorem advances_gap (h : GapText s (cs ++ [';']) s' rest) (hcomment : ¬['/', '/'] <:+: cs)
    (hmark : '\ufeff' ∉ cs) : Advances due operand cs due operand rest := by
  generalize htext : cs ++ [';'] = text at h
  cases h with
  | @space c rest hspace =>
    refine advances_blanks (w := [c]) (List.forall_mem_singleton.2 ?_) nofun htext.symm
    refine isBlank_of_isSpace hspace ?_
    rintro rfl
    have hmem : '\ufeff' ∈ cs ++ [';'] := htext ▸ List.mem_cons_self
    obtain hmem | hmem := List.mem_append.1 hmem
    · exact hmark hmem
    · cases List.mem_singleton.1 hmem
  | lineEnd hline =>
    subst htext
    exact advances_lineEnd hline
  | @blockComment text rest hend =>
    refine .of_balanced (w := '/' :: '*' :: text) htext.symm nofun ?_ fun inner _ => ?_
    · rw [List.getLast?_cons, List.getLast?_cons, hend.getLast?]
      decide
    · exact .blockComment hend
  | @lineComment text rest =>
    obtain ⟨cs', rfl, -⟩ := exists_rest_of_append (w := ['/', '/']) htext.symm (by decide)
    exact absurd (List.prefix_append _ _).isInfix hcomment

/-- Text whose tokens the machine takes for what they are, and whose brackets close those that are
due, is balanced around them. -/
theorem unwinds_of_tokens (cs : List Char) : ∀ {s : LexState} {due : List Mark} {front : List Token}
    {last : Token}, s.tokens (cs ++ [';']) = front ++ [last] → last.kind = .eof →
    crossAll due (front.map (·.kind)) = some [] →
    showing s.previous (s.tokens (cs ++ [';'])) = true → ¬['/', '/'] <:+: cs → '\ufeff' ∉ cs →
    Unwinds due (expectsOperand s.previous) cs := by
  induction hn : cs.length using Nat.strongRecOn generalizing cs with
  | _ n ih =>
    subst hn
    intro s due front last htokens hlast hcross hshow hcomment hmark
    have hnext : ∀ {due' : List Mark} {operand operand' : Bool} {rest : List Char} {s' : LexState}
        {front' : List Token}, Advances due operand cs due' operand' rest →
        s'.tokens rest = front' ++ [last] → crossAll due' (front'.map (·.kind)) = some [] →
        showing s'.previous (s'.tokens rest) = true → expectsOperand s'.previous = operand' →
        Unwinds due operand cs := by
      rintro due' operand operand' rest s' front'
        ⟨cs', hlt, hsuffix, rfl, hunwinds⟩ htokens' hcross'
        hshow' rfl
      refine hunwinds (ih _ hlt cs' rfl htokens' hlast hcross' hshow' ?_ ?_)
      · exact fun hwithin => hcomment (hwithin.trans hsuffix.isInfix)
      · exact fun hmem => hmark (hsuffix.subset hmem)
    have hfront : ∀ {t : Token} {s' : LexState} {rest : List Char},
        t :: s'.tokens rest = front ++ [last] →
        ∃ front', front = t :: front' ∧ s'.tokens rest = front' ++ [last] := by
      intro t s' rest htokens
      cases front with
      | nil => exact absurd (List.cons.inj htokens).2 (tokens_ne_nil s' rest)
      | cons u front =>
        obtain ⟨rfl, hrest⟩ := List.cons.inj htokens
        exact ⟨front, rfl, hrest⟩
    cases hlook : s.look (cs ++ [';']) with
    | stop kind =>
      rw [tokens_stop hlook] at htokens
      obtain ⟨-, heq⟩ | ⟨-, heq⟩ := List.append_eq_singleton_iff.1 htokens.symm
      · cases heq
        cases hlast
        obtain ⟨-, hnil⟩ | hkind := stop_of_look hlook
        · exact absurd hnil (by simp)
        · cases hkind
      · cases heq
    | skip s' rest =>
      have hgap := gapText_of_look hlook
      have hprevious := hgap.previous_eq
      rw [tokens_skip hlook] at htokens hshow
      exact hnext (advances_gap hgap hcomment hmark) htokens hcross (hprevious ▸ hshow)
        (by rw [hprevious])
    | lineSemi rest =>
      rw [tokens_lineSemi hlook] at htokens hshow
      obtain ⟨front', rfl, hrest⟩ := hfront htokens
      exact hnext (advances_lineEnd (lineEnd_of_look hlook)) hrest hcross hshow rfl
    | token kind retry rest =>
      rw [tokens_token hlook] at htokens hshow
      obtain ⟨front', rfl, hrest⟩ := hfront htokens
      obtain ⟨due', hkind, hcross'⟩ := Option.bind_eq_some_iff.1 hcross
      have htext := tokenText_of_look hlook
      rw [showing, if_neg htext.kind_ne_lineSemi, Bool.and_eq_true] at hshow
      by_cases hcs : cs = []
      · subst hcs
        cases hlook.symm.trans (show s.look [';'] = .token (.mark .semi) none [] from rfl)
        rw [tokens_stop rfl] at hrest
        cases front' with
        | nil =>
          cases hcross'
          cases hkind
          exact .nil
        | cons t front' => simp at hrest
      · refine hnext (advances_token htext hcs hshow.1 hkind) hrest hcross' ?_ ?_
        · rw [previous_after]
          exact hshow.2
        · rw [previous_after]

end

end Espalier.Scan
