import Espalier.Script.Reader
import Espalier.Text.Quoted

/-!
# Tokens of spelled text

Generated source is put together from words, marks, string literals, blanks and line ends. A
`Lexeme` is one such part, and `Spelled` says of a list of them that neighbours do not run into each
other: a word stands before a mark or a blank, and every list ends with a line end. Main statement:
`tokenize_spelling`, by which the tokens of such a text are those of its parts.
-/

namespace Espalier.Script

open Espalier.Text

/-! ## Parts of a text -/

/-- A part of generated source. -/
inductive Lexeme where
  /-- An identifier or a keyword. -/
  | word (text : String)
  | mark (m : Mark)
  /-- A string literal for a text. -/
  | literal (text : String)
  | blank
  | line

/-- The characters of a part. -/
def Lexeme.chars : Lexeme → List Char
  | .word text => text.toList
  | .mark m => m.text.toList
  | .literal text => (quote text).toList
  | .blank => [' ']
  | .line => ['\n']

/-- The token of a word. -/
def wordToken (text : String) : TokenKind :=
  match Keyword.ofText? text with
  | some keyword => .keyword keyword
  | none => .name text

/-- The token of a part; white space has none. -/
def Lexeme.kind? : Lexeme → Option TokenKind
  | .word text => some (wordToken text)
  | .mark m => some (.mark m)
  | .literal text => some (.string (quote text))
  | .blank | .line => none

/-- The text of several parts. -/
def spelling (parts : List Lexeme) : List Char :=
  parts.flatMap Lexeme.chars

/-- The tokens of several parts. -/
def kinds (parts : List Lexeme) : List TokenKind :=
  parts.filterMap Lexeme.kind?

theorem spelling_cons (part : Lexeme) (rest : List Lexeme) :
    spelling (part :: rest) = part.chars ++ spelling rest :=
  List.flatMap_cons

theorem spelling_append (a b : List Lexeme) : spelling (a ++ b) = spelling a ++ spelling b :=
  List.flatMap_append

theorem kinds_append (a b : List Lexeme) : kinds (a ++ b) = kinds a ++ kinds b :=
  List.filterMap_append

@[simp] theorem kinds_nil : kinds [] = [] := rfl

section
variable (rest : List Lexeme)

@[simp] theorem kinds_word (text : String) :
    kinds (.word text :: rest) = wordToken text :: kinds rest := rfl

@[simp] theorem kinds_mark (m : Mark) : kinds (.mark m :: rest) = .mark m :: kinds rest := rfl

@[simp] theorem kinds_literal (text : String) :
    kinds (.literal text :: rest) = .string (quote text) :: kinds rest := rfl

@[simp] theorem kinds_blank : kinds (.blank :: rest) = kinds rest := rfl

@[simp] theorem kinds_line : kinds (.line :: rest) = kinds rest := rfl

end

/-- The marks that are no beginning of a longer mark. -/
def Mark.isPlain : Mark → Bool
  | .lparen | .rparen | .lbrace | .rbrace | .semi | .comma | .question | .colon => true
  | _ => false

/-- The text is read as one word. -/
structure IsWord (text : String) : Prop where
  start : text.toList.head?.any fun c => isNameStart c && !isSpace c
  rest : (text.toList.dropWhile isNameStart).all isNamePart

instance (text : String) : Decidable (IsWord text) :=
  decidable_of_iff
    ((text.toList.head?.any fun c => isNameStart c && !isSpace c) = true ∧
      (text.toList.dropWhile isNameStart).all isNamePart = true)
    ⟨fun h => ⟨h.1, h.2⟩, fun h => ⟨h.1, h.2⟩⟩

/-- The part may stand directly before the other one. -/
def Lexeme.Before : Lexeme → Lexeme → Prop
  | .word text, .mark m => IsWord text ∧ (m.isPlain ∨ m = .assign .plain)
  | .word text, .blank => IsWord text ∧ text ≠ "get" ∧ text ≠ "set"
  | .word _, _ => False
  | .mark m, next => m.isPlain ∨ m = .assign .plain ∧ ∃ text, next = .word text ∧ IsWord text
  | .blank, .line => False
  | .literal _, _ | .blank, _ | .line, _ => True

/-- Neighbours keep apart, and a line end comes last. -/
def Spelled : List Lexeme → Prop
  | [] => True
  | .line :: rest => Spelled rest
  | part :: next :: rest => part.Before next ∧ Spelled (next :: rest)
  | [_] => False

/-- A part that ends no line stands before another one. -/
theorem spelled_cons {part : Lexeme} (hline : part ≠ .line) {rest : List Lexeme} :
    Spelled (part :: rest)
      ↔ ∃ next after, rest = next :: after ∧ part.Before next ∧ Spelled rest := by
  cases rest with
  | nil =>
    cases part with
    | line => exact absurd rfl hline
    | word | mark | literal | blank => simp [Spelled]
  | cons next after =>
    cases part with
    | line => exact absurd rfl hline
    | word | mark | literal | blank => simp [Spelled]

theorem Spelled.append {a b : List Lexeme} (ha : Spelled a) (hb : Spelled b) :
    Spelled (a ++ b) := by
  induction a with
  | nil => exact hb
  | cons part a ih =>
    by_cases hline : part = .line
    · subst hline
      exact ih ha
    · obtain ⟨next, after, rfl, hbefore, hrest⟩ := (spelled_cons hline).1 ha
      exact (spelled_cons hline).2 ⟨next, after ++ b, rfl, hbefore, ih hrest⟩

/-! ## Words -/

theorem IsWord.exists_cons {text : String} (h : IsWord text) :
    ∃ c cs, text.toList = c :: cs ∧ isNameStart c = true ∧ isSpace c = false := by
  have hstart := h.start
  cases htext : text.toList with
  | nil => rw [htext] at hstart; cases hstart
  | cons c cs =>
    rw [htext] at hstart
    simp only [List.head?_cons, Option.any_some, Bool.and_eq_true, Bool.not_eq_true'] at hstart
    exact ⟨c, cs, rfl, hstart⟩

/-- A word ends before a character that cannot be part of it. -/
theorem readName_word {text : String} (h : IsWord text) {c : Char} (hstart : isNameStart c = false)
    (hpart : isNamePart c = false) (rest : List Char) :
    readName (text.toList ++ c :: rest) = (text.toList, c :: rest) := by
  have hopening : (text.toList ++ c :: rest).takeWhile isNameStart
      = text.toList.takeWhile isNameStart := by
    rw [List.takeWhile_append, List.takeWhile_cons_of_neg (by simp [hstart]), List.append_nil]
    split
    case isTrue hlength => exact ((List.takeWhile_prefix _).eq_of_length hlength).symm
    case isFalse => rfl
  have hrest : (text.toList ++ c :: rest).dropWhile isNameStart
      = text.toList.dropWhile isNameStart ++ c :: rest := by
    rw [List.dropWhile_append, List.dropWhile_cons_of_neg (by simp [hstart])]
    split
    case isTrue hempty => rw [List.isEmpty_iff.1 hempty, List.nil_append]
    case isFalse => rfl
  have hall : ∀ d ∈ text.toList.dropWhile isNameStart, isNamePart d = true :=
    List.all_eq_true.1 h.rest
  rw [readName, hopening, hrest, List.takeWhile_append_of_pos hall,
    List.dropWhile_append_of_pos hall, List.takeWhile_cons_of_neg (by simp [hpart]),
    List.dropWhile_cons_of_neg (by simp [hpart]), List.append_nil, List.takeWhile_append_dropWhile]

/-- The token of a word does not depend on what follows, except after the words that may introduce
an accessor. -/
theorem wordKind_eq {text : String} {c : Char}
    (hblank : text = "get" ∨ text = "set" → isBlank c = false) (rest : List Char) :
    wordKind text (c :: rest) = wordToken text := by
  have hnone : text = "get" ∨ text = "set" → blankThenName (c :: rest) = false := by
    intro htext
    cases rest with
    | nil => rfl
    | cons d rest => rw [blankThenName, hblank htext, Bool.false_and]
  have hget : ¬(text = "get" ∧ blankThenName (c :: rest) = true) :=
    fun h => Bool.false_ne_true ((hnone (.inl h.1)).symm.trans h.2)
  have hset : ¬(text = "set" ∧ blankThenName (c :: rest) = true) :=
    fun h => Bool.false_ne_true ((hnone (.inr h.1)).symm.trans h.2)
  exact (if_neg hget).trans (if_neg hset)

theorem not_isDigit_of_isNameStart {c : Char} (h : isNameStart c = true) : c.isDigit = false := by
  apply Bool.eq_false_iff.2
  intro hdigit
  have hdigits : ∀ n < 58, 48 ≤ n → isNameStart (Char.ofNat n) = false := by decide
  simp only [Char.isDigit, Bool.and_eq_true, decide_eq_true_eq, ge_iff_le, UInt32.le_iff_toNat_le]
    at hdigit
  rw [← Char.ofNat_toNat c, hdigits c.toNat (Nat.lt_succ_of_le hdigit.2) hdigit.1] at h
  cases h

/-- A word is read up to a character that cannot be part of it. -/
theorem look_word (s : LexState) {text : String} (h : IsWord text) {c : Char}
    (hstart : isNameStart c = false) (hpart : isNamePart c = false)
    (hblank : text = "get" ∨ text = "set" → isBlank c = false) (rest : List Char) :
    s.look (text.toList ++ c :: rest) = .token (wordToken text) none (c :: rest) := by
  obtain ⟨d, ds, htext, hname, hspace⟩ := h.exists_cons
  have hread := readName_word h hstart hpart rest
  have hdigit := not_isDigit_of_isNameStart hname
  have hne : ∀ e, isNameStart e = false → d ≠ e := by
    rintro e he rfl
    rw [hname] at he
    cases he
  have hcr := hne '\r' (by decide)
  have hlf := hne '\n' (by decide)
  have hslash := hne '/' (by decide)
  have hdot := hne '.' (by decide)
  have hdouble := hne '\x22' (by decide)
  have hsingle := hne '\x27' (by decide)
  have hkind := wordKind_eq hblank rest
  rw [htext, List.cons_append] at hread ⊢
  rw [LexState.look]
  · simp only [hcr, hlf, hslash, hdouble, hsingle, hspace, hdigit, hname, hread, or_self, if_false,
      if_true, Bool.false_eq_true]
    rw [← htext, String.ofList_toList, hkind]
  all_goals
    intros
    simp_all

/-! ## Marks and white space -/

theorem look_plainMark (s : LexState) {m : Mark} (h : m.isPlain = true) (rest : List Char) :
    s.look (m.text.toList ++ rest) = .token (.mark m) none rest := by
  unfold Mark.isPlain at h
  split at h
  case h_9 => cases h
  all_goals rfl

/-- A plain assignment before a word. -/
theorem look_assign (s : LexState) {c : Char} (h : isNameStart c = true) (rest : List Char) :
    s.look ('=' :: c :: rest) = .token (.mark (.assign .plain)) none (c :: rest) := by
  have hne : c ≠ '=' := by
    rintro rfl
    exact absurd h (by decide)
  have hread : Mark.read? ('=' :: c :: rest) = some (.assign .plain, c :: rest) := by
    simp [Mark.read?, Mark.all, Mark.text, BinaryOp.text, AssignOp.text, List.isPrefixOf, hne.symm]
    rfl
  show Lexed.ofMark none ('=' :: c :: rest) = _
  rw [Lexed.ofMark, hread]

theorem look_blank (s : LexState) (rest : List Char) : s.look (' ' :: rest) = .skip s rest := by
  have hwide : isWideSpace ' ' = false := by decide
  show Lexed.skip { s with wideSpace := s.wideSpace || isWideSpace ' ' } rest = _
  rw [hwide, Bool.or_false]

/-- A line end here does not end a jump. -/
def LexState.Calm (s : LexState) : Prop :=
  ¬(s.gap = .token ∧ s.previous.any (·.endsAtLine))

theorem LexState.Calm.after {s : LexState} {kind : TokenKind} (h : kind.endsAtLine = false) :
    (s.after kind).Calm := by
  have hprevious : (s.after kind).previous = some kind := by
    unfold LexState.after
    dsimp only
    split <;> rfl
  rintro ⟨-, hjump⟩
  rw [hprevious, Option.any_some, h] at hjump
  cases hjump

theorem look_line (s : LexState) (h : s.Calm)
    (rest : List Char) : s.look ('\n' :: rest) = .skip (s.withGap .lineEnd) rest := by
  show s.lineEnd rest = _
  rw [LexState.lineEnd, if_neg h]

/-! ## Literals -/

theorem isHexDigit_hexDigit {n : Nat} (h : n < 16) : isHexDigit (hexDigit n) = true := by
  have hall : ∀ n < 16, isHexDigit (hexDigit n) = true := by decide
  exact hall n h

theorem readQuoted_codeEscape (c : Char) (rest : List Char) :
    readQuoted '\x22' (codeEscape c ++ rest)
      = (readQuoted '\x22' rest).map (Part.prepend (codeEscape c)) := by
  have hdigit : ∀ width, isHexDigit (hexDigit (c.toNat / Nat.pow 16 width % 16)) = true :=
    fun width => isHexDigit_hexDigit (Nat.mod_lt _ (by decide))
  simp only [codeEscape, hexDigits, List.cons_append, List.nil_append]
  rw [readQuoted, hdigit, hdigit, hdigit, hdigit]
  rfl

/-- A character that stands for itself inside a literal. -/
theorem readQuoted_char {c : Char} (hquote : c ≠ '\x22') (hslash : c ≠ '\x5c')
    (hline : endsLine c = false) (rest : List Char) :
    readQuoted '\x22' (c :: rest) = (readQuoted '\x22' rest).map (Part.prepend [c]) := by
  rw [readQuoted, if_neg hquote, hline, if_neg (by simp [hslash])]
  all_goals
    intros
    simp_all

theorem endsLine_eq_false {c : Char} (hcontrol : 0x20 ≤ c.toNat) (hline : c.toNat ≠ 0x2028)
    (hparagraph : c.toNat ≠ 0x2029) : endsLine c = false := by
  have hlf : c ≠ '\n' := by
    rintro rfl
    exact absurd hcontrol (by decide)
  have hcr : c ≠ '\r' := by
    rintro rfl
    exact absurd hcontrol (by decide)
  simp [endsLine, hlf, hcr, hline, hparagraph]

/-- The characters that stand for one character are read together. -/
theorem readQuoted_quotedChar (c : Char) (rest : List Char) :
    readQuoted '\x22' (quotedChar c ++ rest)
      = (readQuoted '\x22' rest).map (Part.prepend (quotedChar c)) := by
  rcases quotedChar_cases c with ⟨d, hshort, hc⟩ | ⟨-, hc⟩ | ⟨⟨hquote, hslash, hplain⟩, hc⟩
  · rw [hc]
    simp only [shortEscapes, List.mem_cons, Prod.mk.injEq, List.not_mem_nil, or_false] at hshort
    rcases hshort with h | h | h | h | h | h | h <;> obtain ⟨-, rfl⟩ := h <;> rfl
  · rw [hc]
    exact readQuoted_codeEscape c rest
  · rw [hc]
    exact readQuoted_char hquote hslash (endsLine_eq_false hplain.1 hplain.2.1 hplain.2.2) rest

theorem readQuoted_quotedChars (cs rest : List Char) :
    readQuoted '\x22' (cs.flatMap quotedChar ++ '\x22' :: rest)
      = some (cs.flatMap quotedChar ++ ['\x22'], rest) := by
  induction cs with
  | nil => rfl
  | cons c cs ih =>
    rw [List.flatMap_cons, List.append_assoc, readQuoted_quotedChar, ih]
    simp [Part.prepend]

theorem look_literal (s : LexState) (text : String) (rest : List Char) :
    s.look ((quote text).toList ++ rest) = .token (.string (quote text)) none rest := by
  have hread := readQuoted_quotedChars text.toList rest
  rw [quote, String.toList_ofList, quotedChars, List.cons_append, List.append_assoc]
  show Lexed.ofPart .string ((readQuoted '\x22' _).map _) = _
  rw [List.singleton_append, hread]
  rfl

/-! ## Texts -/

theorem tokensFrom_token {s : LexState} {cs rest : List Char} {kind : TokenKind}
    (h : s.look cs = .token kind none rest) (fuel : Nat) :
    (tokensFrom (fuel + 1) s cs).map (·.kind)
      = kind :: (tokensFrom fuel (s.after kind) rest).map (·.kind) := by
  rw [tokensFrom, h]
  rfl

theorem tokensFrom_skip {s s' : LexState} {cs rest : List Char} (h : s.look cs = .skip s' rest)
    (fuel : Nat) : tokensFrom (fuel + 1) s cs = tokensFrom fuel s' rest := by
  rw [tokensFrom, h]

/-- A mark is one character that is no part of a word. -/
theorem Mark.exists_char {m : Mark} (h : m.isPlain ∨ m = .assign .plain) :
    ∃ c, m.text.toList = [c] ∧ isNameStart c = false ∧ isNamePart c = false ∧
      isBlank c = false := by
  cases m with
  | assign op =>
    obtain h | h := h
    · cases h
    · cases h
      exact ⟨'=', rfl, by decide⟩
  | lparen => exact ⟨'(', rfl, by decide⟩
  | rparen => exact ⟨')', rfl, by decide⟩
  | lbrace => exact ⟨'\x7b', rfl, by decide⟩
  | rbrace => exact ⟨'\x7d', rfl, by decide⟩
  | semi => exact ⟨';', rfl, by decide⟩
  | comma => exact ⟨',', rfl, by decide⟩
  | question => exact ⟨'?', rfl, by decide⟩
  | colon => exact ⟨':', rfl, by decide⟩
  | _ => obtain h | h := h <;> cases h

/-- What follows a word is no part of it. -/
theorem look_word_before (s : LexState) {text : String} {next : Lexeme}
    (h : (Lexeme.word text).Before next) (rest : List Char) :
    s.look (text.toList ++ (next.chars ++ rest))
      = .token (wordToken text) none (next.chars ++ rest) := by
  cases next with
  | mark m =>
    obtain ⟨c, hchars, hstart, hpart, hblank⟩ := Mark.exists_char h.2
    rw [Lexeme.chars, hchars]
    exact look_word s h.1 hstart hpart (fun _ => hblank) rest
  | blank =>
    exact look_word s h.1 (by decide) (by decide)
      (fun haccessor => absurd haccessor (not_or.2 h.2)) rest
  | word | literal | line => exact h.elim

theorem look_mark_before (s : LexState) {m : Mark} {next : Lexeme}
    (h : (Lexeme.mark m).Before next) (rest : List Char) :
    s.look (m.text.toList ++ (next.chars ++ rest))
      = .token (.mark m) none (next.chars ++ rest) := by
  obtain hplain | ⟨rfl, text, rfl, htext⟩ := h
  · exact look_plainMark s hplain _
  · obtain ⟨c, cs, hchars, hname, -⟩ := htext.exists_cons
    rw [Lexeme.chars, hchars]
    exact look_assign s hname _

/-- The tokens of spelled parts are their tokens, whatever stands before them. -/
theorem tokensFrom_spelling (parts : List Lexeme) : ∀ (s : LexState) (fuel : Nat), Spelled parts →
    (parts.head? = some .line → s.Calm) →
    (tokensFrom (fuel + parts.length + 1) s (spelling parts)).map (·.kind)
      = kinds parts ++ [TokenKind.eof] := by
  induction parts with
  | nil => intros; rfl
  | cons part rest ih =>
    intro s fuel hspelled hcalm
    by_cases hline : part = .line
    · subst hline
      have hlook : s.look (spelling (.line :: rest)) = .skip (s.withGap .lineEnd) (spelling rest) :=
        look_line s (hcalm rfl) _
      rw [tokensFrom_skip hlook]
      exact ih _ fuel hspelled fun _ h => nomatch h.1
    · obtain ⟨next, after, rfl, hbefore, hrest⟩ := (spelled_cons hline).1 hspelled
      cases part with
      | line => exact absurd rfl hline
      | word text =>
        have hlook : s.look (spelling (.word text :: next :: after))
            = .token (wordToken text) none (spelling (next :: after)) :=
          look_word_before s hbefore _
        rw [tokensFrom_token hlook]
        refine congrArg _ (ih _ fuel hrest fun hnext => ?_)
        cases hnext
        exact hbefore.elim
      | mark m =>
        have hlook : s.look (spelling (.mark m :: next :: after))
            = .token (.mark m) none (spelling (next :: after)) :=
          look_mark_before s hbefore _
        rw [tokensFrom_token hlook]
        exact congrArg _ (ih _ fuel hrest fun _ => .after rfl)
      | literal text =>
        have hlook : s.look (spelling (.literal text :: next :: after))
            = .token (.string (quote text)) none (spelling (next :: after)) :=
          look_literal s text _
        rw [tokensFrom_token hlook]
        exact congrArg _ (ih _ fuel hrest fun _ => .after rfl)
      | blank =>
        have hlook : s.look (spelling (.blank :: next :: after))
            = .skip s (spelling (next :: after)) :=
          look_blank s _
        rw [tokensFrom_skip hlook]
        refine ih _ fuel hrest fun hnext => ?_
        cases hnext
        exact hbefore.elim

theorem Lexeme.Before.one_le_length {part next : Lexeme} (h : part.Before next) :
    1 ≤ part.chars.length := by
  cases part with
  | word text =>
    have hword : IsWord text := by
      cases next with
      | mark | blank => exact h.1
      | word | literal | line => exact h.elim
    obtain ⟨c, cs, hchars, -⟩ := hword.exists_cons
    simp [chars, hchars]
  | mark m =>
    have hmark : m.isPlain ∨ m = .assign .plain := h.imp_right And.left
    obtain ⟨c, hchars, -⟩ := Mark.exists_char hmark
    simp [chars, hchars]
  | literal text => simp [chars, quote, quotedChars]
  | blank | line => exact Nat.le_refl 1

theorem length_le_length_spelling {parts : List Lexeme} (h : Spelled parts) :
    parts.length ≤ (spelling parts).length := by
  induction parts with
  | nil => exact Nat.le_refl 0
  | cons part rest ih =>
    have hpart : 1 ≤ part.chars.length ∧ Spelled rest := by
      by_cases hline : part = .line
      · subst hline
        exact ⟨Nat.le_refl 1, h⟩
      · obtain ⟨next, after, -, hbefore, hrest⟩ := (spelled_cons hline).1 h
        exact ⟨hbefore.one_le_length, hrest⟩
    have hrest := ih hpart.2
    have hspelling : spelling (part :: rest) = part.chars ++ spelling rest := rfl
    rw [hspelling, List.length_append, List.length_cons]
    omega

/-- The tokens of spelled text. -/
theorem tokenize_spelling {parts : List Lexeme} (h : Spelled parts) {source : String}
    (hsource : source.toList = spelling parts) :
    (tokenize source).map (·.kind) = kinds parts ++ [TokenKind.eof] := by
  have hlength := length_le_length_spelling h
  have htokens := tokensFrom_spelling parts {} ((spelling parts).length - parts.length) h
    fun _ hjump => Bool.false_ne_true hjump.2
  rw [tokenize, LexState.tokens, hsource]
  rwa [Nat.sub_add_cancel hlength] at htokens

end Espalier.Script
