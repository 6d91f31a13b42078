import Espalier.Proofs.Script.Spelling
import Espalier.Script.Minified
import Espalier.Script.Pretty

/-!
# Tokens of printed text

A style writes blanks, line ends, braces and semicolons between the texts of a stream. Whatever it
writes, the tokens are those of the texts and of the marks between them, as long as no text runs
into the next one (`Spaced`). Main statement: `tokenize_print`. What a style has to keep to for this
is `Style.Faithful`; the pretty style of any width and the minified style do.
-/

namespace Espalier.Script

open Espalier.Text

/-! ## Tokens of pieces -/

/-- The token that a layout mark writes. -/
def LayoutMark.kind? : LayoutMark → Option TokenKind
  | .openBlock => some (.mark .lbrace)
  | .closeBlock => some (.mark .rbrace)
  | .endStatement => some (.mark .semi)
  | _ => none

/-- The marks that stand as texts in the stream of a render function. -/
def printedMarks : List Mark :=
  [.lparen, .rparen, .lbracket, .rbracket, .comma, .question, .colon, .dot, .assign .plain,
    .binary .eqStrict]

/-- The token of a text: a mark, a digit or a word. -/
def textKind (text : String) : TokenKind :=
  match printedMarks.find? (·.text == text) with
  | some m => .mark m
  | none => if text.toList.all Char.isDigit then .number text else wordToken text

/-- The token of a piece. -/
def Piece.kind? : Piece → Option TokenKind
  | .text s => some (textKind s)
  | .literal s => some (.string s)
  | .mark m => m.kind?

/-- The tokens of a stream. -/
def pieceKinds (pieces : List Piece) : List TokenKind :=
  pieces.filterMap Piece.kind?

theorem pieceKinds_append (a b : List Piece) :
    pieceKinds (a ++ b) = pieceKinds a ++ pieceKinds b :=
  List.filterMap_append

@[simp] theorem pieceKinds_nil : pieceKinds [] = [] := rfl

@[simp] theorem pieceKinds_text (s : String) (rest : List Piece) :
    pieceKinds (.text s :: rest) = textKind s :: pieceKinds rest := rfl

@[simp] theorem pieceKinds_literal (s : String) (rest : List Piece) :
    pieceKinds (.literal s :: rest) = .string s :: pieceKinds rest := rfl

@[simp] theorem pieceKinds_mark (m : LayoutMark) (rest : List Piece) :
    pieceKinds (.mark m :: rest) = m.kind?.toList ++ pieceKinds rest := by
  cases h : m.kind? <;> simp [pieceKinds, Piece.kind?, h]

/-- The text is a word that begins no accessor, a digit, or one of the marks. -/
def IsText (text : String) : Prop :=
  (IsWord text ∧ text ≠ "get" ∧ text ≠ "set") ∨
    (text.toList.length = 1 ∧ text.toList.all Char.isDigit = true) ∨
    ∃ m ∈ printedMarks, m.text = text

instance (text : String) : Decidable (IsText text) :=
  inferInstanceAs (Decidable (_ ∨ _))

/-- A text is a word, a digit or a mark. -/
theorem IsText.cases {text : String} (h : IsText text) :
    (IsWord text ∧ text ≠ "get" ∧ text ≠ "set") ∨
      (∃ d : Char, d.isDigit = true ∧ text.toList = [d]) ∨ ∃ m ∈ printedMarks, m.text = text := by
  refine h.imp_right (Or.imp_left ?_)
  rintro ⟨hlength, hdigits⟩
  obtain ⟨d, htext⟩ := List.length_eq_one_iff.1 hlength
  rw [htext] at hdigits
  exact ⟨d, by simpa using hdigits, htext⟩

/-- The character ends the text, if it is directly behind it. -/
def stops (text : String) (c : Char) : Bool :=
  match textKind text with
  | .mark .dot => !c.isDigit
  | .mark (.assign .plain) => c != '='
  | .mark _ => true
  | .number _ => !c.isDigit && c != '.' && !isNameStart c
  | _ => !isNameStart c && !isNamePart c

theorem textKind_of_mark {m : Mark} (h : m ∈ printedMarks) : textKind m.text = .mark m := by
  have hall : ∀ m ∈ printedMarks, textKind m.text = .mark m := by decide
  exact hall m h

theorem textKind_of_digit {text : String} {d : Char} (hd : d.isDigit = true)
    (htext : text.toList = [d]) : textKind text = .number text := by
  have hmarks : ∀ m ∈ printedMarks, ¬m.text.toList.all Char.isDigit := by decide
  have hnone : printedMarks.find? (·.text == text) = none := by
    rw [List.find?_eq_none]
    intro m hm heq
    refine hmarks m hm ?_
    rw [beq_iff_eq.1 heq, htext]
    simp [hd]
  rw [textKind, hnone]
  simp [htext, hd]

theorem textKind_of_word {text : String} (h : IsWord text) : textKind text = wordToken text := by
  obtain ⟨c, cs, htext, hname, -⟩ := h.exists_cons
  have hmarks : ∀ m ∈ printedMarks, m.text.toList.head?.all (!isNameStart ·) := by decide
  have hnone : printedMarks.find? (·.text == text) = none := by
    rw [List.find?_eq_none]
    intro m hm heq
    have hhead := hmarks m hm
    rw [beq_iff_eq.1 heq, htext] at hhead
    simp [hname] at hhead
  have hdigit := not_isDigit_of_isNameStart hname
  rw [textKind, hnone]
  simp [htext, hdigit]

theorem wordToken_cases (text : String) :
    (∃ keyword, wordToken text = .keyword keyword) ∨ wordToken text = .name text := by
  unfold wordToken
  split
  case h_1 keyword _ => exact .inl ⟨keyword, rfl⟩
  case h_2 => exact .inr rfl

theorem stops_of_word {text : String} (h : IsWord text) (c : Char) :
    stops text c = (!isNameStart c && !isNamePart c) := by
  rw [stops, textKind_of_word h]
  obtain ⟨keyword, heq⟩ | heq := wordToken_cases text <;> rw [heq]

theorem stops_of_digit {text : String} {d : Char} (hd : d.isDigit = true)
    (htext : text.toList = [d]) (c : Char) :
    stops text c = (!c.isDigit && c != '.' && !isNameStart c) := by
  rw [stops, textKind_of_digit hd htext]

/-! ## Looking at texts -/

/-- Nothing that could go on a number follows. -/
theorem readFraction_stop {c : Char} (hdot : c ≠ '.') (hname : isNameStart c = false)
    (rest : List Char) : readFraction (c :: rest) = ([], c :: rest) := by
  have hne : ∀ e, isNameStart e = true → c ≠ e := by
    rintro e he rfl
    rw [hname] at he
    cases he
  have hexponent : readExponent (c :: rest) = ([], c :: rest) := by
    cases rest with
    | nil => rfl
    | cons sign rest => simp [readExponent, hne 'e' (by decide), hne 'E' (by decide)]
  unfold readFraction
  split
  case h_1 heq => cases heq; exact absurd rfl hdot
  case h_2 => exact hexponent

theorem readNumber_digit {d c : Char} (hd : d.isDigit = true) (hdigit : c.isDigit = false)
    (hdot : c ≠ '.') (hname : isNameStart c = false) (rest : List Char) :
    readNumber (d :: c :: rest) = ([d], c :: rest) := by
  have hne : ∀ e, isNameStart e = true → c ≠ e := by
    rintro e he rfl
    rw [hname] at he
    cases he
  have hoctal : isOctalDigit c = false := by
    apply Bool.eq_false_iff.2
    intro h
    simp only [isOctalDigit, Bool.and_eq_true, decide_eq_true_eq] at h
    have hupper : c ≤ '9' := Char.le_trans h.2 (by decide)
    simp [Char.isDigit, Char.le_def, UInt32.le_iff_toNat_le] at hdigit h hupper
    omega
  have hfraction := readFraction_stop hdot hname rest
  unfold readNumber
  split
  case h_1 x digit rest heq =>
    cases heq
    simp [hne 'x' (by decide), hne 'X' (by decide), hoctal, hfraction]
  case h_2 heq =>
    cases heq
    simp [readWhile, hoctal, hfraction]
  case h_3 => simp [readWhile, hd, hdigit, hfraction]

theorem look_digit (s : LexState) {d c : Char} (hd : d.isDigit = true) (hdigit : c.isDigit = false)
    (hdot : c ≠ '.') (hname : isNameStart c = false) (rest : List Char) :
    s.look (d :: c :: rest) = .token (.number (String.ofList [d])) none (c :: rest) := by
  have hne : ∀ e, e.isDigit = false → d ≠ e := by
    rintro e he rfl
    rw [hd] at he
    cases he
  have hspaces : ∀ n < 58, 48 ≤ n → isSpace (Char.ofNat n) = false := by decide
  have hspace : isSpace d = false := by
    have hrange := hd
    simp only [Char.isDigit, Bool.and_eq_true, decide_eq_true_eq, ge_iff_le,
      UInt32.le_iff_toNat_le] at hrange
    have := hspaces d.toNat (Nat.lt_succ_of_le hrange.2) hrange.1
    rwa [Char.ofNat_toNat] at this
  have hcr := hne '\r' (by decide)
  have hlf := hne '\n' (by decide)
  have hslash := hne '/' (by decide)
  have hpoint := hne '.' (by decide)
  have hdouble := hne '\x22' (by decide)
  have hsingle := hne '\x27' (by decide)
  rw [LexState.look]
  · simp only [hcr, hlf, hslash, hdouble, hsingle, hspace, hd, or_self, if_false, if_true,
      Bool.false_eq_true, readNumber_digit hd hdigit hdot hname, Lexed.ofPart]
  all_goals
    intros
    simp_all

/-- A mark is read whatever follows it, except that a dot may begin a number and an equality sign a
longer mark. -/
theorem look_printedMark (s : LexState) {m : Mark} (h : m ∈ printedMarks) {c : Char}
    (hc : stops m.text c = true) (rest : List Char) :
    s.look (m.text.toList ++ c :: rest) = .token (.mark m) none (c :: rest) := by
  rw [stops, textKind_of_mark h] at hc
  simp only [printedMarks, List.mem_cons, List.not_mem_nil, or_false] at h
  obtain rfl | rfl | rfl | rfl | rfl | rfl | rfl | rfl | rfl | rfl := h
  case inr.inr.inr.inr.inr.inr.inr.inl =>
    have hdigit : c.isDigit = false := by simpa using hc
    show (if c.isDigit = true then _ else _) = _
    rw [hdigit]
    rfl
  case inr.inr.inr.inr.inr.inr.inr.inr.inl =>
    have hne : c ≠ '=' := by simpa using hc
    have hread : Mark.read? ('=' :: c :: rest) = some (.assign .plain, c :: rest) := by
      simp [Mark.read?, Mark.all, Mark.text, BinaryOp.text, AssignOp.text, List.isPrefixOf,
        hne.symm]
      rfl
    show Lexed.ofMark none ('=' :: c :: rest) = _
    rw [Lexed.ofMark, hread]
  all_goals rfl

/-- A text is read up to a character that ends it. -/
theorem look_text (s : LexState) {text : String} (h : IsText text) {c : Char}
    (hc : stops text c = true) (rest : List Char) :
    s.look (text.toList ++ c :: rest) = .token (textKind text) none (c :: rest) := by
  obtain ⟨hword, hget, hset⟩ | ⟨d, hd, htext⟩ | ⟨m, hm, rfl⟩ := h.cases
  · rw [stops_of_word hword, Bool.and_eq_true, Bool.not_eq_true', Bool.not_eq_true'] at hc
    rw [textKind_of_word hword]
    exact look_word s hword hc.1 hc.2 (fun haccessor => absurd haccessor (not_or.2 ⟨hget, hset⟩))
      rest
  · rw [stops_of_digit hd htext] at hc
    simp only [Bool.and_eq_true, Bool.not_eq_true', bne_iff_ne] at hc
    have hof : String.ofList [d] = text := by rw [← htext, String.ofList_toList]
    rw [textKind_of_digit hd htext, htext, ← hof]
    exact look_digit s hd hc.1.1 hc.1.2 hc.2 rest
  · rw [textKind_of_mark hm]
    exact look_printedMark s hm hc rest

/-! ## What styles write -/

/-- The character is one that styles write between texts. -/
def isGlue (c : Char) : Bool :=
  c == ' ' || c == '\n' || c == ';' || c == '\x7b' || c == '\x7d'

/-- The token of a character between texts. -/
def glueKind? (c : Char) : Option TokenKind :=
  if c = '\x7b' then some (.mark .lbrace)
  else if c = '\x7d' then some (.mark .rbrace)
  else if c = ';' then some (.mark .semi)
  else none

theorem isGlue_cases {c : Char} (h : isGlue c = true) :
    c = ' ' ∨ c = '\n' ∨ c = ';' ∨ c = '\x7b' ∨ c = '\x7d' := by
  simpa [isGlue, or_assoc] using h

/-- Every text ends before the characters that styles write. -/
theorem stops_glue {text : String} (h : IsText text) {c : Char} (hc : isGlue c = true) :
    stops text c = true := by
  obtain ⟨hword, -⟩ | ⟨d, hd, htext⟩ | ⟨m, hm, rfl⟩ := h.cases
  · rw [stops_of_word hword]
    obtain rfl | rfl | rfl | rfl | rfl := isGlue_cases hc <;> decide
  · rw [stops_of_digit hd htext]
    obtain rfl | rfl | rfl | rfl | rfl := isGlue_cases hc <;> decide
  · have hall : ∀ m ∈ printedMarks,
        [' ', '\n', ';', '\x7b', '\x7d'].all (stops m.text) = true := by decide
    refine List.all_eq_true.1 (hall m hm) c ?_
    simpa using isGlue_cases hc

/-- The lexer passes what stands between texts, and finds the tokens in it. A line end is harmless
unless a jump stands before. -/
theorem tokensFrom_glue (glue : List Char) : ∀ (s : LexState) (rest : List Char) (fuel : Nat),
    (∀ c ∈ glue, isGlue c = true) → (s.Calm ∨ '\n' ∉ glue) →
    ∃ s', (tokensFrom (fuel + glue.length) s (glue ++ rest)).map (·.kind)
      = glue.filterMap glueKind? ++ (tokensFrom fuel s' rest).map (·.kind) := by
  induction glue with
  | nil => exact fun s _ _ _ _ => ⟨s, rfl⟩
  | cons c glue ih =>
    intro s rest fuel hglue hcalm
    obtain ⟨hc, hrest⟩ := List.forall_mem_cons.1 hglue
    have hmark : ∀ {m : Mark}, m.isPlain = true → m.text.toList = [c] →
        glueKind? c = some (.mark m) →
        ∃ s', (tokensFrom (fuel + (c :: glue).length) s (c :: glue ++ rest)).map (·.kind)
          = (c :: glue).filterMap glueKind? ++ (tokensFrom fuel s' rest).map (·.kind) := by
      intro m hplain htext hkind
      obtain ⟨s', htokens⟩ := ih (s.after (.mark m)) rest fuel hrest (.inl (.after rfl))
      have hlook := look_plainMark s hplain (glue ++ rest)
      rw [htext] at hlook
      refine ⟨s', (tokensFrom_token hlook (fuel + glue.length)).trans ?_⟩
      rw [htokens, List.filterMap_cons, hkind, List.cons_append]
    obtain rfl | rfl | rfl | rfl | rfl := isGlue_cases hc
    · obtain ⟨s', htokens⟩ := ih s rest fuel hrest
        (hcalm.imp_right fun h hmem => h (List.mem_cons_of_mem _ hmem))
      refine ⟨s', ?_⟩
      rw [List.cons_append, List.length_cons, ← Nat.add_assoc, tokensFrom_skip (look_blank s _)]
      exact htokens
    · have hline : s.Calm := hcalm.resolve_right fun h => h (List.mem_cons_self ..)
      obtain ⟨s', htokens⟩ := ih (s.withGap .lineEnd) rest fuel hrest (.inl fun h => nomatch h.1)
      refine ⟨s', ?_⟩
      rw [List.cons_append, List.length_cons, ← Nat.add_assoc,
        tokensFrom_skip (look_line s hline _)]
      exact htokens
    · exact hmark (m := .semi) rfl rfl rfl
    · exact hmark (m := .lbrace) rfl rfl rfl
    · exact hmark (m := .rbrace) rfl rfl rfl

/-- What is asked of a style: literals keep their spelling, a group of marks writes the tokens of
the marks and nothing but blanks and line ends besides, and blanks keep words apart. -/
structure Style.Faithful (style : Style) : Prop where
  literal : ∀ text, style.literal (quote text) = quote text
  glue : ∀ around level marks, ∀ c ∈ (style.group around level marks).1.toList, isGlue c = true
  kinds : ∀ around level marks, (style.group around level marks).1.toList.filterMap glueKind?
    = marks.filterMap LayoutMark.kind?
  space : ∀ around level, (style.group around level [.space]).1 = " " ∨
    (style.group around level [.space]).1 = "" ∧ around.touching = false
  requiredSpace : ∀ around level, (style.group around level [.requiredSpace]).1 = " "

/-! ## Spaced streams -/

/-- The text may stand directly before the other one. -/
def mayTouch (text next : String) : Bool :=
  next.toList.head?.all (stops text)

/-- A text and the next one keep apart: the marks between them write a token or a blank, or they may
touch. No line ends after a jump. -/
def Parted (before : Option String) (marks : List LayoutMark) (next : String) : Prop :=
  ∀ text ∈ before, IsText text ∧
    if (textKind text).endsAtLine then marks = [.space] ∧ Around.touching ⟨text, next⟩
    else marks.any (·.kind?.isSome) ∨ marks = [.requiredSpace] ∨ mayTouch text next

/-- The texts of a stream keep apart, and the stream ends with a token that a mark writes. `before`
is the text before, and `marks` are the marks since, in reverse. A literal ends by itself, so that
it does not count as a text before another one. -/
def Spaced (before : Option String) (marks : List LayoutMark) : List Piece → Prop
  | [] => ∀ text ∈ before, IsText text ∧ (textKind text).endsAtLine = false ∧
      marks.any (·.kind?.isSome)
  | .mark m :: pieces => Spaced before (m :: marks) pieces
  | .text s :: pieces => IsText s ∧ Parted before marks s ∧ Spaced (some s) [] pieces
  | .literal s :: pieces => (∃ text, s = quote text) ∧ Parted before marks s ∧ Spaced none [] pieces

/-- A text comes behind what the group before it writes. -/
theorem toList_layOut_text (style : Style) (level : Nat) (shown : Option String)
    (marks : List LayoutMark) (text : String) (pieces : List Piece) :
    (style.layOut level shown marks (.text text :: pieces)).toList
      = (style.group ⟨shown, some text⟩ level marks.reverse).1.toList ++ (text.toList
        ++ (style.layOut (style.group ⟨shown, some text⟩ level marks.reverse).2 (some text) []
          pieces).toList) := by
  rw [Style.layOut, String.toList_append, String.toList_append, List.append_assoc]

theorem IsText.ne_nil {text : String} (h : IsText text) : text.toList ≠ [] := by
  obtain ⟨hword, -⟩ | ⟨d, -, htext⟩ | ⟨m, hm, rfl⟩ := h.cases
  · obtain ⟨c, cs, htext, -⟩ := hword.exists_cons
    rw [htext]
    exact List.cons_ne_nil _ _
  · rw [htext]
    exact List.cons_ne_nil _ _
  · have hall : ∀ m ∈ printedMarks, m.text.toList ≠ [] := by decide
    exact hall m hm

/-- The state behind a text allows a line end unless the text is a jump. -/
def CalmAfter (before : Option String) (s : LexState) : Prop :=
  (∀ text ∈ before, (textKind text).endsAtLine = false) → s.Calm

theorem Parted.calm {before : Option String} {marks : List LayoutMark} {next : String}
    {s : LexState} (h : Parted before marks next) (hs : CalmAfter before s) :
    s.Calm ∨ marks = [.space] := by
  cases before with
  | none => exact .inl (hs nofun)
  | some text =>
    obtain ⟨-, hparted⟩ := h text rfl
    split at hparted
    case isTrue => exact .inr hparted.1
    case isFalse hjump =>
      refine .inl (hs ?_)
      rintro _ ⟨⟩
      exact Bool.eq_false_iff.2 hjump

section
variable {style : Style} (hstyle : style.Faithful) {before : Option String}
  {marks : List LayoutMark} {next : String} {level : Nat}
include hstyle

theorem Style.Faithful.toList_layOut_literal (shown : Option String) (content : String)
    (pieces : List Piece) :
    (style.layOut level shown marks (.literal (quote content) :: pieces)).toList
      = (style.group ⟨shown, some (quote content)⟩ level marks.reverse).1.toList
        ++ ((quote content).toList
        ++ (style.layOut (style.group ⟨shown, some (quote content)⟩ level marks.reverse).2
          (some (quote content)) [] pieces).toList) := by
  rw [Style.layOut, hstyle.literal, String.toList_append, String.toList_append, List.append_assoc]

/-- A group with a token in it is not empty. -/
theorem Style.Faithful.group_ne_nil {around : Around} (h : marks.any (·.kind?.isSome) = true) :
    (style.group around level marks).1.toList ≠ [] := by
  intro hempty
  have hkinds := hstyle.kinds around level marks
  obtain ⟨m, hm, hsome⟩ := List.any_eq_true.1 h
  obtain ⟨kind, hkind⟩ := Option.isSome_iff_exists.1 hsome
  have hmem : kind ∈ marks.filterMap LayoutMark.kind? := List.mem_filterMap.2 ⟨m, hm, hkind⟩
  rw [← hkinds, hempty] at hmem
  cases hmem

/-- A text that keeps apart from the next one ends where the group between them begins, or the next
text if the group is empty. -/
theorem Style.Faithful.stops_group {text : String} (h : Parted (some text) marks next)
    (hnext : next.toList ≠ []) (rest : List Char) :
    ∃ c cs, (style.group ⟨some text, some next⟩ level marks.reverse).1.toList
      ++ (next.toList ++ rest) = c :: cs ∧ stops text c = true := by
  obtain ⟨htext, hparted⟩ := h text rfl
  have hglue := hstyle.glue ⟨some text, some next⟩ level marks.reverse
  cases hwritten : (style.group ⟨some text, some next⟩ level marks.reverse).1.toList with
  | cons c cs =>
    rw [hwritten] at hglue
    exact ⟨c, cs ++ (next.toList ++ rest), rfl, stops_glue htext (hglue c (List.mem_cons_self ..))⟩
  | nil =>
    obtain ⟨c, cs, hchars⟩ := List.exists_cons_of_ne_nil hnext
    refine ⟨c, cs ++ rest, by rw [hchars]; rfl, ?_⟩
    split at hparted
    case isTrue =>
      obtain ⟨hmarks, htouching⟩ := hparted
      rw [hmarks, List.reverse_singleton] at hwritten
      obtain hblank | ⟨-, hfree⟩ := hstyle.space ⟨some text, some next⟩ level
      · rw [hblank] at hwritten
        cases hwritten
      · exact absurd htouching (by rw [hfree]; exact Bool.false_ne_true)
    case isFalse =>
      obtain htoken | hmarks | htouch := hparted
      · exact absurd hwritten (hstyle.group_ne_nil (by rw [List.any_reverse]; exact htoken))
      · rw [hmarks, List.reverse_singleton, hstyle.requiredSpace] at hwritten
        cases hwritten
      · rw [mayTouch, hchars] at htouch
        exact htouch

/-- The text before ends where the rest of the stream begins. -/
theorem Style.Faithful.stops_layOut {text : String} {pieces : List Piece} :
    ∀ {marks : List LayoutMark}, Spaced (some text) marks pieces →
    ∃ c cs, (style.layOut level (some text) marks pieces).toList = c :: cs ∧
      stops text c = true := by
  induction pieces with
  | nil =>
    intro marks h
    obtain ⟨htext, -, htoken⟩ := h text rfl
    have hreverse : marks.reverse.any (·.kind?.isSome) = true := by
      rw [List.any_reverse]
      exact htoken
    have hwritten : (style.group ⟨some text, none⟩ level marks.reverse).1.toList ≠ [] :=
      hstyle.group_ne_nil hreverse
    obtain ⟨c, cs, hchars⟩ := List.exists_cons_of_ne_nil hwritten
    have hglue := hstyle.glue ⟨some text, none⟩ level marks.reverse c
      (by rw [hchars]; exact List.mem_cons_self ..)
    exact ⟨c, cs, hchars, stops_glue htext hglue⟩
  | cons piece pieces ih =>
    intro marks h
    cases piece with
    | mark m => exact ih h
    | text s =>
      obtain ⟨hs, hparted, -⟩ := h
      rw [toList_layOut_text]
      exact hstyle.stops_group hparted hs.ne_nil _
    | literal s =>
      obtain ⟨⟨content, rfl⟩, hparted, -⟩ := h
      rw [hstyle.toList_layOut_literal]
      exact hstyle.stops_group hparted (by simp [quote, quotedChars]) _

/-- A group between two texts is lexed to the tokens of its marks. -/
theorem Style.Faithful.tokensFrom_group {around : Around} {s : LexState}
    (hcalm : s.Calm ∨ marks = [.space]) (rest : List Char) (fuel : Nat) :
    ∃ s', (tokensFrom (fuel + (style.group around level marks.reverse).1.toList.length) s
        ((style.group around level marks.reverse).1.toList ++ rest)).map (·.kind)
      = marks.reverse.filterMap LayoutMark.kind? ++ (tokensFrom fuel s' rest).map (·.kind) := by
  rw [← hstyle.kinds around level marks.reverse]
  refine tokensFrom_glue _ s rest fuel (hstyle.glue around level marks.reverse) (hcalm.imp_right ?_)
  rintro rfl
  obtain hblank | ⟨hempty, -⟩ := hstyle.space around level
  · rw [List.reverse_singleton, hblank]
    decide
  · rw [List.reverse_singleton, hempty]
    decide

/-- A group and the token behind it. -/
theorem Style.Faithful.tokensFrom_group_token {around : Around} {s : LexState} {kind : TokenKind}
    (hcalm : s.Calm ∨ marks = [.space]) {chars rest : List Char} {fuel : Nat}
    (hlook : ∀ s : LexState, s.look (chars ++ rest) = .token kind none rest)
    (hchars : chars ≠ [])
    (hfuel : (style.group around level marks.reverse).1.toList.length
      + (chars.length + rest.length) < fuel) :
    ∃ s' fuel', rest.length < fuel' ∧
      (tokensFrom fuel s ((style.group around level marks.reverse).1.toList
        ++ (chars ++ rest))).map (·.kind)
      = marks.reverse.filterMap LayoutMark.kind?
        ++ kind :: (tokensFrom fuel' (LexState.after s' kind) rest).map (·.kind) := by
  have hlength := List.length_pos_iff.2 hchars
  obtain ⟨fuel', rfl⟩ : ∃ fuel', fuel = fuel' + 1
      + (style.group around level marks.reverse).1.toList.length :=
    ⟨fuel - (style.group around level marks.reverse).1.toList.length - 1, by omega⟩
  obtain ⟨s', htokens⟩ := hstyle.tokensFrom_group hcalm (chars ++ rest) (fuel' + 1)
  refine ⟨s', fuel', by omega, ?_⟩
  rw [htokens, tokensFrom_token (hlook s')]

/-- The tokens of a spaced stream are those of its pieces, whatever the style. -/
theorem Style.Faithful.tokensFrom_layOut (pieces : List Piece) :
    ∀ {level : Nat} {before shown : Option String} {marks : List LayoutMark} {s : LexState}
      {fuel : Nat}, Spaced before marks pieces → CalmAfter before s →
      (style.layOut level shown marks pieces).toList.length < fuel →
      (tokensFrom fuel s (style.layOut level shown marks pieces).toList).map (·.kind)
        = marks.reverse.filterMap LayoutMark.kind? ++ pieceKinds pieces ++ [TokenKind.eof] := by
  induction pieces with
  | nil =>
    intro level before shown marks s fuel hspaced hcalm hfuel
    have hend : (style.layOut level shown marks []).toList
        = (style.group ⟨shown, none⟩ level marks.reverse).1.toList ++ [] := by
      rw [Style.layOut, List.append_nil]
    rw [hend] at hfuel ⊢
    rw [List.append_nil] at hfuel
    obtain ⟨fuel', rfl⟩ : ∃ fuel', fuel = fuel' + 1
        + (style.group ⟨shown, none⟩ level marks.reverse).1.toList.length :=
      ⟨fuel - (style.group ⟨shown, none⟩ level marks.reverse).1.toList.length - 1, by omega⟩
    have hline : s.Calm := hcalm fun text htext => (hspaced text htext).2.1
    obtain ⟨s', htokens⟩ := hstyle.tokensFrom_group (.inl hline) [] (fuel' + 1)
    rw [htokens, pieceKinds_nil, List.append_nil]
    rfl
  | cons piece pieces ih =>
    intro level before shown marks s fuel hspaced hcalm hfuel
    cases piece with
    | mark m =>
      have hpieces : Spaced before (m :: marks) pieces := hspaced
      have hrest := ih hpieces hcalm hfuel
      rw [Style.layOut, hrest, List.reverse_cons, List.filterMap_append]
      cases hkind : m.kind? <;> simp [hkind]
    | text text =>
      obtain ⟨htext, hparted, hpieces⟩ := hspaced
      rw [toList_layOut_text] at hfuel ⊢
      simp only [List.length_append] at hfuel
      have hlook : ∀ s : LexState, s.look (text.toList ++ (style.layOut
          (style.group ⟨shown, some text⟩ level marks.reverse).2 (some text) [] pieces).toList)
          = .token (textKind text) none (style.layOut
            (style.group ⟨shown, some text⟩ level marks.reverse).2
              (some text) [] pieces).toList := by
        intro s
        obtain ⟨c, cs, hchars, hc⟩ := hstyle.stops_layOut hpieces
        rw [hchars]
        exact look_text s htext hc cs
      obtain ⟨s', fuel', hrest, htokens⟩ := hstyle.tokensFrom_group_token (hparted.calm hcalm)
        hlook htext.ne_nil hfuel
      rw [htokens, ih hpieces (fun hjump => .after (hjump text rfl)) hrest]
      simp
    | literal text =>
      obtain ⟨⟨content, rfl⟩, hparted, hpieces⟩ := hspaced
      rw [hstyle.toList_layOut_literal] at hfuel ⊢
      simp only [List.length_append] at hfuel
      obtain ⟨s', fuel', hrest, htokens⟩ := hstyle.tokensFrom_group_token (hparted.calm hcalm)
        (fun s => look_literal s content _) (by simp [quote, quotedChars]) hfuel
      rw [htokens, ih hpieces (fun _ => .after rfl) hrest]
      simp

/-- A group writes at least one character for each of its tokens. -/
theorem Style.Faithful.length_group (around : Around) (level : Nat) (marks : List LayoutMark) :
    (marks.filterMap LayoutMark.kind?).length
      ≤ (style.group around level marks).1.toList.length := by
  rw [← hstyle.kinds around level marks]
  exact List.length_filterMap_le _ _

/-- There are no more tokens than characters. -/
theorem Style.Faithful.length_layOut (pieces : List Piece) :
    ∀ {level : Nat} {before shown : Option String} {marks : List LayoutMark},
      Spaced before marks pieces →
      (marks.reverse.filterMap LayoutMark.kind?).length + (pieceKinds pieces).length
        ≤ (style.layOut level shown marks pieces).toList.length := by
  induction pieces with
  | nil =>
    intro level before shown marks _
    exact hstyle.length_group ⟨shown, none⟩ level marks.reverse
  | cons piece pieces ih =>
    intro level before shown marks hspaced
    cases piece with
    | mark m =>
      have hpieces : Spaced before (m :: marks) pieces := hspaced
      refine Nat.le_trans (Nat.le_of_eq ?_) (ih hpieces)
      rw [List.reverse_cons, List.filterMap_append, pieceKinds_mark]
      cases hkind : m.kind? <;> simp [hkind]
      omega
    | text text =>
      obtain ⟨htext, -, hpieces⟩ := hspaced
      have hgroup := hstyle.length_group ⟨shown, some text⟩ level marks.reverse
      have hpos := List.length_pos_iff.2 htext.ne_nil
      have hrest : _ ≤ (style.layOut (style.group ⟨shown, some text⟩ level marks.reverse).2
        (some text) [] pieces).toList.length := ih hpieces
      rw [toList_layOut_text]
      simp only [List.length_append, pieceKinds_text, List.length_cons, List.reverse_nil,
        List.filterMap_nil, List.length_nil] at hrest ⊢
      omega
    | literal text =>
      obtain ⟨⟨content, rfl⟩, -, hpieces⟩ := hspaced
      have hgroup := hstyle.length_group ⟨shown, some (quote content)⟩ level marks.reverse
      have hpos : 0 < (quote content).toList.length := by simp [quote, quotedChars]
      have hrest : _ ≤ (style.layOut (style.group ⟨shown, some (quote content)⟩ level
        marks.reverse).2 (some (quote content)) [] pieces).toList.length := ih hpieces
      rw [hstyle.toList_layOut_literal]
      simp only [List.length_append, pieceKinds_literal, List.length_cons, List.reverse_nil,
        List.filterMap_nil, List.length_nil] at hrest ⊢
      omega

/-- A printed stream has no more tokens than characters. -/
theorem Style.Faithful.length_print {pieces : List Piece} (h : Spaced none [] pieces) :
    (pieceKinds pieces).length ≤ (style.print pieces).length := by
  have hlength : _ ≤ (style.print pieces).toList.length := hstyle.length_layOut pieces h
  rw [String.length_toList] at hlength
  simpa using hlength

/-- The tokens of a printed stream. -/
theorem Style.Faithful.tokenize_print {pieces : List Piece} (h : Spaced none [] pieces) :
    (tokenize (style.print pieces)).map (·.kind) = pieceKinds pieces ++ [TokenKind.eof] := by
  have hcalm : CalmAfter none {} := fun _ hjump => Bool.false_ne_true hjump.2
  rw [tokenize, LexState.tokens, Style.print, hstyle.tokensFrom_layOut pieces h hcalm
    (Nat.lt_succ_self _)]
  rfl

end

/-! ## The styles -/

/-- The token that an action writes. -/
def Action.kind? : Action → Option TokenKind
  | .mark m => m.kind?
  | .semicolon => some (.mark .semi)
  | .brace => some (.mark .lbrace)
  | .nothing => none

/-- Joined marks write the tokens of the marks. -/
theorem Pretty.kinds_push (stack : List Action) (m : LayoutMark) :
    (Pretty.push stack m).reverse.filterMap Action.kind?
      = stack.reverse.filterMap Action.kind? ++ m.kind?.toList := by
  unfold Pretty.push
  split
  case h_5 => cases hkind : m.kind? <;> simp [Action.kind?, hkind]
  all_goals simp [List.filterMap_cons, Action.kind?, LayoutMark.kind?]

theorem Minified.kinds_push (stack : List Action) (m : LayoutMark) :
    (Minified.push stack m).reverse.filterMap Action.kind?
      = stack.reverse.filterMap Action.kind? ++ m.kind?.toList := by
  unfold Minified.push
  split
  case h_9 => cases hkind : m.kind? <;> simp [Action.kind?, hkind]
  all_goals simp [List.filterMap_cons, Action.kind?, LayoutMark.kind?]

/-- The actions of a group write its tokens, if each mark is put on the stack with its token. -/
theorem kinds_actions {push : List Action → LayoutMark → List Action}
    (hpush : ∀ stack m, (push stack m).reverse.filterMap Action.kind?
      = stack.reverse.filterMap Action.kind? ++ m.kind?.toList) (marks : List LayoutMark) :
    ∀ stack, (marks.foldl push stack).reverse.filterMap Action.kind?
      = stack.reverse.filterMap Action.kind? ++ marks.filterMap LayoutMark.kind? := by
  induction marks with
  | nil => intro stack; simp
  | cons m marks ih =>
    intro stack
    rw [List.foldl_cons, ih, hpush, List.append_assoc]
    cases hkind : m.kind? <;> simp [hkind]

/-- The text is glue that writes these tokens. -/
structure Glues (text : String) (kinds : List TokenKind) : Prop where
  glue : ∀ c ∈ text.toList, isGlue c = true
  kinds : text.toList.filterMap glueKind? = kinds

theorem Glues.empty : Glues "" [] := ⟨nofun, rfl⟩

theorem Glues.append {a b : String} {x y : List TokenKind} (ha : Glues a x) (hb : Glues b y) :
    Glues (a ++ b) (x ++ y) where
  glue := by
    rw [String.toList_append]
    exact List.forall_mem_append.2 ⟨ha.glue, hb.glue⟩
  kinds := by rw [String.toList_append, List.filterMap_append, ha.kinds, hb.kinds]

theorem Glues.indentation (width level : Nat) : Glues (Pretty.indentation width level) [] where
  glue := by
    intro c hc
    rw [Pretty.indentation, String.toList_ofList] at hc
    rw [(List.mem_replicate.1 hc).2]
    decide
  kinds := by
    rw [Pretty.indentation, String.toList_ofList, List.filterMap_eq_nil_iff]
    intro c hc
    rw [(List.mem_replicate.1 hc).2]
    decide

theorem Glues.newline : Glues "\n" [] :=
  ⟨List.all_eq_true.1 (by decide), by decide⟩

theorem Glues.blank : Glues " " [] :=
  ⟨List.all_eq_true.1 (by decide), by decide⟩

theorem Glues.semicolon : Glues ";" [.mark .semi] :=
  ⟨List.all_eq_true.1 (by decide), by decide⟩

theorem Glues.lbrace : Glues "\x7b" [.mark .lbrace] :=
  ⟨List.all_eq_true.1 (by decide), by decide⟩

theorem Glues.rbrace : Glues "\x7d" [.mark .rbrace] :=
  ⟨List.all_eq_true.1 (by decide), by decide⟩

theorem Pretty.glues_optionalBlank (around : Around) : Glues (Pretty.optionalBlank around) [] := by
  unfold Pretty.optionalBlank
  split
  · exact .blank
  · exact .empty

theorem Pretty.glues_headBlank (around : Around) : Glues (Pretty.headBlank around) [] := by
  unfold Pretty.headBlank
  split
  · split
    · exact Pretty.glues_optionalBlank around
    · exact .blank
  · exact .empty

theorem Pretty.glues_optionalBreak (around : Around) (previous : String) (width level : Nat) :
    Glues (Pretty.optionalBreak around previous (Pretty.indentation width level)) [] := by
  unfold Pretty.optionalBreak
  split
  · exact .empty
  · split
    · exact .indentation width level
    · exact Glues.newline.append (.indentation width level)

/-- An action of the pretty style writes its token. -/
theorem Pretty.glues_act (width : Nat) (around : Around) (level : Nat) (previous : String)
    (action : Action) :
    Glues (Pretty.act width around level previous action).1 action.kind?.toList := by
  cases action with
  | semicolon => exact .semicolon
  | brace => exact .lbrace
  | nothing => exact .empty
  | mark m =>
    cases m with
    | space | requiredSpace => exact .blank
    | optionalSpace => exact Pretty.glues_optionalBlank around
    | headSpace => exact Pretty.glues_headBlank around
    | newline => exact Glues.newline.append (.indentation width level)
    | optionalNewline => exact Pretty.glues_optionalBreak around previous width level
    | indent | dedent => exact .empty
    | openBlock => exact .lbrace
    | closeBlock => exact .rbrace
    | endStatement => exact .semicolon

theorem filterMap_kind?_cons (action : Action) (actions : List Action) :
    (action :: actions).filterMap Action.kind?
      = action.kind?.toList ++ actions.filterMap Action.kind? := by
  cases hkind : action.kind? <;> simp [hkind]

theorem Pretty.glues_run (width : Nat) (around : Around) (actions : List Action) :
    ∀ (level : Nat) (previous : String),
      Glues (Pretty.run width around level previous actions).1
        (actions.filterMap Action.kind?) := by
  induction actions with
  | nil => exact fun _ _ => .empty
  | cons action actions ih =>
    intro level previous
    rw [filterMap_kind?_cons]
    exact (Pretty.glues_act width around level previous action).append (ih _ _)

theorem Minified.glues_act (around : Around) (action : Action) :
    Glues (Minified.act around action) action.kind?.toList := by
  have hblank : Glues (if around.touching then " " else "") [] := by
    split
    · exact .blank
    · exact .empty
  cases action with
  | semicolon => exact .semicolon
  | brace => exact .lbrace
  | nothing => exact .empty
  | mark m =>
    cases m with
    | space | optionalSpace | headSpace => exact hblank
    | requiredSpace => exact .blank
    | openBlock => exact .lbrace
    | closeBlock => exact .rbrace
    | endStatement => exact .semicolon
    | newline | optionalNewline | indent | dedent => exact .empty

theorem Minified.glues_actions (around : Around) (actions : List Action) :
    Glues (String.join (actions.map (Minified.act around))) (actions.filterMap Action.kind?) := by
  induction actions with
  | nil => exact .empty
  | cons action actions ih =>
    rw [List.map_cons, String.join_cons, filterMap_kind?_cons]
    exact (Minified.glues_act around action).append ih

/-- The pretty style keeps to the tokens, whatever its width. -/
theorem faithful_pretty (width : Nat) : (Style.pretty width).Faithful where
  literal _ := rfl
  glue around level marks := (Pretty.glues_run _ around (Pretty.actions marks) level "").glue
  kinds around level marks :=
    (Pretty.glues_run _ around (Pretty.actions marks) level "").kinds.trans
      (kinds_actions Pretty.kinds_push marks [])
  space _ _ := .inl rfl
  requiredSpace _ _ := rfl

/-! ## Literals without line ends -/

theorem joinLines_char {c : Char} (h : c ≠ '\x5c') (rest : List Char) :
    Minified.joinLines (c :: rest) = c :: Minified.joinLines rest := by
  rw [Minified.joinLines]
  all_goals
    intros
    simp_all

theorem joinLines_escape {c : Char} (h : endsLine c = false) (rest : List Char) :
    Minified.joinLines ('\x5c' :: c :: rest) = '\x5c' :: c :: Minified.joinLines rest := by
  have hcr : c ≠ '\r' := by
    rintro rfl
    cases h
  rw [Minified.joinLines, h]
  · rfl
  · intros
    simp_all

theorem hexDigit_ne_backslash {n : Nat} (h : n < 16) : hexDigit n ≠ '\x5c' := by
  have hall : ∀ n < 16, hexDigit n ≠ '\x5c' := by decide
  exact hall n h

/-- A quoted character continues no line. -/
theorem joinLines_quotedChar (c : Char) (rest : List Char) :
    Minified.joinLines (quotedChar c ++ rest) = quotedChar c ++ Minified.joinLines rest := by
  have hcode :
      Minified.joinLines (codeEscape c ++ rest) = codeEscape c ++ Minified.joinLines rest := by
    have hdigit : ∀ width, hexDigit (c.toNat / Nat.pow 16 width % 16) ≠ '\x5c' :=
      fun width => hexDigit_ne_backslash (Nat.mod_lt _ (by decide))
    simp only [codeEscape, hexDigits, List.cons_append, List.nil_append]
    rw [joinLines_escape (by decide), joinLines_char (hdigit _), joinLines_char (hdigit _),
      joinLines_char (hdigit _), joinLines_char (hdigit _)]
  have hletter : ∀ p ∈ shortEscapes, endsLine p.2 = false := by decide
  rcases quotedChar_cases c with ⟨d, hshort, hc⟩ | ⟨-, hc⟩ | ⟨⟨-, hslash, -⟩, hc⟩
  · rw [hc]
    exact joinLines_escape (hletter _ hshort) rest
  · rw [hc]
    exact hcode
  · rw [hc]
    exact joinLines_char hslash rest

theorem joinLines_quotedChars (cs rest : List Char) :
    Minified.joinLines (cs.flatMap quotedChar ++ rest)
      = cs.flatMap quotedChar ++ Minified.joinLines rest := by
  induction cs with
  | nil => rfl
  | cons c cs ih =>
    rw [List.flatMap_cons, List.append_assoc, joinLines_quotedChar, ih, List.append_assoc]

/-- The minified style keeps to the tokens. -/
theorem faithful_minified : Style.minified.Faithful where
  literal text := by
    have hchars : Minified.joinLines (quotedChars text.toList) = quotedChars text.toList := by
      rw [quotedChars, joinLines_char (by decide), joinLines_quotedChars]
      rfl
    show String.ofList (Minified.joinLines (quote text).toList) = quote text
    rw [quote, String.toList_ofList, hchars]
  glue around _ marks := (Minified.glues_actions around (Minified.actions marks)).glue
  kinds around _ marks :=
    (Minified.glues_actions around (Minified.actions marks)).kinds.trans
      (kinds_actions Minified.kinds_push marks [])
  space around _ := by
    by_cases htouching : around.touching = true
    · exact .inl (if_pos htouching)
    · exact .inr ⟨if_neg htouching, Bool.eq_false_iff.2 htouching⟩
  requiredSpace _ _ := rfl

end Espalier.Script
