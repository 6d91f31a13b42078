import Espalier.Proofs.Script.Transitions
import Espalier.Proofs.Script.Printing

/-!
# What stands beside what in a stream

The stream of a program holds one text for each token, apart from the braces and semicolons that
layout marks write. `Seam` lists the tokens and marks that meet there: what an expression may finish
with before the marks that go on, operators before operands, words before what they introduce.
`Laid` says that a stream writes these tokens with nothing but such seams between its texts. Main
statement: `laid_programPieces`, by which this holds of every program of the grammar.
-/

namespace Espalier.Script

open Reader (bracedKinds paramKinds moreNameKinds)

/-! ## Tokens as texts -/

/-- The text that a token is written as. -/
def TokenKind.text : TokenKind → String
  | .name id => id
  | .keyword word => word.text
  | .mark m => m.text
  | .number text | .string text | .regex text => text
  | .getter => "get"
  | .setter => "set"
  | .lineSemi | .eof | .invalid => ""

/-- The piece that writes a token. -/
def TokenKind.piece : TokenKind → Piece
  | .string text => .literal text
  | kind => .text kind.text

/-- The token is a word. -/
def TokenKind.isWord : TokenKind → Bool
  | .name _ | .keyword _ => true
  | _ => false

/-- The token introduces an accessor. -/
def TokenKind.isAccessor : TokenKind → Bool
  | .getter | .setter => true
  | _ => false

/-- An expression may finish with the token. The name of a field is any word. -/
def TokenKind.finishesExpr : TokenKind → Bool
  | .name _ | .keyword _ | .number _ | .string _ | .regex _ => true
  | .mark .rparen | .mark .rbracket | .mark .rbrace | .mark .increment | .mark .decrement => true
  | _ => false

/-- A statement may begin with the token. -/
def TokenKind.startsStmt (kind : TokenKind) : Bool :=
  kind.startsExpr || kind.isWord

/-- No other mark begins with this one. -/
def Mark.standsAlone : Mark → Bool
  | .lparen | .rparen | .lbrace | .rbrace | .lbracket | .rbracket | .semi | .comma | .question
  | .colon | .increment | .decrement | .bitNot => true
  | _ => false

/-- The token ends whatever comes behind it, and a line may end there. -/
def TokenKind.isOpen : TokenKind → Bool
  | .mark m => m.standsAlone && m != .rparen
  | _ => false

section
variable {kind : TokenKind}

theorem TokenKind.isWord_wordToken (word : String) : (wordToken word).isWord = true := by
  obtain ⟨keyword, heq⟩ | heq := wordToken_cases word <;> rw [heq] <;> rfl

theorem TokenKind.text_wordToken (word : String) : (wordToken word).text = word := by
  cases hword : Keyword.ofText? word with
  | none => simp only [wordToken, hword, text]
  | some keyword =>
    simp only [wordToken, hword, text]
    exact Reader.text_of_ofText? hword

theorem TokenKind.piece_wordToken (word : String) : (wordToken word).piece = .text word := by
  have htext := text_wordToken word
  obtain ⟨keyword, heq⟩ | heq := wordToken_cases word
  all_goals
    rw [heq] at htext ⊢
    exact congrArg Piece.text htext

theorem TokenKind.finishesExpr_of_isWord (h : kind.isWord = true) : kind.finishesExpr = true := by
  cases kind with
  | name | keyword => rfl
  | _ => cases h

theorem TokenKind.not_isAccessor_of_finishesExpr (h : kind.finishesExpr = true) :
    kind.isAccessor = false := by
  cases kind with
  | getter | setter => cases h
  | _ => rfl

end

/-! ## Seams -/

/-- A group of marks may follow the token if the group writes a token itself: a line does not end
directly behind a jump. The marks are in reverse. -/
structure Ready (kind : TokenKind) (marks : List LayoutMark) : Prop where
  plain : kind.isAccessor = false
  jump : kind.endsAtLine = true → marks.getLast? = some .endStatement

/-- The group writes a blank where texts would run together. -/
def IsBlank (marks : List LayoutMark) : Prop :=
  marks = [.space] ∨ marks = [.optionalSpace]

/-- A token, the marks behind it in reverse, and the next token. -/
inductive Seam : TokenKind → List LayoutMark → TokenKind → Prop
  /-- Behind a mark that stands alone. -/
  | alone {kind next : TokenKind} {marks : List LayoutMark} (h : kind.isOpen = true) :
      Seam kind marks next
  /-- Around a brace or a semicolon that the marks write. -/
  | group {kind next : TokenKind} {marks : List LayoutMark}
      (token : marks.any (·.kind?.isSome) = true) (ready : Ready kind marks) : Seam kind marks next
  | required {kind next : TokenKind} (h : kind.finishesExpr = true) :
      Seam kind [.requiredSpace] next
  | accessor {kind next : TokenKind} (h : kind.isAccessor = true) (word : next.isWord = true) :
      Seam kind [.requiredSpace] next
  /-- Behind a parenthesis, which may end the head of a statement. -/
  | paren {next : TokenKind} {marks : List LayoutMark}
      (h : marks = [] ∨ marks = [.space] ∨ marks = [.headSpace]) : Seam (.mark .rparen) marks next
  /-- A mark behind an expression or a word. -/
  | behind {kind : TokenKind} {m : Mark} {marks : List LayoutMark} (h : kind.finishesExpr = true)
      (hmarks : marks = [] ∨ IsBlank marks) : Seam kind marks (.mark m)
  /-- The end of an object. -/
  | close {kind : TokenKind} (h : kind.finishesExpr = true) :
      Seam kind [.newline, .dedent] (.mark .rbrace)
  | field {next : TokenKind} (word : next.isWord = true) : Seam (.mark .dot) [] next
  | operator {kind : TokenKind} {op : BinaryOp} (h : kind.finishesExpr = true) :
      Seam kind [.space] op.kind
  /-- An operand behind the mark of an operator. -/
  | operand {m : Mark} {next : TokenKind} {marks : List LayoutMark} (hdot : m ≠ .dot)
      (hmarks : marks = [.space] ∨ marks = [.optionalSpace] ∧ m ≠ .binary .div)
      (h : next.startsExpr = true) : Seam (.mark m) marks next
  /-- What a word introduces. -/
  | word {word : Keyword} {next : TokenKind} {marks : List LayoutMark} (hmarks : IsBlank marks)
      (h : next.startsStmt = true) : Seam (.keyword word) marks next

/-- The token may come next. Before the first token there is no seam. -/
def Fits (before : Option TokenKind) (marks : List LayoutMark) (next : TokenKind) : Prop :=
  ∀ kind ∈ before, Seam kind marks next

/-- Anything may come next, and lines may end. -/
def Cleared (before : Option TokenKind) (marks : List LayoutMark) : Prop :=
  ∀ kind ∈ before, Ready kind marks ∧ (kind.isOpen = true ∨ marks.any (·.kind?.isSome) = true)

/-- The stream writes these tokens. `before` is the token of the text before, and `marks` are the
marks since, in reverse. -/
inductive Laid : Option TokenKind → List LayoutMark → List Piece → List TokenKind → Prop
  | nil {before : Option TokenKind} {marks : List LayoutMark} (h : Cleared before marks) :
      Laid before marks [] []
  | mark {before : Option TokenKind} {marks : List LayoutMark} {m : LayoutMark}
      {pieces : List Piece} {ks : List TokenKind} (h : m.kind? = none)
      (rest : Laid before (m :: marks) pieces ks) : Laid before marks (.mark m :: pieces) ks
  | token {before : Option TokenKind} {marks : List LayoutMark} {m : LayoutMark} {kind : TokenKind}
      {pieces : List Piece} {ks : List TokenKind} (h : m.kind? = some kind)
      (rest : Laid before (m :: marks) pieces ks) :
      Laid before marks (.mark m :: pieces) (kind :: ks)
  | text {before : Option TokenKind} {marks : List LayoutMark} {kind : TokenKind} {piece : Piece}
      {pieces : List Piece} {ks : List TokenKind} (h : kind.piece = piece)
      (seam : Fits before marks kind) (rest : Laid (some kind) [] pieces ks) :
      Laid before marks (piece :: pieces) (kind :: ks)
  /-- A run of commas in one text. -/
  | commas {before : Option TokenKind} {marks : List LayoutMark} {count : Nat}
      {pieces : List Piece} {ks : List TokenKind} (seam : Fits before marks (.mark .comma))
      (rest : Laid (some (.mark .comma)) [] pieces ks) :
      Laid before marks (.text (String.ofList (List.replicate (count + 1) ',')) :: pieces)
        (List.replicate (count + 1) (.mark .comma) ++ ks)
  /-- The variable of a loop over a collection, with the word before it in one text. -/
  | declared {before : Option TokenKind} {marks : List LayoutMark} {name : String}
      {pieces : List Piece} {ks : List TokenKind} (seam : Fits before marks (.keyword .var))
      (rest : Laid (some (.name name)) [] pieces ks) :
      Laid before marks (.text "var " :: .text name :: pieces)
        (.keyword .var :: .name name :: ks)

section
variable {before : Option TokenKind} {marks : List LayoutMark} {kind : TokenKind}

theorem Ready.mark (h : Ready kind marks) (m : LayoutMark) : Ready kind (m :: marks) where
  plain := h.plain
  jump hjump := by
    have hlast := h.jump hjump
    rw [List.getLast?_cons, hlast]
    rfl

theorem Cleared.mark (h : Cleared before marks) (m : LayoutMark) : Cleared before (m :: marks) := by
  intro kind hkind
  obtain ⟨hready, hopen⟩ := h kind hkind
  refine ⟨hready.mark m, hopen.imp_right fun htoken => ?_⟩
  rw [List.any_cons, htoken, Bool.or_true]

theorem Cleared.fits (h : Cleared before marks) (next : TokenKind) : Fits before marks next := by
  intro kind hkind
  obtain ⟨hready, hopen | htoken⟩ := h kind hkind
  · exact .alone hopen
  · exact .group htoken hready

theorem cleared_none : Cleared none marks := nofun

theorem ready_of_isOpen (h : kind.isOpen = true) : Ready kind marks where
  plain := by
    cases kind with
    | getter | setter => cases h
    | _ => rfl
  jump hjump := by
    cases kind with
    | mark => cases hjump
    | _ => cases h

theorem cleared_of_isOpen (h : kind.isOpen = true) : Cleared (some kind) marks := by
  rintro _ ⟨⟩
  exact ⟨ready_of_isOpen h, .inl h⟩

theorem fits_of_isOpen (h : kind.isOpen = true) (next : TokenKind) :
    Fits (some kind) marks next :=
  (cleared_of_isOpen h).fits next

theorem fits_some {next : TokenKind} (h : Seam kind marks next) : Fits (some kind) marks next := by
  rintro _ ⟨⟩
  exact h

/-- A mark that writes a token clears everything, unless a line could end behind a jump. -/
theorem cleared_token {m : LayoutMark} (h : ∀ kind ∈ before, Ready kind (m :: marks))
    (hm : m.kind?.isSome = true) : Cleared before (m :: marks) := by
  intro kind hkind
  refine ⟨h kind hkind, .inr ?_⟩
  rw [List.any_cons, hm, Bool.true_or]

end

/-! ## Behind expressions -/

/-- What comes next may follow every expression. -/
structure Continues (pieces : List Piece) (ks : List TokenKind) : Prop where
  last : ∀ kind : TokenKind, kind.finishesExpr = true → Laid (some kind) [] pieces ks
  /-- Behind the brace that ends a function. -/
  block : ∀ before marks, Cleared before marks → Laid before marks pieces ks

section
variable {pieces : List Piece} {ks : List TokenKind}

theorem continues_mark (m : Mark) (h : Laid (some (.mark m)) [] pieces ks) :
    Continues (.text m.text :: pieces) (.mark m :: ks) where
  last _ hkind := .text rfl (fits_some (.behind hkind (.inl rfl))) h
  block _ _ hcleared := .text rfl (hcleared.fits _) h

theorem continues_spacedMark {m : LayoutMark} (hm : IsBlank [m]) (mark : Mark)
    (h : Laid (some (.mark mark)) [] pieces ks) :
    Continues (.mark m :: .text mark.text :: pieces) (.mark mark :: ks) where
  last _ hkind := by
    refine .mark ?_ (.text rfl (fits_some (.behind hkind (.inr hm))) h)
    obtain hm | hm := hm <;> cases hm <;> rfl
  block _ _ hcleared := by
    refine .mark ?_ (.text rfl ((hcleared.mark m).fits _) h)
    obtain hm | hm := hm <;> cases hm <;> rfl

theorem BinaryOp.piece_kind (op : BinaryOp) : op.kind.piece = .text op.text := by
  cases op <;> rfl

theorem continues_operator (op : BinaryOp) (h : Laid (some op.kind) [] pieces ks) :
    Continues (.mark .space :: .text op.text :: pieces) (op.kind :: ks) where
  last _ hkind := .mark rfl (.text op.piece_kind (fits_some (.operator hkind)) h)
  block _ _ hcleared := .mark rfl (.text op.piece_kind ((hcleared.mark _).fits _) h)

theorem continues_in (h : Laid (some (.keyword .in)) [] pieces ks) :
    Continues (.mark .requiredSpace :: .text "in" :: pieces) (.keyword .in :: ks) where
  last _ hkind := .mark rfl (.text rfl (fits_some (.required hkind)) h)
  block _ _ hcleared := .mark rfl (.text rfl ((hcleared.mark _).fits _) h)

theorem continues_endStatement
    (h : ∀ before marks, Cleared before marks → Laid before marks pieces ks) :
    Continues (.mark .endStatement :: pieces) (.mark .semi :: ks) where
  last kind hkind := by
    refine .token rfl (h _ _ (cleared_token ?_ rfl))
    rintro _ ⟨⟩
    exact ⟨kind.not_isAccessor_of_finishesExpr hkind, fun _ => rfl⟩
  block _ _ hcleared := .token rfl (h _ _ (hcleared.mark _))

/-- The line end and the brace that end an object. -/
theorem continues_close (h : Laid (some (.mark .rbrace)) [] pieces ks) :
    Continues (.mark .dedent :: .mark .newline :: .text "\x7d" :: pieces)
      (.mark .rbrace :: ks) where
  last _ hkind := .mark rfl (.mark rfl (.text rfl (fits_some (.close hkind)) h))
  block _ _ hcleared :=
    .mark rfl (.mark rfl (.text rfl (((hcleared.mark _).mark _).fits _) h))

end

/-! ## Parts of trees -/

/-- A statement may begin behind the marks. -/
structure Opens (before : Option TokenKind) (marks : List LayoutMark) : Prop where
  fits : ∀ kind : TokenKind, kind.startsStmt = true → Fits before marks kind
  ready : ∀ kind ∈ before, Ready kind marks

/-- The pieces write these tokens wherever an expression may stand. -/
def LaidExpr (line : List Piece) (ks : List TokenKind) : Prop :=
  ∀ ⦃before : Option TokenKind⦄ ⦃marks : List LayoutMark⦄ ⦃pieces : List Piece⦄
    ⦃more : List TokenKind⦄, (∀ kind : TokenKind, kind.startsExpr = true → Fits before marks kind) →
    Continues pieces more → Laid before marks (line ++ pieces) (ks ++ more)

/-- The pieces write these tokens wherever anything may stand. -/
def LaidList (line : List Piece) (ks : List TokenKind) : Prop :=
  ∀ ⦃before : Option TokenKind⦄ ⦃marks : List LayoutMark⦄ ⦃pieces : List Piece⦄
    ⦃more : List TokenKind⦄, (∀ kind, Fits before marks kind) → Continues pieces more →
    Laid before marks (line ++ pieces) (ks ++ more)

/-- The pieces write these tokens wherever a statement may stand, and leave things cleared. -/
def LaidStmt (line : List Piece) (ks : List TokenKind) : Prop :=
  ∀ ⦃before : Option TokenKind⦄ ⦃marks : List LayoutMark⦄ ⦃pieces : List Piece⦄
    ⦃more : List TokenKind⦄, Opens before marks →
    (∀ before marks, Cleared before marks → Laid before marks pieces more) →
    Laid before marks (line ++ pieces) (ks ++ more)

/-- The lines write these tokens wherever things are cleared. -/
def LaidLines (lines : List (List Piece)) (ks : List TokenKind) : Prop :=
  ∀ ⦃before : Option TokenKind⦄ ⦃marks : List LayoutMark⦄ ⦃pieces : List Piece⦄
    ⦃more : List TokenKind⦄, Cleared before marks →
    (∀ before marks, Cleared before marks → Laid before marks pieces more) →
    Laid before marks (Piece.separated [.mark .newline] lines ++ pieces) (ks ++ more)

theorem separated_cons_cons (separator first second : List Piece) (items : List (List Piece)) :
    Piece.separated separator (first :: second :: items)
      = first ++ (separator ++ Piece.separated separator (second :: items)) := by
  rw [Piece.separated, List.append_assoc]
  exact nofun

section
variable {before : Option TokenKind} {marks : List LayoutMark} {pieces line : List Piece}
  {lines : List (List Piece)} {ks more : List TokenKind} {kind : TokenKind}

theorem Cleared.opens (h : Cleared before marks) : Opens before marks where
  fits kind _ := h.fits kind
  ready kind hkind := (h kind hkind).1

/-- Behind a word and a blank. -/
theorem opens_word (word : Keyword) {m : LayoutMark} (h : IsBlank [m])
    (hjump : (TokenKind.keyword word).endsAtLine = false) :
    Opens (some (.keyword word)) [m] where
  fits kind hkind := fits_some (.word h hkind)
  ready := by
    rintro _ ⟨⟩
    exact ⟨rfl, fun hline => absurd (hjump.symm.trans hline) Bool.false_ne_true⟩

/-- Behind the head of a statement. -/
theorem opens_paren {m : LayoutMark} (h : m = .space ∨ m = .headSpace) :
    Opens (some (.mark .rparen)) [m] where
  fits kind _ := by
    refine fits_some (.paren (.inr ?_))
    obtain rfl | rfl := h
    · exact .inl rfl
    · exact .inr rfl
  ready := by
    rintro _ ⟨⟩
    exact ⟨rfl, nofun⟩

theorem startsStmt_of_startsExpr (h : kind.startsExpr = true) : kind.startsStmt = true := by
  rw [TokenKind.startsStmt, h, Bool.true_or]

theorem startsStmt_keyword (word : Keyword) : (TokenKind.keyword word).startsStmt = true :=
  Bool.or_true _

theorem LaidLines.nil : LaidLines [] [] :=
  fun _ _ _ _ hcleared hnext => hnext _ _ hcleared

theorem LaidStmt.cons (h : LaidStmt line ks) (hlines : LaidLines lines more) :
    LaidLines (line :: lines) (ks ++ more) := by
  intro before marks pieces after hcleared hnext
  cases lines with
  | nil =>
    rw [List.append_assoc]
    exact h hcleared.opens fun _ _ hcleared => hlines hcleared hnext
  | cons second lines =>
    rw [separated_cons_cons, List.append_assoc, List.append_assoc, List.append_assoc]
    exact h hcleared.opens fun _ _ hcleared => .mark rfl (hlines (hcleared.mark _) hnext)

/-- Lines between the braces of a block. -/
theorem LaidLines.block (h : LaidLines lines ks) (hready : ∀ kind ∈ before, Ready kind marks)
    (hnext : ∀ before marks, Cleared before marks → Laid before marks pieces more) :
    Laid before marks (Piece.block lines ++ pieces) (bracedKinds ks ++ more) := by
  simp only [Piece.block, bracedKinds, List.cons_append, List.nil_append, List.append_assoc]
  have hopen : Cleared before (.openBlock :: marks) :=
    cleared_token (fun kind hkind => (hready kind hkind).mark _) rfl
  refine .token rfl (.mark rfl (.mark rfl (h ((hopen.mark _).mark _) ?_)))
  intro before marks hcleared
  exact .mark rfl (.mark rfl (.token rfl (hnext _ _ (((hcleared.mark _).mark _).mark _))))

/-- A block behind a parenthesis. -/
theorem LaidLines.body (h : LaidLines lines ks)
    (hnext : ∀ before marks, Cleared before marks → Laid before marks pieces more) :
    Laid (some (.mark .rparen)) [] (.mark .space :: (Piece.block lines ++ pieces))
      (bracedKinds ks ++ more) :=
  .mark rfl (h.block (opens_paren (.inl rfl)).ready hnext)

/-- Names up to the closing parenthesis. -/
theorem laid_names (name : String) (names : List String)
    (hbefore : ∀ kind, Fits before marks kind)
    (hnext : Laid (some (.mark .rparen)) [] pieces more) :
    Laid before marks (Piece.separated Piece.listSeparator
        ((name :: names).map fun p => [.text p]) ++ .text ")" :: pieces)
      (.name name :: (moreNameKinds names ++ .mark .rparen :: more)) := by
  induction names generalizing name before marks with
  | nil =>
    exact .text rfl (hbefore _) ((continues_mark .rparen hnext).last _ rfl)
  | cons second names ih =>
    have hcomma : Laid (some (.mark .comma)) [.space] _ _ := ih second (fits_of_isOpen rfl)
    simp only [List.map_cons, separated_cons_cons, Piece.listSeparator, List.cons_append,
      List.nil_append] at hcomma ⊢
    exact .text rfl (hbefore _) ((continues_mark .comma (.mark rfl hcomma)).last _ rfl)

/-- The parameters of a function. -/
theorem laid_params (params : List String) (hkind : kind.finishesExpr = true)
    (hnext : Laid (some (.mark .rparen)) [] pieces more) :
    Laid (some kind) [] (Piece.listing (params.map fun p => [.text p]) ++ pieces)
      (paramKinds params ++ more) := by
  cases params with
  | nil =>
    refine (continues_mark .lparen ?_).last kind hkind
    exact .text rfl (fits_of_isOpen rfl _) hnext
  | cons name names =>
    have hnames : Laid (some (.mark .lparen)) [] _ _ :=
      laid_names name names (fits_of_isOpen rfl) hnext
    simp only [Piece.listing, Piece.parenthesized, paramKinds, List.cons_append, List.append_assoc,
      List.nil_append]
    exact (continues_mark .lparen hnames).last kind hkind

/-- A function, with or without a name. -/
theorem LaidLines.function (h : LaidLines lines ks) (name : Option String) (params : List String)
    (hbefore : Fits before marks (.keyword .function))
    (hnext : ∀ before marks, Cleared before marks → Laid before marks pieces more) :
    Laid before marks (Piece.function name params lines ++ pieces)
      (.keyword .function :: (nameKinds name ++ (paramKinds params ++ bracedKinds ks))
        ++ more) := by
  cases name with
  | none =>
    simp only [Piece.function, nameKinds, List.append_assoc, List.cons_append, List.nil_append]
    exact .text rfl hbefore (laid_params params rfl (h.body hnext))
  | some name =>
    simp only [Piece.function, nameKinds, List.append_assoc, List.cons_append, List.nil_append]
    refine .text rfl hbefore (.mark rfl (.text rfl (fits_some (.required rfl)) ?_))
    exact laid_params params rfl (h.body hnext)

/-- A word and something in parentheses. -/
theorem laid_head {word : Keyword} {inner : List Piece}
    (hbefore : Fits before marks (.keyword word))
    (hinner : Laid (some (.mark .lparen)) [] (inner ++ .text ")" :: pieces) more) :
    Laid before marks (Piece.head word.text inner ++ pieces)
      (.keyword word :: .mark .lparen :: more) := by
  simp only [Piece.head, Piece.parenthesized, List.append_assoc, List.cons_append, List.nil_append]
  exact .text rfl hbefore ((continues_spacedMark (.inl rfl) .lparen hinner).last _ rfl)

/-- Statements under the protection of a handler. -/
theorem LaidLines.guarded (h : LaidLines lines ks) (hbefore : Fits before marks (.keyword .try))
    (hnext : ∀ before marks, Cleared before marks → Laid before marks pieces more) :
    Laid before marks (Piece.guarded lines ++ pieces) (.keyword .try :: (bracedKinds ks ++ more)) :=
  .text rfl hbefore (.mark rfl (h.block (opens_word .try (.inl rfl) rfl).ready hnext))

/-- A handler, on a line of its own. -/
theorem LaidLines.handler (h : LaidLines lines ks) (param : String)
    (hcleared : Cleared before marks)
    (hnext : ∀ before marks, Cleared before marks → Laid before marks pieces more) :
    Laid before marks (.mark .newline :: (Piece.handler param lines ++ pieces))
      (.keyword .catch :: .mark .lparen :: .name param :: .mark .rparen
        :: (bracedKinds ks ++ more)) := by
  have hparam : Laid (some (.mark .lparen)) [] (.text param :: .text ")" :: _) _ :=
    .text rfl (fits_of_isOpen rfl (.name param))
      ((continues_mark .rparen (h.body hnext)).last _ rfl)
  simp only [Piece.handler, List.append_assoc, List.cons_append, List.nil_append]
  exact .mark rfl (laid_head ((hcleared.mark .newline).fits (.keyword .catch)) hparam)

/-- What is done in any case, on a line of its own. -/
theorem LaidLines.finalizer (h : LaidLines lines ks) (hcleared : Cleared before marks)
    (hnext : ∀ before marks, Cleared before marks → Laid before marks pieces more) :
    Laid before marks (.mark .newline :: (Piece.finalizer lines ++ pieces))
      (.keyword .finally :: (bracedKinds ks ++ more)) :=
  .mark rfl (.text rfl ((hcleared.mark .newline).fits (.keyword .finally))
    (.mark rfl (h.block (opens_word .finally (.inl rfl) rfl).ready hnext)))

/-- The body of a clause behind its colon. -/
theorem LaidLines.clause (h : LaidLines lines ks)
    (hnext : ∀ before marks, Cleared before marks → Laid before marks pieces more) :
    Laid (some (.mark .colon)) [] (.mark .indent :: .mark .newline
      :: (Piece.separated [.mark .newline] lines ++ .mark .dedent :: pieces)) (ks ++ more) :=
  .mark rfl (.mark rfl (h (cleared_of_isOpen rfl) fun _ _ hcleared =>
    .mark rfl (hnext _ _ (hcleared.mark _))))

/-- A declaration, whose end may be the first semicolon of a loop head. -/
theorem LaidList.declaration (h : LaidList (Piece.separated Piece.listSeparator lines) ks)
    (hbefore : Fits before marks (.keyword .var))
    (hnext : ∀ before marks, Cleared before marks → Laid before marks pieces more) :
    Laid before marks (Piece.declaration lines ++ pieces)
      (.keyword .var :: (ks ++ [.mark .semi]) ++ more) := by
  simp only [Piece.declaration, List.append_assoc, List.cons_append, List.nil_append]
  refine .text rfl hbefore (.mark rfl ?_)
  exact h (fun _ => fits_some (.required rfl)) (continues_endStatement hnext)

/-- A jump with an optional label. -/
theorem laid_jump {word : Keyword} (label : Option String)
    (hbefore : Fits before marks (.keyword word))
    (hnext : ∀ before marks, Cleared before marks → Laid before marks pieces more) :
    Laid before marks (Piece.jump word.text label ++ pieces)
      (.keyword word :: (nameKinds label ++ [.mark .semi]) ++ more) := by
  have hend := continues_endStatement hnext
  cases label with
  | none => exact .text rfl hbefore (hend.last _ rfl)
  | some name =>
    exact .text rfl hbefore (.mark rfl (.text rfl (fits_some (.required rfl)) (hend.last _ rfl)))

end

/-! ## Trees -/

theorem UnaryOp.piece_kind (op : UnaryOp) : op.kind.piece = .text op.text := by
  cases op <;> rfl

/-- An operand behind the operator in front of it. -/
theorem UnaryOp.fits (op : UnaryOp) {next : TokenKind} (h : next.startsExpr = true) :
    Fits (some op.kind) [.optionalSpace] next := by
  cases op with
  | delete | void | typeOf => exact fits_some (.word (.inr rfl) (startsStmt_of_startsExpr h))
  | _ => exact fits_some (.operand nofun (.inr ⟨rfl, nofun⟩) h)

/-- An operand behind the operator between two. -/
theorem BinaryOp.fits (op : BinaryOp) {next : TokenKind} (h : next.startsExpr = true) :
    Fits (some op.kind) [.space] next := by
  cases op with
  | isInstance | isIn => exact fits_some (.word (.inl rfl) (startsStmt_of_startsExpr h))
  | _ => exact fits_some (.operand nofun (.inl rfl) h)

/-- A token that is an expression by itself. -/
theorem laidExpr_atom (kind : TokenKind) (hstarts : kind.startsExpr = true)
    (hfinishes : kind.finishesExpr = true) : LaidExpr [kind.piece] [kind] :=
  fun _ _ _ _ hbefore hnext => .text rfl (hbefore _ hstarts) (hnext.last _ hfinishes)

/-- The pieces of a property. -/
def Property.pieces : Property → List Piece
  | .field key value =>
    key.pieces ++ [.mark .optionalSpace, .text ":", .mark .space] ++ value.pieces
  | .getter key body =>
    [.text "get", .mark .requiredSpace] ++ key.pieces ++ Piece.listing [] ++ [.mark .space]
      ++ Piece.block (stmtPieces body)
  | .setter key param body =>
    [.text "set", .mark .requiredSpace] ++ key.pieces ++ Piece.listing [[.text param]]
      ++ [.mark .space] ++ Piece.block (stmtPieces body)

theorem propertyPieces_cons (p : Property) (properties : List Property) :
    propertyPieces (p :: properties) = p.pieces :: propertyPieces properties := by
  cases p <;> rw [propertyPieces, Property.pieces]

theorem Key.exists_of_isWord {key : Key} (h : key.isWord = true) : ∃ id, key = .name id := by
  cases key with
  | name id => exact ⟨id, rfl⟩
  | _ => cases h

theorem Key.finishesExpr_kind (key : Key) : key.kind.finishesExpr = true := by
  cases key with
  | name id => exact TokenKind.finishesExpr_of_isWord (TokenKind.isWord_wordToken id)
  | _ => rfl

/-- The name of a property. -/
theorem laid_key (key : Key) {before : Option TokenKind} {marks : List LayoutMark}
    {pieces : List Piece} {more : List TokenKind} (hbefore : Fits before marks key.kind)
    (hnext : Laid (some key.kind) [] pieces more) :
    Laid before marks (key.pieces ++ pieces) (key.kind :: more) := by
  cases key with
  | name id => exact .text (TokenKind.piece_wordToken id) hbefore hnext
  | _ => exact .text rfl hbefore hnext

mutual

theorem Expr.laid : ∀ {e : Expr} {place : Place}, e.Formed place → LaidExpr e.pieces e.kinds
  | .name id, _, _ => laidExpr_atom (.name id) rfl rfl
  | .this, _, _ => laidExpr_atom (.keyword .this) rfl rfl
  | .null, _, _ => laidExpr_atom (.keyword .null) rfl rfl
  | .bool true, _, _ => laidExpr_atom (.keyword .true) rfl rfl
  | .bool false, _, _ => laidExpr_atom (.keyword .false) rfl rfl
  | .number text, _, _ => laidExpr_atom (.number text) rfl rfl
  | .string text, _, _ => laidExpr_atom (.string text) rfl rfl
  | .regex text, _, _ => laidExpr_atom (.regex text) rfl rfl
  | .array items, _, hformed => by
    intro before marks pieces more hbefore hnext
    simp only [Expr.pieces, Expr.kinds, List.cons_append, List.append_assoc, List.nil_append]
    exact .text rfl (hbefore _ rfl) (laidItems hformed (cleared_of_isOpen rfl) (hnext.last _ rfl))
  | .object properties, _, hformed => by
    intro before marks pieces more hbefore hnext
    simp only [Expr.pieces, Expr.kinds, List.cons_append, List.append_assoc, List.nil_append]
    refine .text rfl (hbefore _ rfl) ?_
    have hinner : properties ≠ [] → Laid (some (.mark .lbrace)) [.newline, .indent] _ _ :=
      fun hne => laidProperties hne hformed (cleared_of_isOpen rfl)
        (continues_close (hnext.last _ rfl))
    cases properties with
    | nil => exact .text rfl (fits_of_isOpen rfl _) (hnext.last _ rfl)
    | cons p properties =>
      replace hinner := hinner nofun
      rw [propertyPieces_cons] at hinner ⊢
      simp only [Piece.objectBody, List.isEmpty_cons, Bool.false_eq_true, if_false,
        List.cons_append, List.append_assoc, List.nil_append]
      exact .mark rfl (.mark rfl hinner)
  | .group inner, _, hformed => by
    intro before marks pieces more hbefore hnext
    simp only [Expr.pieces, Expr.kinds, Piece.parenthesized, List.cons_append, List.append_assoc,
      List.nil_append]
    exact .text rfl (hbefore _ rfl) (Expr.laid hformed.1 (fun _ _ => fits_of_isOpen rfl _)
      (continues_mark .rparen (hnext.last _ rfl)))
  | .func name params body, _, hformed => by
    intro before marks pieces more hbefore hnext
    rw [Expr.pieces, Expr.kinds]
    exact (laidAll hformed.2.2).function name params (hbefore _ rfl) hnext.block
  | .dot owner field, _, hformed => by
    intro before marks pieces more hbefore hnext
    simp only [Expr.pieces, Expr.kinds, List.append_assoc, List.cons_append, List.nil_append]
    have hword := TokenKind.isWord_wordToken field
    refine Expr.laid hformed.1 hbefore (continues_mark .dot ?_)
    exact .text (TokenKind.piece_wordToken field) (fits_some (.field hword))
      (hnext.last _ (TokenKind.finishesExpr_of_isWord hword))
  | .index owner position, _, hformed => by
    intro before marks pieces more hbefore hnext
    simp only [Expr.pieces, Expr.kinds, List.append_assoc, List.cons_append, List.nil_append]
    refine Expr.laid hformed.1 hbefore (continues_mark .lbracket ?_)
    exact Expr.laid hformed.2.2 (fun _ _ => fits_of_isOpen rfl _)
      (continues_mark .rbracket (hnext.last _ rfl))
  | .call callee args, _, hformed => by
    intro before marks pieces more hbefore hnext
    simp only [Expr.pieces, Expr.kinds, Piece.listing, Piece.parenthesized, List.append_assoc,
      List.cons_append, List.nil_append]
    refine Expr.laid hformed.1 hbefore (continues_mark .lparen ?_)
    exact laidArgs hformed.2.2 (fits_of_isOpen rfl) (hnext.last _ rfl)
  | .new callee args, _, hformed => by
    intro before marks pieces more hbefore hnext
    simp only [Expr.pieces, Expr.kinds, Piece.listing, Piece.parenthesized, List.append_assoc,
      List.cons_append, List.nil_append]
    refine .text rfl (hbefore (.keyword .new) rfl) (.mark rfl ?_)
    refine Expr.laid hformed.1 (fun _ _ => fits_some (.required rfl)) (continues_mark .lparen ?_)
    exact laidArgs hformed.2.2 (fits_of_isOpen rfl) (hnext.last _ rfl)
  | .newBare callee, _, hformed => by
    intro before marks pieces more hbefore hnext
    simp only [Expr.pieces, Expr.kinds, List.cons_append, List.nil_append]
    refine .text rfl (hbefore (.keyword .new) rfl) (.mark rfl ?_)
    exact Expr.laid hformed.1 (fun _ _ => fits_some (.required rfl)) hnext
  | .unary op operand, _, hformed => by
    intro before marks pieces more hbefore hnext
    have hstarts : op.kind.startsExpr = true := (Expr.unary op operand).startsExpr_head
    simp only [Expr.pieces, Expr.kinds, List.cons_append, List.nil_append]
    refine .text op.piece_kind (hbefore _ hstarts) (.mark rfl ?_)
    exact Expr.laid hformed.1 (fun _ => op.fits) hnext
  | .step operand op, _, hformed => by
    intro before marks pieces more hbefore hnext
    simp only [Expr.pieces, Expr.kinds, List.append_assoc, List.cons_append, List.nil_append]
    cases op with
    | increment => exact Expr.laid hformed.1 hbefore (continues_mark .increment (hnext.last _ rfl))
    | decrement => exact Expr.laid hformed.1 hbefore (continues_mark .decrement (hnext.last _ rfl))
  | .binary op left right, _, hformed => by
    intro before marks pieces more hbefore hnext
    simp only [Expr.pieces, Expr.kinds, List.append_assoc, List.cons_append, List.nil_append]
    refine Expr.laid hformed.1 hbefore (continues_operator op (.mark rfl ?_))
    exact Expr.laid hformed.2.2.1 (fun _ => op.fits) hnext
  | .assign op left right, _, hformed => by
    intro before marks pieces more hbefore hnext
    simp only [Expr.pieces, Expr.kinds, List.append_assoc, List.cons_append, List.nil_append]
    refine Expr.laid hformed.1 hbefore (continues_spacedMark (.inr rfl) (.assign op) (.mark rfl ?_))
    exact Expr.laid hformed.2.2.1 (fun _ h => fits_some (.operand nofun (.inl rfl) h)) hnext
  | .cond test yes no, _, hformed => by
    intro before marks pieces more hbefore hnext
    simp only [Expr.pieces, Expr.kinds, List.append_assoc, List.cons_append, List.nil_append]
    refine Expr.laid hformed.1 hbefore (continues_spacedMark (.inl rfl) .question (.mark rfl ?_))
    refine Expr.laid hformed.2.2.1 (fun _ _ => fits_of_isOpen rfl _)
      (continues_spacedMark (.inl rfl) .colon (.mark rfl ?_))
    exact Expr.laid hformed.2.2.2.2.1 (fun _ _ => fits_of_isOpen rfl _) hnext
  | .comma left right, _, hformed => by
    intro before marks pieces more hbefore hnext
    simp only [Expr.pieces, Expr.kinds, List.append_assoc, List.cons_append, List.nil_append]
    refine Expr.laid hformed.1 hbefore (continues_mark .comma (.mark rfl ?_))
    exact Expr.laid hformed.2.1 (fun _ _ => fits_of_isOpen rfl _) hnext

/-- Arguments up to the closing parenthesis. -/
theorem laidArgs : ∀ {es : List Expr} {before : Option TokenKind} {marks : List LayoutMark}
    {pieces : List Piece} {more : List TokenKind}, FormedArgs es →
    (∀ kind, Fits before marks kind) → Laid (some (.mark .rparen)) [] pieces more →
    Laid before marks (Piece.separated Piece.listSeparator (exprPieces es) ++ .text ")" :: pieces)
      (argKinds es ++ more)
  | [], _, _, _, _, _, hbefore, hnext => .text rfl (hbefore _) hnext
  | [e], _, _, _, _, hformed, hbefore, hnext => by
    simp only [exprPieces, Piece.separated, argKinds, moreArgKinds, List.append_assoc,
      List.cons_append, List.nil_append]
    exact Expr.laid hformed.1 (fun _ _ => hbefore _) (continues_mark .rparen hnext)
  | e :: second :: es, _, _, _, _, hformed, hbefore, hnext => by
    have hrest : Laid (some (.mark .comma)) [.space] _ _ :=
      laidArgs hformed.2.2 (fits_of_isOpen rfl) hnext
    simp only [exprPieces, separated_cons_cons, Piece.listSeparator, argKinds, moreArgKinds,
      List.append_assoc, List.cons_append, List.nil_append] at hrest ⊢
    exact Expr.laid hformed.1 (fun _ _ => hbefore _) (continues_mark .comma (.mark rfl hrest))

/-- Items up to the closing bracket. -/
theorem laidItems : ∀ {items : List Item} {before : Option TokenKind} {marks : List LayoutMark}
    {pieces : List Piece} {more : List TokenKind}, FormedItems items → Cleared before marks →
    Laid (some (.mark .rbracket)) [] pieces more →
    Laid before marks (Piece.arrayItems (itemPieces items) ++ .text "]" :: pieces)
      (itemKinds items ++ .mark .rbracket :: more)
  | [], _, _, _, _, _, hbefore, hnext => .text rfl (hbefore.fits _) hnext
  | .elision 0 :: _, _, _, _, _, hformed, _, _ => absurd hformed.1 (Nat.lt_irrefl 0)
  | .elision (count + 1) :: items, _, _, _, _, hformed, hbefore, hnext => by
    have hrest : ∀ marks, Laid (some (.mark .comma)) marks _ _ :=
      fun _ => laidItems hformed.2.2 (cleared_of_isOpen rfl) hnext
    simp only [itemPieces, itemKinds, List.append_assoc]
    cases items with
    | nil => exact .commas (hbefore.fits _) (hrest [])
    | cons next items =>
      cases next with
      | elision more => exact .commas (hbefore.fits _) (hrest [])
      | value e => exact .commas (hbefore.fits _) (.mark rfl (hrest [.space]))
  | .value e :: items, _, _, _, _, hformed, hbefore, hnext => by
    have hrest : ∀ marks, Laid (some (.mark .comma)) marks _ _ :=
      fun _ => laidItems hformed.2.2 (cleared_of_isOpen rfl) hnext
    simp only [itemPieces, itemKinds, List.append_assoc]
    cases items with
    | nil => exact Expr.laid hformed.1 (fun _ _ => hbefore.fits _) (continues_mark .rbracket hnext)
    | cons next items =>
      cases next with
      | elision more =>
        simp only [itemPieces, Piece.arrayItems, List.isEmpty_cons, Bool.false_eq_true, if_false,
          if_true, List.append_assoc, List.cons_append, List.nil_append]
        exact Expr.laid hformed.1 (fun _ _ => hbefore.fits _) (continues_mark .comma (hrest []))
      | value second =>
        simp only [itemPieces, Piece.arrayItems, List.isEmpty_cons, Bool.false_eq_true, if_false,
          List.append_assoc, List.cons_append, List.nil_append]
        exact Expr.laid hformed.1 (fun _ _ => hbefore.fits _)
          (continues_mark .comma (.mark rfl (hrest [.space])))

/-- A property of an object. -/
theorem Property.laid : ∀ {p : Property}, p.Formed → ∀ {before : Option TokenKind}
    {marks : List LayoutMark} {pieces : List Piece} {more : List TokenKind},
    Cleared before marks → Continues pieces more →
    Laid before marks (p.pieces ++ pieces) (p.kinds ++ more)
  | .field key value, hformed, _, _, _, _, hbefore, hnext => by
    simp only [Property.pieces, Property.kinds, List.append_assoc, List.cons_append,
      List.nil_append]
    have hvalue : Laid (some (.mark .colon)) [.space] _ _ :=
      Expr.laid hformed.2.1 (fun _ _ => fits_of_isOpen rfl _) hnext
    exact laid_key key (hbefore.fits _)
      ((continues_spacedMark (.inr rfl) .colon (.mark rfl hvalue)).last _ key.finishesExpr_kind)
  | .getter key body, hformed, _, _, _, _, hbefore, hnext => by
    obtain ⟨id, rfl⟩ := Key.exists_of_isWord hformed.2.1
    have hparams :=
      laid_params [] (TokenKind.finishesExpr_of_isWord (TokenKind.isWord_wordToken id))
      ((laidAll hformed.2.2).body hnext.block)
    simp only [Property.pieces, Property.kinds, List.append_assoc, List.cons_append,
      List.nil_append]
    refine .text rfl (hbefore.fits .getter) (.mark rfl ?_)
    exact laid_key (.name id) (fits_some (.accessor rfl (TokenKind.isWord_wordToken id))) hparams
  | .setter key param body, hformed, _, _, _, _, hbefore, hnext => by
    obtain ⟨id, rfl⟩ := Key.exists_of_isWord hformed.2.1
    have hparams := laid_params [param]
      (TokenKind.finishesExpr_of_isWord (TokenKind.isWord_wordToken id))
      ((laidAll hformed.2.2.2).body hnext.block)
    simp only [Property.pieces, Property.kinds, List.append_assoc, List.cons_append,
      List.nil_append]
    refine .text rfl (hbefore.fits .setter) (.mark rfl ?_)
    exact laid_key (.name id) (fits_some (.accessor rfl (TokenKind.isWord_wordToken id))) hparams

/-- The properties of an object. -/
theorem laidProperties : ∀ {properties : List Property} {before : Option TokenKind}
    {marks : List LayoutMark} {pieces : List Piece} {more : List TokenKind}, properties ≠ [] →
    FormedProperties properties → Cleared before marks → Continues pieces more →
    Laid before marks (Piece.separated [.text ",", .mark .newline] (propertyPieces properties)
        ++ pieces) (propertyKinds properties ++ more)
  | [], _, _, _, _, hne, _, _, _ => absurd rfl hne
  | [p], _, _, _, _, _, hformed, hbefore, hnext => by
    have hp := Property.laid hformed.1 hbefore hnext
    simpa [propertyPieces_cons, propertyPieces, propertyKinds, Piece.separated] using hp
  | p :: second :: properties, _, _, _, _, _, hformed, hbefore, hnext => by
    have hrest : Laid (some (.mark .comma)) [.newline] _ _ :=
      laidProperties (List.cons_ne_nil _ _) hformed.2 (cleared_of_isOpen rfl) hnext
    rw [propertyPieces_cons, propertyPieces_cons, separated_cons_cons, ← propertyPieces_cons,
      propertyKinds]
    simp only [List.isEmpty_cons, Bool.false_eq_true, if_false, List.append_assoc,
      List.cons_append, List.nil_append]
    exact Property.laid hformed.1 hbefore (continues_mark .comma (.mark rfl hrest))

/-- A declared variable behind its name. -/
theorem Binding.laid : ∀ {b : Binding} {place : Place}, b.Formed place → ∀ {pieces : List Piece}
    {more : List TokenKind}, Continues pieces more →
    ∃ line ks, b.pieces = .text b.name :: line ∧ b.kinds = .name b.name :: ks ∧
      Laid (some (.name b.name)) [] (line ++ pieces) (ks ++ more)
  | .bare _, _, _, _, _, hnext => ⟨[], [], by rw [Binding.pieces]; rfl, by rw [Binding.kinds]; rfl,
      hnext.last _ rfl⟩
  | .init _ value, _, hformed, _, _, hnext => by
    have hvalue : Laid (some (.mark (.assign .plain))) [.space] _ _ :=
      Expr.laid hformed.2.1 (fun _ h => fits_some (.operand nofun (.inl rfl) h)) hnext
    refine ⟨.mark .space :: .text "=" :: .mark .space :: value.pieces,
      .mark (.assign .plain) :: value.kinds, by rw [Binding.pieces]; rfl,
      by rw [Binding.kinds]; rfl, ?_⟩
    exact (continues_spacedMark (.inl rfl) (.assign .plain) (.mark rfl hvalue)).last _ rfl

/-- Declared variables. -/
theorem laidBindings : ∀ {bindings : List Binding} {place : Place}, bindings ≠ [] →
    FormedBindings place bindings →
    LaidList (Piece.separated Piece.listSeparator (bindingPieces bindings)) (bindingKinds bindings)
  | [], _, hne, _ => absurd rfl hne
  | [b], _, _, hformed => by
    intro before marks pieces more hbefore hnext
    obtain ⟨line, ks, hpieces, hkinds, hlaid⟩ := Binding.laid hformed.1 hnext
    simp only [bindingPieces, bindingKinds, Piece.separated, hpieces, hkinds, List.isEmpty_nil,
      if_true, List.append_nil]
    exact .text rfl (hbefore _) hlaid
  | b :: second :: bindings, _, _, hformed => by
    intro before marks pieces more hbefore hnext
    have hrest : Laid (some (.mark .comma)) [.space] _ _ :=
      laidBindings (List.cons_ne_nil _ _) hformed.2 (fits_of_isOpen rfl) hnext
    obtain ⟨line, ks, hpieces, hkinds, hlaid⟩ :=
      Binding.laid hformed.1 (continues_mark .comma (.mark rfl hrest))
    rw [bindingPieces, bindingPieces, separated_cons_cons, ← bindingPieces, bindingKinds, hpieces,
      hkinds]
    simp only [Piece.listSeparator, List.isEmpty_cons, Bool.false_eq_true, if_false,
      List.append_assoc, List.cons_append, List.nil_append]
    exact .text rfl (hbefore _) hlaid

/-- An optional expression and a mark behind it, in the head of a loop. -/
theorem laidOptional : ∀ {value : Option Expr} {before : Option TokenKind}
    {marks : List LayoutMark} {pieces : List Piece} {more : List TokenKind},
    FormedOptional value → Cleared before marks → Continues pieces more →
    Laid before marks (optionalPieces value ++ pieces) (optionalKinds value ++ more)
  | none, _, _, _, _, _, hbefore, hnext => hnext.block _ _ hbefore
  | some _, _, _, _, _, hformed, hbefore, hnext =>
    Expr.laid hformed (fun _ _ => hbefore.fits _) hnext

/-- The head of a loop up to its first semicolon. -/
theorem LoopStart.laid : ∀ {start : LoopStart} {pieces : List Piece} {more : List TokenKind},
    start.Formed → (∀ before marks, Cleared before marks → Laid before marks pieces more) →
    Laid (some (.mark .lparen)) [] (start.pieces ++ pieces) (start.kinds ++ more)
  | .nothing, _, _, _, hnext =>
    (continues_endStatement hnext).block _ _ (cleared_of_isOpen rfl)
  | .vars _, _, _, hformed, hnext => by
    rw [LoopStart.pieces, LoopStart.kinds]
    exact (laidBindings hformed.1 hformed.2).declaration (fits_of_isOpen rfl _) hnext
  | .expr _, _, _, hformed, hnext => by
    simp only [LoopStart.pieces, LoopStart.kinds, List.append_assoc, List.cons_append,
      List.nil_append]
    exact Expr.laid hformed (fun _ _ => fits_of_isOpen rfl _) (continues_endStatement hnext)

theorem Stmt.laid : ∀ {s : Stmt}, s.Formed → LaidStmt s.pieces s.kinds
  | .block body, hformed => by
    intro before marks pieces more hbefore hnext
    rw [Stmt.pieces, Stmt.kinds]
    exact (laidAll hformed).block hbefore.ready hnext
  | .vars bindings, hformed => by
    intro before marks pieces more hbefore hnext
    rw [Stmt.pieces, Stmt.kinds]
    exact (laidBindings hformed.1 hformed.2).declaration
      (hbefore.fits _ (startsStmt_keyword _)) hnext
  | .empty, _ => by
    intro before marks pieces more hbefore hnext
    exact .token rfl (hnext _ _ (cleared_token (fun _ h => (hbefore.ready _ h).mark _) rfl))
  | .expr e, hformed => by
    intro before marks pieces more hbefore hnext
    simp only [Stmt.pieces, Stmt.kinds, List.append_assoc, List.cons_append, List.nil_append]
    exact Expr.laid hformed.1 (fun _ h => hbefore.fits _ (startsStmt_of_startsExpr h))
      (continues_endStatement hnext)
  | .ifThen test yes, hformed => by
    intro before marks pieces more hbefore hnext
    have hyes := Stmt.laid hformed.2 (opens_paren (.inl rfl)) hnext
    simp only [Stmt.pieces, Stmt.kinds, List.append_assoc, List.cons_append, List.nil_append]
    refine laid_head (hbefore.fits _ (startsStmt_keyword .if)) ?_
    exact Expr.laid hformed.1 (fun _ _ => fits_of_isOpen rfl _)
      (continues_mark .rparen (.mark rfl hyes))
  | .ifElse test yes no, hformed => by
    intro before marks pieces more hbefore hnext
    have hno := Stmt.laid hformed.2.2.2 (opens_word .else (.inl rfl) rfl) hnext
    have hyes := Stmt.laid hformed.2.1 (opens_paren (.inl rfl)) fun _ _ hcleared =>
      .mark rfl (.text rfl ((hcleared.mark .newline).fits _) (.mark rfl hno))
    simp only [Stmt.pieces, Stmt.kinds, List.append_assoc, List.cons_append, List.nil_append]
    refine laid_head (hbefore.fits _ (startsStmt_keyword .if)) ?_
    exact Expr.laid hformed.1 (fun _ _ => fits_of_isOpen rfl _)
      (continues_mark .rparen (.mark rfl hyes))
  | .loop start test next body, hformed => by
    intro before marks pieces more hbefore hnext
    have hbody := Stmt.laid hformed.2.2.2 (opens_paren (.inl rfl)) hnext
    have hhead : ∀ before marks, Cleared before marks → Laid before marks _ _ :=
      fun _ _ hcleared => .mark rfl (laidOptional hformed.2.2.1 (hcleared.mark .headSpace)
        (continues_mark .rparen (.mark rfl hbody)))
    simp only [Stmt.pieces, Stmt.kinds, List.append_assoc, List.cons_append, List.nil_append]
    refine laid_head (hbefore.fits _ (startsStmt_keyword .for)) ?_
    simp only [List.append_assoc, List.cons_append]
    refine LoopStart.laid hformed.1 fun _ _ hcleared => .mark rfl ?_
    exact laidOptional hformed.2.1 (hcleared.mark .headSpace) (continues_endStatement hhead)
  | .loopIn item collection body, hformed => by
    intro before marks pieces more hbefore hnext
    have hbody := Stmt.laid hformed.2.2.2 (opens_paren (.inl rfl)) hnext
    have hcollection := Expr.laid hformed.2.2.1
      (fun _ h => (opens_word .in (.inl rfl) rfl).fits _ (startsStmt_of_startsExpr h))
      (continues_mark .rparen (.mark rfl hbody))
    simp only [Stmt.pieces, Stmt.kinds, List.append_assoc, List.cons_append, List.nil_append]
    refine laid_head (hbefore.fits _ (startsStmt_keyword .for)) ?_
    simp only [List.append_assoc, List.cons_append]
    exact Expr.laid hformed.1 (fun _ _ => fits_of_isOpen rfl _)
      (continues_in (.mark rfl hcollection))
  | .loopVarIn item collection body, hformed => by
    intro before marks pieces more hbefore hnext
    have hbody := Stmt.laid hformed.2.2.2 (opens_paren (.inl rfl)) hnext
    have hcollection := Expr.laid hformed.2.2.1
      (fun _ h => (opens_word .in (.inl rfl) rfl).fits _ (startsStmt_of_startsExpr h))
      (continues_mark .rparen (.mark rfl hbody))
    obtain ⟨line, ks, hpieces, hkinds, hitem⟩ :=
      Binding.laid hformed.1 (continues_in (.mark rfl hcollection))
    simp only [Stmt.pieces, Stmt.kinds, hpieces, hkinds, List.append_assoc, List.cons_append,
      List.nil_append]
    refine laid_head (hbefore.fits _ (startsStmt_keyword .for)) ?_
    simp only [List.append_assoc, List.cons_append]
    exact .declared (fits_of_isOpen rfl _) hitem
  | .while test body, hformed => by
    intro before marks pieces more hbefore hnext
    have hbody := Stmt.laid hformed.2 (opens_paren (.inr rfl)) hnext
    simp only [Stmt.pieces, Stmt.kinds, List.append_assoc, List.cons_append, List.nil_append]
    refine laid_head (hbefore.fits _ (startsStmt_keyword .while)) ?_
    exact Expr.laid hformed.1 (fun _ _ => fits_of_isOpen rfl _)
      (continues_mark .rparen (.mark rfl hbody))
  | .doWhile body test, hformed => by
    intro before marks pieces more hbefore hnext
    have htest : Laid (some (.mark .lparen)) [] _ _ :=
      Expr.laid hformed.2 (fun _ _ => fits_of_isOpen rfl _)
        (continues_mark .rparen ((continues_endStatement hnext).last _ rfl))
    simp only [Stmt.pieces, Stmt.kinds, List.append_assoc, List.cons_append, List.nil_append]
    refine .text rfl (hbefore.fits _ (startsStmt_keyword .do)) (.mark rfl ?_)
    refine Stmt.laid hformed.1 (opens_word .do (.inl rfl) rfl) fun _ _ hcleared => .mark rfl ?_
    exact laid_head ((hcleared.mark .space).fits (.keyword .while)) htest
  | .continue label, _ => by
    intro before marks pieces more hbefore hnext
    rw [Stmt.pieces, Stmt.kinds]
    exact laid_jump label (hbefore.fits _ (startsStmt_keyword .continue)) hnext
  | .break label, _ => by
    intro before marks pieces more hbefore hnext
    rw [Stmt.pieces, Stmt.kinds]
    exact laid_jump label (hbefore.fits _ (startsStmt_keyword .break)) hnext
  | .ret none, _ => by
    intro before marks pieces more hbefore hnext
    exact .text rfl (hbefore.fits _ (startsStmt_keyword .return))
      ((continues_endStatement hnext).last _ rfl)
  | .ret (some value), hformed => by
    intro before marks pieces more hbefore hnext
    simp only [Stmt.pieces, Stmt.kinds, optionalKinds, List.append_assoc, List.cons_append,
      List.nil_append]
    refine .text rfl (hbefore.fits _ (startsStmt_keyword .return)) (.mark rfl ?_)
    exact Expr.laid hformed
      (fun _ h => fits_some (.word (.inl rfl) (startsStmt_of_startsExpr h)))
      (continues_endStatement hnext)
  | .withScope scope body, hformed => by
    intro before marks pieces more hbefore hnext
    have hbody := Stmt.laid hformed.2 (opens_paren (.inl rfl)) hnext
    simp only [Stmt.pieces, Stmt.kinds, List.append_assoc, List.cons_append, List.nil_append]
    refine laid_head (hbefore.fits _ (startsStmt_keyword .with)) ?_
    exact Expr.laid hformed.1 (fun _ _ => fits_of_isOpen rfl _)
      (continues_mark .rparen (.mark rfl hbody))
  | .label name body, hformed => by
    intro before marks pieces more hbefore hnext
    have hbody : Laid (some (.mark .colon)) [.space] _ _ :=
      Stmt.laid hformed.2 (cleared_of_isOpen rfl).opens hnext
    simp only [Stmt.pieces, Stmt.kinds, List.cons_append, List.nil_append]
    exact .text rfl (hbefore.fits (.name name) (Bool.or_true _))
      ((continues_mark .colon (.mark rfl hbody)).last _ rfl)
  | .switch subject clauses, hformed => by
    intro before marks pieces more hbefore hnext
    have hclauses := (laidClauses hformed.2.1).body hnext
    simp only [Stmt.pieces, Stmt.kinds, List.append_assoc, List.cons_append, List.nil_append]
    refine laid_head (hbefore.fits _ (startsStmt_keyword .switch)) ?_
    exact Expr.laid hformed.1 (fun _ _ => fits_of_isOpen rfl _) (continues_mark .rparen hclauses)
  | .throw value, hformed => by
    intro before marks pieces more hbefore hnext
    simp only [Stmt.pieces, Stmt.kinds, List.append_assoc, List.cons_append, List.nil_append]
    refine .text rfl (hbefore.fits _ (startsStmt_keyword .throw)) (.mark rfl ?_)
    exact Expr.laid hformed
      (fun _ h => fits_some (.word (.inl rfl) (startsStmt_of_startsExpr h)))
      (continues_endStatement hnext)
  | .debugger, _ => by
    intro before marks pieces more hbefore hnext
    exact .text rfl (hbefore.fits _ (startsStmt_keyword .debugger))
      ((continues_endStatement hnext).last _ rfl)
  | .tryCatch body param handler, hformed => by
    intro before marks pieces more hbefore hnext
    simp only [Stmt.pieces, Stmt.kinds, List.append_assoc, List.cons_append, List.nil_append]
    exact (laidAll hformed.1).guarded (hbefore.fits _ (startsStmt_keyword .try)) fun _ _ hcleared =>
      (laidAll hformed.2.2).handler param hcleared hnext
  | .tryFinally body finalizer, hformed => by
    intro before marks pieces more hbefore hnext
    simp only [Stmt.pieces, Stmt.kinds, List.append_assoc, List.cons_append, List.nil_append]
    exact (laidAll hformed.1).guarded (hbefore.fits _ (startsStmt_keyword .try)) fun _ _ hcleared =>
      (laidAll hformed.2).finalizer hcleared hnext
  | .tryCatchFinally body param handler finalizer, hformed => by
    intro before marks pieces more hbefore hnext
    simp only [Stmt.pieces, Stmt.kinds, List.append_assoc, List.cons_append, List.nil_append]
    exact (laidAll hformed.1).guarded (hbefore.fits _ (startsStmt_keyword .try)) fun _ _ hcleared =>
      (laidAll hformed.2.2.1).handler param hcleared fun _ _ hcleared =>
        (laidAll hformed.2.2.2).finalizer hcleared hnext
  | .func name params body, hformed => by
    intro before marks pieces more hbefore hnext
    rw [Stmt.pieces, Stmt.kinds]
    exact (laidAll hformed.2.2).function (some name) params
      (hbefore.fits _ (startsStmt_keyword .function)) hnext

theorem laidAll : ∀ {ss : List Stmt}, FormedAll ss → LaidLines (stmtPieces ss) (stmtKinds ss)
  | [], _ => .nil
  | _ :: _, hformed => (Stmt.laid hformed.1).cons (laidAll hformed.2)

theorem laidClauses : ∀ {clauses : List Clause}, FormedClauses clauses →
    LaidLines (clausePieces clauses) (clauseKinds clauses)
  | [], _ => .nil
  | .on label body :: clauses, hformed => by
    have hclause : LaidStmt (Piece.clause ([.text "case", .mark .space] ++ label.pieces)
        (stmtPieces body)) (.keyword .case :: (label.kinds ++ .mark .colon :: stmtKinds body)) := by
      intro before marks pieces more hbefore hnext
      have hlabel := Expr.laid hformed.1
        (fun _ h => (opens_word .case (.inl rfl) rfl).fits _ (startsStmt_of_startsExpr h))
        (continues_mark .colon ((laidAll hformed.2.1).clause hnext))
      simp only [Piece.clause, List.append_assoc, List.cons_append, List.nil_append]
      exact .text rfl (hbefore.fits _ (startsStmt_keyword .case)) (.mark rfl hlabel)
    have hclauses := hclause.cons (laidClauses hformed.2.2)
    simpa only [clausePieces, clauseKinds, List.append_assoc, List.cons_append] using hclauses
  | .otherwise body :: clauses, hformed => by
    have hclause : LaidStmt (Piece.clause [.text "default"] (stmtPieces body))
        (.keyword .default :: .mark .colon :: stmtKinds body) := by
      intro before marks pieces more hbefore hnext
      simp only [Piece.clause, List.append_assoc, List.cons_append, List.nil_append]
      exact .text rfl (hbefore.fits _ (startsStmt_keyword .default))
        ((continues_mark .colon ((laidAll hformed.1).clause hnext)).last _ rfl)
    have hclauses := hclause.cons (laidClauses hformed.2)
    simpa only [clausePieces, clauseKinds, List.cons_append] using hclauses

end

/-- The stream of a program writes the tokens of the program, with nothing but seams between its
texts. -/
theorem laid_programPieces {program : Program} (h : FormedAll program) :
    Laid none [] (programPieces program) (stmtKinds program) := by
  have hlines : Laid none [] (programPieces program) (stmtKinds program ++ []) :=
    laidAll h cleared_none fun _ _ hcleared => .mark rfl (.nil (hcleared.mark _))
  rwa [List.append_nil] at hlines

end Espalier.Script
