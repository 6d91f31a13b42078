import Espalier.Compress.Hoist
import Espalier.Proofs.Render.Execution
import Espalier.Proofs.Render.Resolving
import Espalier.Proofs.Script.Calls
import Espalier.Proofs.Script.Operands
import Espalier.Proofs.Script.Printing
import Espalier.Proofs.Template.Lines

/-!
# Printed render functions are read back

The render function of a template of elements and plain text fills arrays: it adds string literals
to them, and elements in blocks of their own (`Filling`). Printed in any faithful style, such a
function is read back as it is (`parse_print_renderFunction`). Whether the arrays are declared where
they are first used or in front of the function makes no difference.
-/

namespace Espalier.Script

open Espalier.Text

/-! ## Closed streams -/

/-- The stream ends with a token that a mark writes, and keeps apart from whatever follows. -/
def Closed (pieces : List Piece) : Prop :=
  ∀ rest, Spaced none [] rest → Spaced none [] (pieces ++ rest)

/-- With no text before them, marks keep nothing apart. -/
theorem Spaced.marks {pieces : List Piece} : ∀ {marks : List LayoutMark} (others : List LayoutMark),
    Spaced none marks pieces → Spaced none others pieces := by
  induction pieces with
  | nil => exact fun _ _ => nofun
  | cons piece pieces ih =>
    intro marks others h
    cases piece with
    | mark m => exact ih (m :: others) h
    | text s => exact ⟨h.1, nofun, h.2.2⟩
    | literal s => exact ⟨h.1, nofun, h.2.2⟩

/-- The text may stand before any mark: it is no jump. -/
structure Plain (text : String) : Prop where
  isText : IsText text
  calm : (textKind text).endsAtLine = false

instance (text : String) : Decidable (Plain text) :=
  decidable_of_iff (IsText text ∧ (textKind text).endsAtLine = false)
    ⟨fun h => ⟨h.1, h.2⟩, fun h => ⟨h.1, h.2⟩⟩

section
variable {text following : String} {marks : List LayoutMark} {pieces : List Piece}

theorem Plain.parted (h : Plain text)
    (hmarks : marks.any (·.kind?.isSome) ∨ marks = [.requiredSpace] ∨ mayTouch text following) :
    Parted (some text) marks following := by
  rintro _ ⟨⟩
  refine ⟨h.isText, ?_⟩
  rw [if_neg (by simp [h.calm])]
  exact hmarks

/-- A mark that writes a token keeps the text before it apart from what follows. -/
theorem Plain.spaced (h : Plain text) (hpieces : Spaced none [] pieces) :
    ∀ {marks : List LayoutMark}, marks.any (·.kind?.isSome) = true →
      Spaced (some text) marks pieces := by
  induction pieces with
  | nil =>
    rintro marks hmarks _ ⟨⟩
    exact ⟨h.isText, h.calm, hmarks⟩
  | cons piece pieces ih =>
    intro marks hmarks
    cases piece with
    | mark m =>
      have hrest : Spaced none [m] pieces := hpieces
      exact ih (hrest.marks []) (by simp [hmarks])
    | text s => exact ⟨hpieces.1, h.parted (.inl hmarks), hpieces.2.2⟩
    | literal s => exact ⟨hpieces.1, h.parted (.inl hmarks), hpieces.2.2⟩

/-- A text directly behind another one, or behind marks that may write nothing. -/
theorem Plain.next (h : Plain text) (hfollowing : IsText following)
    (htouch : mayTouch text following = true) (hpieces : Spaced (some following) [] pieces) :
    Spaced (some text) marks (.text following :: pieces) :=
  ⟨hfollowing, h.parted (.inr (.inr htouch)), hpieces⟩

theorem plain_mark {m : Mark} (hm : m ∈ printedMarks) : Plain m.text := by
  have hall : ∀ m ∈ printedMarks, Plain m.text := by decide
  exact hall m hm

/-- A string literal behind a mark. -/
theorem Plain.literal {m : Mark} (hm : m ∈ printedMarks) (content : String)
    (hpieces : Spaced none [] pieces) :
    Spaced (some m.text) marks (.literal (quote content) :: pieces) := by
  have hstops : ∀ m ∈ printedMarks, stops m.text '\x22' = true := by decide
  have htouch : mayTouch m.text (quote content) = true := by
    rw [mayTouch, quote, String.toList_ofList]
    exact hstops m hm
  exact ⟨⟨content, rfl⟩, (plain_mark hm).parted (.inr (.inr htouch)), hpieces⟩

end

theorem Closed.nil : Closed [] := fun _ h => h

theorem Closed.append {a b : List Piece} (ha : Closed a) (hb : Closed b) : Closed (a ++ b) := by
  intro rest h
  rw [List.append_assoc]
  exact ha _ (hb rest h)

theorem Closed.mark (m : LayoutMark) : Closed [.mark m] :=
  fun _ h => h.marks [m]

/-! ## Names -/

/-- A name that texts may stand around. -/
structure PlainName (id : String) : Prop where
  word : IsWord id
  token : wordToken id = .name id
  accessor : id ≠ "get" ∧ id ≠ "set"

section
variable {id : String} (h : PlainName id)
include h

theorem PlainName.kind : textKind id = .name id := by
  rw [textKind_of_word h.word, h.token]

theorem PlainName.plain : Plain id where
  isText := .inl ⟨h.word, h.accessor⟩
  calm := by rw [h.kind]; rfl

/-- A name ends before a mark. -/
theorem PlainName.mayTouch {m : Mark} (hm : m ∈ printedMarks) : mayTouch id m.text = true := by
  have hall : ∀ m ∈ printedMarks,
      m.text.toList.head?.all (fun c => !isNameStart c && !isNamePart c) = true := by decide
  rw [Script.mayTouch, funext (stops_of_word h.word)]
  exact hall m hm

/-- A name may stand behind a mark. -/
theorem PlainName.touched {m : Mark} (hm : m ∈ printedMarks) :
    Script.mayTouch m.text id = true := by
  obtain ⟨c, cs, hchars, hname, -⟩ := h.word.exists_cons
  have hdigit := not_isDigit_of_isNameStart hname
  have hequals : c ≠ '=' := by
    rintro rfl
    exact absurd hname (by decide)
  rw [Script.mayTouch, hchars, List.head?_cons, Option.all_some, stops, textKind_of_mark hm]
  split
  case h_1 => simp [hdigit]
  case h_2 => simp [hequals]
  case h_3 => rfl
  all_goals simp_all

end

/-- A statement is printed as a closed stream whose tokens are read as the statement. -/
structure Printed (s : Stmt) : Prop where
  closed : Closed s.pieces
  reads : Reader.Reads (pieceKinds s.pieces) [s]

/-- Statements are printed, one a line. -/
structure PrintedAll (ss : List Stmt) : Prop where
  closed : Closed (Piece.separated [.mark .newline] (stmtPieces ss))
  reads : Reader.Reads (pieceKinds (Piece.separated [.mark .newline] (stmtPieces ss))) ss

theorem PrintedAll.nil : PrintedAll [] := ⟨.nil, .nil⟩

theorem PrintedAll.cons {s : Stmt} {ss : List Stmt} (hs : Printed s) (hss : PrintedAll ss) :
    PrintedAll (s :: ss) := by
  cases ss with
  | nil => exact ⟨hs.closed, hs.reads⟩
  | cons next ss =>
    have hpieces : Piece.separated [.mark .newline] (stmtPieces (s :: next :: ss))
        = s.pieces ++ ([.mark .newline]
          ++ Piece.separated [.mark .newline] (stmtPieces (next :: ss))) := by
      rw [stmtPieces, stmtPieces, Piece.separated, List.append_assoc]
      rintro ⟨⟩
    constructor
    · rw [hpieces]
      exact hs.closed.append ((Closed.mark _).append hss.closed)
    · rw [hpieces, pieceKinds_append, pieceKinds_append]
      exact hs.reads.append hss.reads

theorem PrintedAll.append {a b : List Stmt} (ha : ∀ s ∈ a, Printed s) (hb : PrintedAll b) :
    PrintedAll (a ++ b) := by
  induction a with
  | nil => exact hb
  | cons s a ih =>
    obtain ⟨hs, ha⟩ := List.forall_mem_cons.1 ha
    exact .cons hs (ih ha)

theorem PrintedAll.of_forall {ss : List Stmt} (h : ∀ s ∈ ss, Printed s) : PrintedAll ss := by
  have hall := PrintedAll.append h .nil
  rwa [List.append_nil] at hall

/-- Statements in braces. -/
theorem PrintedAll.braces {ss : List Stmt} (h : PrintedAll ss) :
    Closed (Piece.block (stmtPieces ss)) ∧ pieceKinds (Piece.block (stmtPieces ss))
      = Reader.bracedKinds (pieceKinds (Piece.separated [.mark .newline] (stmtPieces ss))) := by
  constructor
  · have hopen : Closed [.mark .openBlock, .mark .indent, .mark .newline] :=
      (Closed.mark .openBlock).append ((Closed.mark .indent).append (.mark .newline))
    have hclose : Closed [.mark .dedent, .mark .optionalNewline, .mark .closeBlock] :=
      (Closed.mark .dedent).append ((Closed.mark .optionalNewline).append (.mark .closeBlock))
    exact (hopen.append h.closed).append hclose
  · rw [Piece.block, pieceKinds_append, pieceKinds_append]
    rfl

theorem Printed.block {ss : List Stmt} (h : PrintedAll ss) : Printed (.block ss) where
  closed := by
    rw [Stmt.pieces]
    exact h.braces.1
  reads := by
    rw [Stmt.pieces, h.braces.2]
    exact h.reads.block

/-! ## Values -/

/-- The stream may follow a text that ends before every mark, and a literal. -/
structure Follows (rest : List Piece) : Prop where
  literal : Spaced none [] rest
  text : ∀ text, Plain text → (∀ m ∈ printedMarks, mayTouch text m.text = true) →
    Spaced (some text) [] rest

/-- The end of a statement. -/
theorem Follows.endStatement {rest : List Piece} (h : Spaced none [] rest) :
    Follows (.mark .endStatement :: rest) where
  literal := h.marks [.endStatement]
  text _ htext _ := htext.spaced h rfl

theorem Follows.mark {m : Mark} (hm : m ∈ printedMarks) {rest : List Piece}
    (h : Spaced (some m.text) [] rest) : Follows (.text m.text :: rest) where
  literal := ⟨(plain_mark hm).isText, nofun, h⟩
  text _ htext htouch := htext.next (plain_mark hm).isText (htouch m hm) h

/-- A value is printed as a stream that may stand between a mark and what follows it, and whose
tokens are read as the value. -/
structure PrintedArg (e : Expr) : Prop where
  spaced : ∀ {m : Mark}, m ∈ printedMarks → ∀ (marks : List LayoutMark) {rest : List Piece},
    Follows rest → Spaced (some m.text) marks (e.pieces ++ rest)
  reads : Reader.ReadsArg (pieceKinds e.pieces) e

theorem printedArg_literal (content : String) : PrintedArg (.string (quote content)) where
  spaced hm _ _ hrest := Plain.literal hm content hrest.literal
  reads := .atom rfl

theorem printedArg_empty : PrintedArg (.array []) where
  spaced {m} hm marks rest hrest := by
    have htouch : ∀ m ∈ printedMarks, mayTouch m.text "[" = true := by decide
    have hopen : Plain "[" := by decide
    refine (plain_mark hm).next hopen.isText (htouch m hm) ?_
    refine hopen.next (by decide) (by decide) ?_
    exact hrest.text "]" (by decide) (by decide)
  reads := .array .nil

/-- An array of a string literal and `null`. -/
theorem printedArg_typed (content : String) :
    PrintedArg (.array [.value (.string (quote content)), .value .null]) where
  spaced {m} hm marks rest hrest := by
    have htouch : ∀ m ∈ printedMarks, mayTouch m.text "[" = true := by decide
    have hcomma : Plain "," := by decide
    have hnull : Plain "null" := by decide
    refine (plain_mark hm).next (by decide) (htouch m hm) ?_
    refine Plain.literal (m := .lbracket) (by decide) content ?_
    refine ⟨hcomma.isText, nofun, ?_⟩
    refine hcomma.next hnull.isText (by decide) ?_
    refine hnull.next (by decide) (by decide) ?_
    exact hrest.text "]" (by decide) (by decide)
  reads := .array (.cons rfl (.cons rfl .nil))

/-! ## Statements -/

/-- A value behind an equality sign, at the end of a statement. -/
theorem PrintedArg.spaced_end {value : Expr} (h : PrintedArg value) {rest : List Piece}
    (hrest : Spaced none [] rest) :
    Spaced (some "=") [.space] (value.pieces ++ [Piece.mark .endStatement] ++ rest) := by
  rw [List.append_assoc]
  exact h.spaced (m := .assign .plain) (by decide) [.space] (.endStatement hrest)

/-- A value assigned to a name. -/
theorem printed_assign {id : String} {value : Expr} (hid : PlainName id) (h : PrintedArg value) :
    Printed (.expr (.assign .plain (.name id) value)) := by
  have hpieces : (Stmt.expr (.assign .plain (.name id) value)).pieces
      = Piece.text id :: .mark .optionalSpace :: .text "=" :: .mark .space
        :: (value.pieces ++ [Piece.mark .endStatement]) := by
    simp [Stmt.pieces, Expr.pieces, AssignOp.text]
  constructor
  · intro rest hrest
    rw [hpieces]
    refine ⟨hid.plain.isText, by rintro _ ⟨⟩, ?_⟩
    refine hid.plain.next (by decide) (hid.mayTouch (m := .assign .plain) (by decide)) ?_
    exact h.spaced_end hrest
  · have hkinds : pieceKinds (Stmt.expr (.assign .plain (.name id) value)).pieces
        = TokenKind.name id :: .mark (.assign .plain)
          :: (pieceKinds value.pieces ++ [TokenKind.mark .semi]) := by
      rw [hpieces]
      simp [hid.kind, pieceKinds_append, LayoutMark.kind?,
        show textKind "=" = .mark (.assign .plain) by decide]
    rw [hkinds]
    exact .of_takes rfl (Reader.takes_assigned h.reads)

/-- A variable declared with its value. -/
theorem printed_declare {id : String} {value : Expr} (hid : PlainName id) (h : PrintedArg value) :
    Printed (.vars [.init id value]) := by
  have hpieces : (Stmt.vars [.init id value]).pieces
      = Piece.text "var" :: .mark .requiredSpace :: .text id :: .mark .space :: .text "="
        :: .mark .space :: (value.pieces ++ [Piece.mark .endStatement]) := by
    simp [Stmt.pieces, Piece.declaration, bindingPieces, Binding.pieces, Piece.initialized,
      Piece.separated]
  have hvar : Plain "var" := by decide
  constructor
  · intro rest hrest
    rw [hpieces]
    refine ⟨hvar.isText, by rintro _ ⟨⟩, ?_⟩
    refine ⟨hid.plain.isText, hvar.parted (.inr (.inl rfl)), ?_⟩
    refine hid.plain.next (by decide) (hid.mayTouch (m := .assign .plain) (by decide)) ?_
    exact h.spaced_end hrest
  · have hkinds : pieceKinds (Stmt.vars [.init id value]).pieces
        = TokenKind.keyword .var :: .name id :: .mark (.assign .plain)
          :: (pieceKinds value.pieces ++ [TokenKind.mark .semi]) := by
      rw [hpieces]
      simp [hid.kind, pieceKinds_append, LayoutMark.kind?,
        show textKind "=" = .mark (.assign .plain) by decide,
        show textKind "var" = .keyword .var by decide]
    rw [hkinds]
    exact .of_takes rfl (Reader.takes_declared h.reads)

/-- The pieces of names after a first one. -/
def moreNamePieces (names : List String) : List Piece :=
  names.flatMap fun id => [.text ",", .mark .space, .text id]

theorem separated_names (first : String) (names : List String) :
    Piece.separated Piece.listSeparator (bindingPieces ((first :: names).map .bare))
      = Piece.text first :: moreNamePieces names := by
  induction names generalizing first with
  | nil => rfl
  | cons next names ih =>
    have hcons : Piece.separated Piece.listSeparator
        (bindingPieces ((first :: next :: names).map .bare))
        = [Piece.text first] ++ Piece.listSeparator
          ++ Piece.separated Piece.listSeparator (bindingPieces ((next :: names).map .bare)) := by
      simp [bindingPieces, Binding.pieces, Piece.separated]
    rw [hcons, ih]
    rfl

theorem spaced_moreNames {names : List String} (h : ∀ id ∈ names, PlainName id)
    {rest : List Piece} (hrest : Spaced none [] rest) : ∀ {first : String}, PlainName first →
    Spaced (some first) [] (moreNamePieces names ++ .mark .endStatement :: rest) := by
  induction names with
  | nil => exact fun hfirst => hfirst.plain.spaced hrest rfl
  | cons next names ih =>
    intro first hfirst
    obtain ⟨hnext, hnames⟩ := List.forall_mem_cons.1 h
    have hcomma : Plain "," := by decide
    refine hfirst.plain.next (by decide) (hfirst.mayTouch (m := .comma) (by decide)) ?_
    exact hcomma.next hnext.plain.isText (hnext.touched (m := .comma) (by decide)) (ih hnames hnext)

theorem kinds_moreNamePieces {names : List String} (h : ∀ id ∈ names, PlainName id) :
    pieceKinds (moreNamePieces names) = Reader.moreNameKinds names := by
  induction names with
  | nil => rfl
  | cons next names ih =>
    obtain ⟨hnext, hnames⟩ := List.forall_mem_cons.1 h
    have hcons : moreNamePieces (next :: names)
        = Piece.text "," :: .mark .space :: .text next :: moreNamePieces names := rfl
    rw [hcons, pieceKinds_text, pieceKinds_mark, pieceKinds_text, ih hnames, hnext.kind]
    rfl

/-- Variables declared without values. -/
theorem printed_bare {first : String} {names : List String} (hfirst : PlainName first)
    (hnames : ∀ id ∈ names, PlainName id) : Printed (.vars ((first :: names).map .bare)) := by
  have hpieces : (Stmt.vars ((first :: names).map .bare)).pieces
      = Piece.text "var" :: .mark .requiredSpace :: .text first
        :: (moreNamePieces names ++ [Piece.mark .endStatement]) := by
    rw [Stmt.pieces, Piece.declaration, separated_names]
    rfl
  have hvar : Plain "var" := by decide
  constructor
  · intro rest hrest
    have hmore := spaced_moreNames hnames hrest hfirst
    rw [hpieces]
    refine ⟨hvar.isText, by rintro _ ⟨⟩, ?_⟩
    refine ⟨hfirst.plain.isText, hvar.parted (.inr (.inl rfl)), ?_⟩
    simpa [List.append_assoc] using hmore
  · have hkinds : pieceKinds (Stmt.vars ((first :: names).map .bare)).pieces
        = TokenKind.keyword .var :: .name first
          :: (Reader.moreNameKinds names ++ [TokenKind.mark .semi]) := by
      rw [hpieces, pieceKinds_text, pieceKinds_mark, pieceKinds_text, pieceKinds_append,
        kinds_moreNamePieces hnames, hfirst.kind]
      rfl
    rw [hkinds]
    exact .of_takes rfl (Reader.takes_declaredAll first names)

end Espalier.Script

namespace Espalier.Render

open Espalier.Script Espalier.Text

/-! ## Arrays -/

/-- The name of an array that a render function fills. -/
structure IsArray (id : String) : Prop where
  name : PlainName id
  collector : isCollector id = true

/-- A numbered name that begins with a dollar sign is a name. -/
theorem plainName_numbered (core : String) (hcore : core.toList.all isNamePart = true) (n : Nat) :
    PlainName ("$" ++ core ++ toString n) := by
  have hchars : ("$" ++ core ++ toString n).toList = '$' :: (core.toList ++ n.repr.toList) := by
    simp [String.toList_append, toString]
  have hdigits : ∀ d ∈ n.repr.toList, isNamePart d = true := by
    intro d hd
    rw [Nat.toList_repr] at hd
    have hdigit := Nat.isDigit_of_mem_toDigits (by decide) (by decide) hd
    exact Template.isNamePart_of_part (by rw [Char.isAlphanum, hdigit]; simp)
  have hfirst : ∀ word ∈ Keyword.all.map Keyword.text ++ ["get", "set"],
      word.toList.head? ≠ some '$' := by decide
  have hne : ∀ word ∈ Keyword.all.map Keyword.text ++ ["get", "set"],
      "$" ++ core ++ toString n ≠ word := by
    rintro word hword rfl
    exact hfirst _ hword (by rw [hchars]; rfl)
  refine ⟨?_, ?_, hne "get" (by decide), hne "set" (by decide)⟩
  · refine Template.isWord_of_parts hchars (by decide) (by decide) ?_
    exact List.forall_mem_append.2 ⟨List.all_eq_true.1 hcore, hdigits⟩
  · have hnone : Keyword.ofText? ("$" ++ core ++ toString n) = none := by
      rw [Keyword.ofText?, List.find?_eq_none]
      intro k hk heq
      exact hne k.text (List.mem_append_left _ (List.mem_map_of_mem hk)) (beq_iff_eq.1 heq).symm
    rw [wordToken, hnone]

theorem isArray_element (n : Nat) : IsArray ("$element" ++ toString n) :=
  ⟨plainName_numbered "element" (by decide) n, isCollector_element n⟩

theorem isArray_children (n : Nat) : IsArray ("$children" ++ toString n) :=
  ⟨plainName_numbered "children" (by decide) n, isCollector_children n⟩

/-! ## Additions -/

/-- Tokens of an addition to an array. -/
theorem printed_push {array : String} {value : Expr} (harray : IsArray array)
    (h : PrintedArg value) : Printed (push array value) := by
  have hpieces : (push array value).pieces
      = Piece.text array :: .text "." :: .text "push" :: .text "("
        :: (value.pieces ++ [Piece.text ")", .mark .endStatement]) := by
    simp [push, Stmt.pieces, Expr.pieces, exprPieces, Piece.listing, Piece.parenthesized,
      Piece.separated]
  have hplain := harray.name.plain
  have hdot : Plain "." := by decide
  have hpush : Plain "push" := by decide
  have hclose : Plain ")" := by decide
  constructor
  · intro rest hrest
    have hvalue : Spaced (some "(") []
        (value.pieces ++ (Piece.text ")" :: .mark .endStatement :: rest)) :=
      h.spaced (m := .lparen) (by decide) [] (.mark (m := .rparen) (by decide)
        (hclose.spaced hrest rfl))
    rw [hpieces]
    refine ⟨hplain.isText, by rintro _ ⟨⟩, ?_⟩
    refine hplain.next hdot.isText (harray.name.mayTouch (m := .dot) (by decide)) ?_
    refine hdot.next hpush.isText (by decide) ?_
    refine hpush.next (by decide) (by decide) ?_
    simpa [List.append_assoc] using hvalue
  · have hkinds : pieceKinds (push array value).pieces
        = TokenKind.name array :: .mark .dot :: .name "push" :: .mark .lparen
          :: (pieceKinds value.pieces ++ [TokenKind.mark .rparen]) ++ [TokenKind.mark .semi] := by
      rw [hpieces]
      simp [harray.name.kind, pieceKinds_append, LayoutMark.kind?,
        show textKind "." = .mark .dot by decide, show textKind "push" = .name "push" by decide,
        show textKind "(" = .mark .lparen by decide, show textKind ")" = .mark .rparen by decide]
    have hargs := Reader.takes_arguments h.reads .nil
    have hname : Reader.ReadsLeft [.name array] (.name array) := .atom rfl
    have hleft := (hname.dot "push").call hargs
    rw [hkinds]
    exact .of_takes rfl (Reader.takes_left hleft (by rintro ⟨⟩) rfl)

theorem create_default (array : String) :
    ({} : Settings).create array
      = .call (.dot (.dot (.name "React") "createElement") "apply") [.name "React", .name array] :=
  rfl

/-- An element made of an array. -/
theorem printedArg_create {array : String} (harray : IsArray array) :
    PrintedArg (({} : Settings).create array) := by
  have hpieces : (({} : Settings).create array).pieces
      = [Piece.text "React", .text ".", .text "createElement", .text ".", .text "apply", .text "(",
        .text "React", .text ",", .mark .space, .text array, .text ")"] := by
    simp [create_default, Expr.pieces, exprPieces, Piece.listing, Piece.parenthesized,
      Piece.separated, Piece.listSeparator]
  have hreact : Plain "React" := by decide
  have hdot : Plain "." := by decide
  have hcreate : Plain "createElement" := by decide
  have happly : Plain "apply" := by decide
  have hopen : Plain "(" := by decide
  have hcomma : Plain "," := by decide
  have hname := harray.name
  constructor
  · intro m hm marks rest hrest
    have htouch : ∀ m ∈ printedMarks, mayTouch m.text "React" = true := by decide
    rw [hpieces]
    refine (plain_mark hm).next hreact.isText (htouch m hm) ?_
    refine hreact.next hdot.isText (by decide) ?_
    refine hdot.next hcreate.isText (by decide) ?_
    refine hcreate.next hdot.isText (by decide) ?_
    refine hdot.next happly.isText (by decide) ?_
    refine happly.next hopen.isText (by decide) ?_
    refine hopen.next hreact.isText (by decide) ?_
    refine hreact.next hcomma.isText (by decide) ?_
    refine hcomma.next hname.plain.isText (hname.touched (m := .comma) (by decide)) ?_
    refine hname.plain.next (by decide) (hname.mayTouch (m := .rparen) (by decide)) ?_
    exact hrest.text ")" (by decide) (by decide)
  · have hkinds : pieceKinds (({} : Settings).create array).pieces
        = [.name "React", .mark .dot, .name "createElement", .mark .dot, .name "apply",
          .mark .lparen, .name "React", .mark .comma, .name array, .mark .rparen] := by
      rw [hpieces]
      simp [hname.kind, LayoutMark.kind?,
        show textKind "." = .mark .dot by decide, show textKind "React" = .name "React" by decide,
        show textKind "createElement" = .name "createElement" by decide,
        show textKind "apply" = .name "apply" by decide,
        show textKind "," = .mark .comma by decide,
        show textKind "(" = .mark .lparen by decide, show textKind ")" = .mark .rparen by decide]
    have harg : ∀ id, Reader.ReadsArg [.name id] (.name id) := fun _ => .atom rfl
    have hargs := Reader.takes_arguments (harg "React") (.cons (harg array) .nil)
    have howner : Reader.ReadsLeft [.name "React"] (.name "React") := .atom rfl
    rw [hkinds, create_default]
    exact (((howner.dot "createElement").dot "apply").call hargs).readsArg

/-! ## The result -/

/-- The only child, or else the array of children. -/
theorem printed_return : Printed (.ret (some (soleOrAll "$children0"))) := by
  have hpieces : (Stmt.ret (some (soleOrAll "$children0"))).pieces
      = [Piece.text "return", .mark .space, .text "$children0", .text ".", .text "length",
        .mark .space, .text "===", .mark .space, .text "1", .mark .space, .text "?", .mark .space,
        .text "$children0", .text "[", .text "0", .text "]", .mark .space, .text ":", .mark .space,
        .text "$children0", .mark .endStatement] := by
    simp [soleOrAll, Stmt.pieces, Expr.pieces, BinaryOp.text]
  have hreturn : IsText "return" := by decide
  have harray : Plain "$children0" := by decide
  have hdot : Plain "." := by decide
  have hlength : Plain "length" := by decide
  have hequals : Plain "===" := by decide
  have hone : Plain "1" := by decide
  have hquestion : Plain "?" := by decide
  have hopen : Plain "[" := by decide
  have hzero : Plain "0" := by decide
  have hclose : Plain "]" := by decide
  have hcolon : Plain ":" := by decide
  constructor
  · intro rest hrest
    have hjump : Parted (some "return") [.space] "$children0" := by
      rintro _ ⟨⟩
      refine ⟨hreturn, ?_⟩
      rw [if_pos (by decide)]
      exact ⟨rfl, by decide⟩
    rw [hpieces]
    refine ⟨hreturn, by rintro _ ⟨⟩, harray.isText, hjump, ?_⟩
    refine harray.next hdot.isText (by decide) ?_
    refine hdot.next hlength.isText (by decide) ?_
    refine hlength.next hequals.isText (by decide) ?_
    refine hequals.next hone.isText (by decide) ?_
    refine hone.next hquestion.isText (by decide) ?_
    refine hquestion.next harray.isText (by decide) ?_
    refine harray.next hopen.isText (by decide) ?_
    refine hopen.next hzero.isText (by decide) ?_
    refine hzero.next hclose.isText (by decide) ?_
    refine hclose.next hcolon.isText (by decide) ?_
    refine hcolon.next harray.isText (by decide) ?_
    exact harray.spaced hrest rfl
  · have hkinds : pieceKinds (Stmt.ret (some (soleOrAll "$children0"))).pieces
        = TokenKind.keyword .return :: (TokenKind.name "$children0" :: [.mark .dot, .name "length",
          .mark (.binary .eqStrict), .number "1", .mark .question, .name "$children0",
          .mark .lbracket, .number "0", .mark .rbracket, .mark .colon, .name "$children0"]
          ++ [TokenKind.mark .semi]) := by
      rw [hpieces]
      decide
    have hname : Reader.ReadsLeft [.name "$children0"] (.name "$children0") := .atom rfl
    have hzero : Reader.ReadsArg [.number "0"] (.number "0") := .atom rfl
    rw [hkinds]
    exact .of_takes rfl (Reader.takes_return (Reader.ReadsArg.choice (hname.dot "length") rfl
      (hname.index hzero).readsArg hname.readsArg) rfl)

/-! ## Functions -/

/-- A render function is printed and read back. -/
theorem parse_print_function {body : List Stmt} (h : PrintedAll body) {style : Style}
    (hstyle : style.Faithful) :
    parse (style.print (programPieces [.func "render" ["block"] body]))
      = some [.func "render" ["block"] body] := by
  obtain ⟨hclosed, hkinds⟩ := h.braces
  have hpieces : programPieces [.func "render" ["block"] body]
      = Piece.text "function" :: .mark .requiredSpace :: .text "render" :: .text "("
        :: .text "block" :: .text ")" :: .mark .space
        :: (Piece.block (stmtPieces body) ++ [Piece.mark .optionalNewline]) := by
    simp [programPieces, stmtPieces, Stmt.pieces, Piece.function, Piece.listing,
      Piece.parenthesized, Piece.separated]
  have hfunction : Plain "function" := by decide
  have hrender : Plain "render" := by decide
  have hopen : Plain "(" := by decide
  have hblock : Plain "block" := by decide
  have hclose : Plain ")" := by decide
  have hbraces : Spaced none [] (Piece.block (stmtPieces body) ++ [Piece.mark .optionalNewline]) :=
    hclosed _ (by rintro _ ⟨⟩)
  have hend : Spaced (some ")") [.space]
      (Piece.block (stmtPieces body) ++ [Piece.mark .optionalNewline]) := by
    have hinner : Spaced none [.openBlock, .space] _ := hbraces.marks [.space]
    exact hclose.spaced (hinner.marks []) rfl
  have hspaced : Spaced none [] (programPieces [.func "render" ["block"] body]) := by
    rw [hpieces]
    refine ⟨hfunction.isText, by rintro _ ⟨⟩, hrender.isText,
      hfunction.parted (.inr (.inl rfl)), ?_⟩
    refine hrender.next hopen.isText (by decide) ?_
    refine hopen.next hblock.isText (by decide) ?_
    exact hblock.next hclose.isText (by decide) hend
  have htokens : pieceKinds (programPieces [.func "render" ["block"] body])
      = TokenKind.keyword .function :: (.name "render" :: (Reader.paramKinds ["block"]
        ++ Reader.bracedKinds
          (pieceKinds (Piece.separated [.mark .newline] (stmtPieces body))))) := by
    rw [hpieces, ← hkinds]
    simp [pieceKinds_append, LayoutMark.kind?, Reader.paramKinds, Reader.moreNameKinds,
      show textKind "function" = .keyword .function by decide,
      show textKind "render" = .name "render" by decide,
      show textKind "block" = .name "block" by decide,
      show textKind "(" = .mark .lparen by decide, show textKind ")" = .mark .rparen by decide]
  have hlength := hstyle.length_print hspaced
  have htokenize := hstyle.tokenize_print hspaced
  rw [htokens] at htokenize hlength
  exact parse_of_takes htokenize hlength rfl (Reader.takes_function h.reads)

/-! ## Fillings -/

/-- The statements add literals to an array, and `count` elements, each in a block of its own that
sets up the element's array by `init`. -/
inductive Filling (init : String → Expr → Stmt) : String → List Stmt → Nat → Prop
  | nil (target : String) : Filling init target [] 0
  | text {target : String} {ss : List Stmt} {count : Nat} (value : String)
    (rest : Filling init target ss count) :
    Filling init target (push target (.string (quote value)) :: ss) count
  | element {target array : String} {inner ss : List Stmt} {below count : Nat} (name : String)
    (harray : IsArray array) (children : Filling init array inner below)
    (rest : Filling init target ss count) :
    Filling init target (.block (init array (.array [.value (.string (quote name)), .value .null])
      :: inner ++ [push target (({} : Settings).create array)]) :: ss) (below + count + 1)

/-- The statement that assigns a value to a variable. -/
def assigned (id : String) (value : Expr) : Stmt :=
  .expr (.assign .plain (.name id) value)

section
variable {init : String → Expr → Stmt} {target : String} {ss : List Stmt} {count : Nat}

theorem Filling.append (h : Filling init target ss count) {others : List Stmt} {more : Nat}
    (hothers : Filling init target others more) :
    Filling init target (ss ++ others) (count + more) := by
  induction h with
  | nil => rwa [Nat.zero_add]
  | text value _ ih => exact .text value (ih hothers)
  | @element target array inner ss below count name harray children _ _ ih =>
    rw [show below + count + 1 + more = below + (count + more) + 1 by omega]
    exact .element name harray children (ih hothers)

theorem Filling.printed (hinit : ∀ {id : String} {value : Expr}, PlainName id → PrintedArg value →
    Printed (init id value)) (h : Filling init target ss count) (htarget : IsArray target) :
    ∀ s ∈ ss, Printed s := by
  induction h with
  | nil => exact nofun
  | text value _ ih =>
    exact List.forall_mem_cons.2 ⟨printed_push htarget (printedArg_literal value), ih htarget⟩
  | element name harray _ _ ihchildren ih =>
    refine List.forall_mem_cons.2 ⟨.block (.of_forall ?_), ih htarget⟩
    refine List.forall_mem_cons.2 ⟨hinit harray.name (printedArg_typed name), ?_⟩
    refine List.forall_mem_append.2 ⟨ihchildren harray, ?_⟩
    exact List.forall_mem_singleton.2 (printed_push htarget (printedArg_create harray))

theorem Filling.unreserved (hinit : ∀ id value, (init id value).names = id :: value.names)
    (hsettings : ({} : Settings).Unreserved) (h : Filling init target ss count)
    (htarget : IsArray target) : ∀ name ∈ stmtNames ss, Unreserved name := by
  induction h with
  | nil => exact nofun
  | text value _ ih =>
    rw [stmtNames]
    exact List.forall_mem_append.2 ⟨unreserved_push htarget.collector nofun, ih htarget⟩
  | element name harray _ _ ihchildren ih =>
    rw [stmtNames, Stmt.names, List.cons_append, stmtNames, stmtNames_append, hinit]
    simp only [List.forall_mem_append, stmtNames, List.append_nil]
    refine ⟨⟨?_, ihchildren harray, ?_⟩, ih htarget⟩
    · exact List.forall_mem_cons.2 ⟨unreserved_of_isCollector harray.collector, nofun⟩
    · exact unreserved_push htarget.collector (unreserved_create hsettings harray.collector)

/-- The callee is the `apply` method of the element factory. -/
def Settings.applies (settings : Settings) : Expr → Bool
  | .dot factory field => field == "apply" && samePath factory settings.factoryExpr
  | _ => false

/-- Every element is one application of the factory. -/
theorem Filling.applications (hinit : ∀ id value, (init id value).callees = value.callees)
    (h : Filling init target ss count) :
    (stmtCallees ss).countP ({} : Settings).applies = count := by
  induction h with
  | nil => rfl
  | text value _ ih =>
    rw [stmtCallees, List.countP_append, ih]
    exact Nat.zero_add _
  | @element target array inner ss below count name harray _ _ ihchildren ih =>
    have hcreate : (push target (({} : Settings).create array)).callees.countP
        ({} : Settings).applies = 1 := rfl
    rw [stmtCallees, Stmt.callees, List.countP_append, List.cons_append, stmtCallees,
      stmtCallees_append, List.countP_append, List.countP_append, ih, ihchildren, hinit,
      stmtCallees, stmtCallees, List.append_nil, hcreate]
    simp only [Expr.callees, itemCallees, List.append_nil, List.countP_nil]
    omega

end

end Espalier.Render
