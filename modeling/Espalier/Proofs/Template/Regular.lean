import Espalier.Proofs.Script.Acceptance
import Espalier.Proofs.Script.Phrase
import Espalier.Proofs.Template.Announced
import Espalier.Proofs.Template.Generated

/-!
# Regular templates

A template is regular when each piece of code that its author wrote is what its place asks for: the
arguments of a call, the subject of a choice, a label, the head of an iteration or of a statement,
or statements. A piece is read on its own in a line like the one that is generated for it, with the
name `f` for a reserved one, and this line must have its tokens wherever it stands. No reserved name
may be declared or set in it, and no choice may stand in a comment that is written out. Main
statement: `Node.isRegular_of_structural`.
-/

namespace Espalier.Template

open Espalier.Script Espalier.Text
open Reader (bracedKinds paramKinds)

/-! ## Code that is read on its own -/

/-- No scope of the statements declares, sets or switches on a reserved name. -/
def isAloof (ss : List Stmt) : Bool :=
  (ss :: stmtFunctionBodies ss).all fun body =>
    (varNamesAll body ++ targetsAll body).all (!Marker.isReserved ·)

/-- Statements of an author: they may stand among others. -/
structure Own (ss : List Stmt) : Prop where
  formed : FormedAll ss
  linked : linkedAll ss = true
  plain : startsPlain ss = true
  aloof : isAloof ss = true

/-- The statements that a text is read as on its own. -/
@[irreducible]
def own? (text : List Char) : Option (List Stmt) :=
  (parse (String.ofList text)).filter fun ss => linkedAll ss && startsPlain ss && isAloof ss

theorem own_of_own? {text : List Char} {ss : List Stmt} (h : own? text = some ss) : Own ss := by
  rw [own?] at h
  obtain ⟨hparse, hown⟩ := Option.filter_eq_some_iff.1 h
  simp only [Bool.and_eq_true] at hown
  exact ⟨formedAll_of_parse hparse, hown.1.1, hown.1.2, hown.2⟩

theorem Own.phrase {text : List Char} {ss : List Stmt} (h : Own ss)
    (hpassage : Passage text (stmtKinds ss)) : Phrase text ss :=
  ⟨hpassage, h.formed, h.linked, h.plain⟩

/-- The statements that a text is read as, wherever it stands. -/
def line? (text : List Char) : Option (List Stmt) :=
  (own? text).filter fun ss => isLine text (stmtKinds ss)

theorem own_of_line? {text : List Char} {ss : List Stmt} (h : line? text = some ss) :
    Own ss ∧ isLine text (stmtKinds ss) = true := by
  obtain ⟨hown, hline⟩ := Option.filter_eq_some_iff.1 h
  exact ⟨own_of_own? hown, hline⟩

/-! ## Pieces of code -/

/-- The line of a call. -/
def callLine (name args : List Char) : List Char :=
  name ++ '(' :: (args ++ [')', ';', '\n'])

/-- The text is the arguments of a call. -/
def isArguments (args : List Char) : Bool :=
  match line? (callLine ['f'] args) with
  | some [.expr (.call (.name id) _)] => id == "f"
  | _ => false

/-- The line of an assignment. -/
def assignLine (name value : List Char) : List Char :=
  name ++ '=' :: (value ++ [';', '\n'])

/-- The text is a value to assign. -/
def isSubject (value : List Char) : Bool :=
  match line? (assignLine ['f'] value) with
  | some [.expr (.assign .plain (.name id) _)] => id == "f"
  | _ => false

/-- The line of a label. -/
def caseLine (label : List Char) : List Char :=
  "case ".toList ++ label ++ [':', '\n']

-- unfolding goes through the characters of the literal, rewriting does not
theorem caseLine_eq (label : List Char) :
    caseLine label = "case ".toList ++ label ++ [':', '\n'] := rfl

/-- The text is the label of a clause. -/
def isLabel (label : List Char) : Bool :=
  match own? ("switch(f)\x7b\n".toList ++ caseLine label ++ "\x7d\n".toList) with
  | some [.switch (.name id) [.on e []]] =>
    id == "f" && isLine (caseLine label) (.keyword .case :: (e.kinds ++ [.mark .colon]))
  | _ => false

/-- The line of an iteration, up to the body of its function. -/
def eachLine (name collection params : List Char) : List Char :=
  name ++ '(' :: (collection ++ ",function(".toList ++ params ++ ")\x7b\n".toList)

/-- The tokens of an iteration, behind its name and up to the body of its function. -/
def eachKinds (collection : Expr) (params : List String) : List TokenKind :=
  .mark .lparen :: (collection.kinds ++ .mark .comma :: .keyword .function
    :: (paramKinds params ++ [.mark .lbrace]))

/-- The texts are a collection and the parameters of a function. -/
def isIteration (collection params : List Char) : Bool :=
  match own? (eachLine ['f'] collection params ++ "\x7d);\n".toList) with
  | some [.expr (.call (.name id) [e, .func none names []])] =>
    id == "f" && isLine (eachLine ['f'] collection params) (.name "f" :: eachKinds e names)
  | _ => false

/-- The text is the head of a statement. -/
def isHead (text : List Char) : Bool :=
  match own? (text ++ "\n\x7b\n\x7d\n".toList) with
  | some [s] => s.hangs && isLine (text ++ ['\n']) s.headKinds
  | _ => false

/-- The text is whole statements. -/
def isStatements (text : List Char) : Bool :=
  (line? (text ++ ['\n'])).isSome

/-! ## What the pieces stand for -/

section
variable {core : String} (hword : IsWord (Marker.reserve core))
include hword

theorem isName_reserve : IsName (Marker.reserve core) := by
  have htoken := wordToken_reserve core
  unfold wordToken at htoken
  split at htoken
  case h_1 => cases htoken
  case h_2 hnone => exact isName_of_word ⟨hword, hnone⟩

/-- A call of a reserved name. -/
theorem exists_call {args : List Char} (h : isArguments args = true) :
    ∃ es, Phrase (callLine (Marker.reserve core).toList args)
        [.expr (.call (.name (Marker.reserve core)) es)] ∧
      isAloof [.expr (.call (.name (Marker.reserve core)) es)] = true := by
  unfold isArguments at h
  split at h
  case h_2 => cases h
  case h_1 id es hline =>
    obtain ⟨hown, hline⟩ := own_of_line? hline
    obtain rfl := eq_of_beq h
    have hpassage := passage_of_named hline (.inl rfl) hword (wordToken_reserve core)
    obtain ⟨⟨⟨-, hargs⟩, -⟩, -⟩ := hown.formed
    refine ⟨es, ⟨hpassage, ?_, hown.linked, rfl⟩, hown.aloof⟩
    exact ⟨⟨⟨isName_reserve hword, hargs⟩, rfl, rfl⟩, trivial⟩

/-- An assignment to a reserved name. -/
theorem exists_subject {value : List Char} (h : isSubject value = true) :
    ∃ e, Phrase (assignLine (Marker.reserve core).toList value)
        [.expr (.assign .plain (.name (Marker.reserve core)) e)] ∧
      Phrase ("var ".toList ++ assignLine (Marker.reserve core).toList value)
        [.vars [.init (Marker.reserve core) e]] ∧
      isAloof [.expr (.assign .plain (.name "f") e)] = true := by
  unfold isSubject at h
  split at h
  case h_2 => cases h
  case h_1 id e hline =>
    obtain ⟨hown, hline⟩ := own_of_line? hline
    obtain rfl := eq_of_beq h
    have hname := isName_reserve hword
    have hpassage := passage_of_named hline (.inr rfl) hword
      (wordToken_reserve core)
    obtain ⟨⟨⟨-, -, he, hrank⟩, -⟩, -⟩ := hown.formed
    have hassign : ((Expr.name "f").linked && e.linked) = true :=
      (Bool.and_eq_true_iff.1 hown.linked).1
    have hlinked := (Bool.and_eq_true_iff.1 hassign).2
    refine ⟨e, ⟨hpassage, ⟨⟨⟨hname, Nat.le_add_right 13 2, he, hrank⟩, rfl, rfl⟩, trivial⟩,
      hown.linked, rfl⟩, .single ?_ ?_ ((Bool.and_true _).trans hlinked) rfl, hown.aloof⟩
    · have hkeyword : IsWord "var" := by decide
      have hvar : wordToken "var" = .keyword .var := by decide
      have hdeclared := hpassage.blank.word hkeyword (by decide) (by decide)
        fun haccessor => absurd haccessor (by decide)
      rw [hvar] at hdeclared
      simpa [assignLine, Stmt.kinds, bindingKinds, Binding.kinds, stmtKinds] using hdeclared
    · exact ⟨List.cons_ne_nil _ _, ⟨hname, he, hrank⟩, trivial⟩

end

/-- A label of a clause. -/
theorem exists_label {label : List Char} (h : isLabel label = true) :
    ∃ e, Passage (caseLine label) (.keyword .case :: (e.kinds ++ [.mark .colon])) ∧
      Own [.switch (.name "f") [.on e []]] := by
  unfold isLabel at h
  split at h
  case h_2 => cases h
  case h_1 id e hown =>
    obtain ⟨hid, hline⟩ := Bool.and_eq_true_iff.1 h
    obtain rfl := eq_of_beq hid
    exact ⟨e, passage_of_isLine hline, own_of_own? hown⟩

/-- The collection and the parameters of an iteration. -/
theorem exists_iteration {collection params : List Char} (h : isIteration collection params = true)
    {core : String} (hword : IsWord (Marker.reserve core)) :
    ∃ e names, Passage (eachLine (Marker.reserve core).toList collection params)
        (.name (Marker.reserve core) :: eachKinds e names) ∧
      Own [.expr (.call (.name "f") [e, .func none names []])] := by
  unfold isIteration at h
  split at h
  case h_2 => cases h
  case h_1 id e names hown =>
    obtain ⟨hid, hline⟩ := Bool.and_eq_true_iff.1 h
    obtain rfl := eq_of_beq hid
    exact ⟨e, names, passage_of_named hline (.inl rfl) hword
      (wordToken_reserve core), own_of_own? hown⟩

section
variable {front a tail : List Char} {id : String} {e : Expr} {names : List String}
  {ss ss' : List Stmt} {others : List Expr}

/-- The end of an iteration without an alternative. -/
theorem passage_end : Passage ");\n".toList (moreArgKinds [] ++ [.mark .semi]) := by
  have hsemi : Passage ";\n".toList [.mark .semi] := @passage_markLine .semi rfl
  exact @Passage.mark _ _ hsemi .rparen rfl

/-- The function for an empty collection, and the end of the iteration. -/
theorem passage_alternative (h : Phrase a ss') :
    Passage (",function()\x7b\n".toList ++ a ++ "\x7d".toList ++ ");\n".toList)
      (moreArgKinds [.func none [] ss'] ++ [.mark .semi]) := by
  have hfunction : Passage "function()\x7b\n".toList
      [.keyword .function, .mark .lparen, .mark .rparen, .mark .lbrace] :=
    passage_of_isLine (by decide +kernel)
  have hclose : Passage ('\x7d' :: _) _ := @Passage.mark _ _ passage_end .rbrace rfl
  have hcomma : Passage (',' :: _) _ :=
    @Passage.mark _ _ ((hfunction.append h.passage).append hclose) .comma rfl
  simpa [moreArgKinds, Expr.kinds, nameKinds, paramKinds, bracedKinds] using hcomma

/-- An iteration. -/
theorem phrase_iteration (hfront : Passage front (.name id :: eachKinds e names))
    (hown : Own [.expr (.call (.name "f") [e, .func none names []])]) (hid : IsName id)
    (h : Phrase a ss) (htail : Passage tail (moreArgKinds others ++ [.mark .semi]))
    (hformed : FormedArgs others) (hlinked : linkedExprs others = true) :
    Phrase (front ++ a ++ '\x7d' :: tail)
      [.expr (.call (.name id) (e :: .func none names ss :: others))] := by
  obtain ⟨⟨⟨-, -, he, hrank, ⟨hnone, hnames, -⟩, hfunction, -⟩, -⟩, -⟩ := hown.formed
  have hlinkede : e.linked = true := by
    have hall := hown.linked
    simp only [linkedAll, Stmt.linked, Expr.linked, linkedExprs, Bool.and_eq_true] at hall
    exact hall.1.2.1
  refine .single ?_ ?_ ?_ rfl
  · have hclose : Passage ('\x7d' :: _) _ := @Passage.mark _ _ htail .rbrace rfl
    have hall := (hfront.append h.passage).append hclose
    simpa [Stmt.kinds, Expr.kinds, argKinds, moreArgKinds, eachKinds, nameKinds, bracedKinds]
      using hall
  · exact ⟨⟨hid, Nat.le_succ 14, he, hrank, ⟨hnone, hnames, h.formed⟩, hfunction, hformed⟩, rfl,
      rfl⟩
  · simp [Stmt.linked, Expr.linked, linkedExprs, hlinkede, h.linked, hlinked]

end

/-- A head of a statement. -/
theorem exists_head {text : List Char} (h : isHead text = true) :
    ∃ s, s.hangs = true ∧ Passage (text ++ ['\n']) s.headKinds ∧ Own [s] := by
  unfold isHead at h
  split at h
  case h_2 => cases h
  case h_1 s hown =>
    obtain ⟨hs, hline⟩ := Bool.and_eq_true_iff.1 h
    exact ⟨s, hs, passage_of_isLine hline, own_of_own? hown⟩

theorem exists_statements {text : List Char} (h : isStatements text = true) :
    ∃ ss, Phrase (text ++ ['\n']) ss ∧ isAloof ss = true := by
  obtain ⟨ss, hss⟩ := Option.isSome_iff_exists.1 h
  obtain ⟨hown, hline⟩ := own_of_line? hss
  exact ⟨ss, hown.phrase (passage_of_isLine hline), hown.aloof⟩

/-! ## Regular trees -/

/-- The text of a line comment. -/
def isRemark (value : String) : Bool :=
  value.toList.all (!endsLine ·)

mutual

/-- No choice stands in the node, but in the iterations of it. -/
def Node.isQuiet : Node String → Bool
  | .block b => b.isQuiet
  | .tag _ _ _ _ block code => quietInline code && quietOptional block
  | .code c => c.isQuiet
  | .choice .. => false
  | .branch _ _ block => quietOptional block
  | .blockComment _ _ block buffered => !buffered || quietOptional block
  | _ => true

/-- No choice stands in the block, but in iterations. -/
def Block.isQuiet : Block String → Bool
  | .mk _ nodes => quietAll nodes

/-- `isQuiet` for a block that may be missing. -/
def quietOptional : Option (Block String) → Bool
  | none => true
  | some b => b.isQuiet

/-- `isQuiet` for several nodes. -/
def quietAll : List (Node String) → Bool
  | [] => true
  | n :: rest => n.isQuiet && quietAll rest

/-- `isQuiet` for embedded code. -/
def Code.isQuiet : Code String → Bool
  | .mk _ _ _ _ block => quietOptional block

/-- `isQuiet` for inline code. -/
def quietInline : Option (Code String) → Bool
  | none => true
  | some c => c.isQuiet

end

mutual

/-- The node is regular. -/
def Node.isRegular : Node String → Bool
  | .block b => b.isRegular
  | .tag _ name attrs spreads block code =>
    isArguments (elementArgs name attrs spreads) && regularInline code && regularOptional block
  | .text _ value =>
    (interpolate value).2.isNone && (interpolate value).1.all (isArguments ·.source.toList)
  | .code c => c.isRegular
  | .choice _ subject block => isSubject subject.toList && regularChoice block
  | .each _ collection value key block alternative =>
    isIteration collection.toList (eachParams value key).toList && regularOptional block &&
      regularOptional alternative
  | .slot _ => true
  | .comment _ value buffered => !buffered || isRemark value
  | .blockComment _ _ block buffered =>
    !buffered || (firstFault (insideOptional block)).isNone && quietOptional block
  | .literal _ value => isStatements value.toList
  | .branch .. | .doctype .. | .mixin .. | .filter .. => false

/-- All nodes of the block are regular. -/
def Block.isRegular : Block String → Bool
  | .mk _ nodes => regularAll nodes

/-- The block is regular, if there is one. -/
def regularOptional : Option (Block String) → Bool
  | none => true
  | some b => b.isRegular

/-- All nodes are regular. -/
def regularAll : List (Node String) → Bool
  | [] => true
  | n :: rest => n.isRegular && regularAll rest

/-- The code is an expression to output, the head of a statement or statements, and its block is
regular. -/
def Code.isRegular : Code String → Bool
  | .mk _ value buffered _ block =>
    (if buffered then isArguments value.toList
      else if block.isSome then isHead value.toList else isStatements value.toList) &&
        regularOptional block

/-- The inline code is regular, if there is some. -/
def regularInline : Option (Code String) → Bool
  | none => true
  | some c => c.isRegular

/-- The block of a choice holds branches only, and at most one of them is the default. -/
def regularChoice : Option (Block String) → Bool
  | none => false
  | some (.mk _ nodes) => regularBranches nodes && nodes.countP isDefault ≤ 1

/-- All nodes are branches with labels and regular blocks, or comments. -/
def regularBranches : List (Node String) → Bool
  | [] => true
  | .branch _ label block :: rest =>
    (label == "default" || isLabel label.toList) && regularOptional block && regularBranches rest
  | .comment _ value buffered :: rest => (!buffered || isRemark value) && regularBranches rest
  | _ :: _ => false

end

/-! ## Structural trees -/

theorem spellsAll_of_kinds (ambiguous : Bool) (ts : List Token) :
    spellsAll ambiguous ts (ts.map (·.kind)) = true := by
  induction ts generalizing ambiguous with
  | nil => rfl
  | cons t ts ih =>
    rw [List.map_cons, spellsAll, beq_self_eq_true, ih]
    rfl

/-- Spelled text is a line, if its first and its last token are those of one. -/
theorem isLine_of_spelled {parts : List Lexeme} {text : List Char} {ks : List TokenKind}
    (hspelled : Spelled parts) (htext : spelling parts = text) (hkinds : kinds parts = ks)
    (hstart : text.head?.any startsToken = true) (hend : Lined text)
    (hhead : ks.head? ≠ some (.mark .lparen)) (hlast : ks.getLast?.all (!·.leadsOn) = true)
    (hcross : (crossAll [] ks).isSome = true) : isLine text ks = true := by
  have htokens : (({} : LexState).tokens text).map (·.kind) = ks ++ [TokenKind.eof] := by
    have hsource : (String.ofList text).toList = spelling parts :=
      String.toList_ofList.trans htext.symm
    have hmap := tokenize_spelling hspelled hsource
    rwa [tokenize, String.toList_ofList, hkinds] at hmap
  have hspells := spellsAll_of_kinds false (({} : LexState).tokens text)
  rw [htokens] at hspells
  simp only [isLine, Bool.and_eq_true, beq_iff_eq, bne_iff_ne]
  exact ⟨⟨⟨⟨⟨hstart, List.getLast?_eq_some_iff.2 hend⟩, hhead⟩, hlast⟩, hcross⟩, hspells⟩

theorem own?_of_isLine {text : List Char} {ss : List Stmt} (h : Own ss)
    (hline : isLine text (stmtKinds ss) = true) : own? text = some ss := by
  have hphrase : Phrase (String.ofList text).toList ss := by
    rw [String.toList_ofList]
    exact h.phrase (passage_of_isLine hline)
  rw [own?]
  refine Option.filter_eq_some_iff.2 ⟨hphrase.parse_eq, ?_⟩
  rw [h.linked, h.plain, h.aloof]
  rfl

theorem line?_of_isLine {text : List Char} {ss : List Stmt} (h : Own ss)
    (hline : isLine text (stmtKinds ss) = true) : line? text = some ss :=
  Option.filter_eq_some_iff.2 ⟨own?_of_isLine h hline, hline⟩

theorem isName_of_isIdentifier {text : String} (h : isIdentifier text = true) : IsName text := by
  have htoken := wordToken_of_isIdentifier h
  unfold wordToken at htoken
  split at htoken
  case h_1 => cases htoken
  case h_2 hnone => exact isName_of_word ⟨isWord_of_isIdentifier h, hnone⟩

theorem isName_f : IsName "f" :=
  isName_of_word (by decide)

theorem wordToken_f : wordToken "f" = .name "f" := by decide

theorem isArguments_of_spelled {args : List Lexeme} {es : List Expr}
    (hspelled : Spelled (callParts "f" args)) (hkinds : kinds args ++ [.mark .rparen] = argKinds es)
    (hformed : FormedArgs es) (hlinked : linkedExprs es = true)
    (haloof : isAloof [.expr (.call (.name "f") es)] = true)
    (hcross : (crossAll [] (.name "f" :: .mark .lparen :: (argKinds es ++ [.mark .semi]))).isSome
      = true) : isArguments (spelling args) = true := by
  have hown : Own [.expr (.call (.name "f") es)] := by
    have hall : (linkedExprs es && true) = true := by rw [hlinked]; rfl
    exact ⟨⟨⟨⟨isName_f, Nat.le_succ 14, hformed⟩, rfl, rfl⟩, trivial⟩, hall, rfl, haloof⟩
  have hstatement : stmtKinds [.expr (.call (.name "f") es)]
      = .name "f" :: .mark .lparen :: (argKinds es ++ [.mark .semi]) := by
    simp [stmtKinds, Stmt.kinds, Expr.kinds]
  have hparts : kinds (callParts "f" args) = .name "f" :: .mark .lparen :: (argKinds es
      ++ [.mark .semi]) := by
    rw [← hkinds]
    simp [callParts, wordToken_f, kinds_append]
  have hline : line? (callLine ['f'] (spelling args)) = some [.expr (.call (.name "f") es)] := by
    refine line?_of_isLine hown ?_
    rw [hstatement]
    refine isLine_of_spelled hspelled (spelling_callParts "f" args) hparts rfl
      ⟨'f' :: '(' :: (spelling args ++ [')', ';']), ?_⟩ (by rintro ⟨⟩) ?_ hcross
    · simp [callLine]
    · rw [← List.cons_append, ← List.cons_append, List.getLast?_concat]
      rfl
  unfold isArguments
  rw [hline]
  rfl

theorem isArguments_of_identifier {text : String} (h : isIdentifier text = true) :
    isArguments text.toList = true := by
  have htext : spelling [.word text] = text.toList := by simp [spelling, Lexeme.chars]
  have hkinds : kinds [.word text] ++ [.mark .rparen] = argKinds [.name text] := by
    rw [kinds_word, wordToken_of_isIdentifier h]
    rfl
  rw [← htext]
  have hspelled : Spelled (callParts "f" [.word text]) :=
    spelled_callParts_word (by decide) (isWord_of_isIdentifier h)
  exact isArguments_of_spelled hspelled hkinds
    ⟨isName_of_isIdentifier h, Nat.le_add_left 1 14, trivial⟩ rfl rfl rfl

/-- A string literal is a literal of the grammar. -/
theorem genuine_quote (text : String) : (TokenKind.string (quote text)).Genuine :=
  ⟨{}, _, none, [], look_literal {} text []⟩

theorem isArguments_of_literal (text : String) : isArguments (quote text).toList = true := by
  have htext : spelling [.literal text] = (quote text).toList := by simp [spelling, Lexeme.chars]
  have hkinds : kinds [.literal text] ++ [.mark .rparen] = argKinds [.string (quote text)] := rfl
  rw [← htext]
  exact isArguments_of_spelled (spelled_callParts_literal (by decide) text) hkinds
    ⟨genuine_quote text, Nat.le_add_left 1 14, trivial⟩ rfl rfl rfl

theorem isArguments_of_hostName {name : String} (h : isHostName name = true) :
    isArguments (elementArgs name [] []) = true := by
  have htype : elementType name = quote name := if_pos h
  have htext : spelling [.literal name, .mark .comma, .word "null"] = elementArgs name [] [] := by
    rw [elementArgs, htype]
    simp [spelling, Lexeme.chars, Mark.text]
    rfl
  have hspelled : Spelled (callParts "f" [.literal name, .mark .comma, .word "null"]) := by
    have hnull : IsWord "null" := by decide
    have hf : IsWord "f" := by decide
    simp [Spelled, callParts, Lexeme.Before, Mark.isPlain, hf, hnull]
  have hkinds : kinds [.literal name, .mark .comma, .word "null"] ++ [.mark .rparen]
      = argKinds [.string (quote name), .null] := by
    simp [wordToken_null, argKinds, moreArgKinds, Expr.kinds]
  rw [← htext]
  exact isArguments_of_spelled hspelled hkinds
    ⟨genuine_quote name, Nat.le_add_left 1 14, trivial, Nat.le_add_left 1 14, trivial⟩ rfl rfl rfl

theorem isSubject_of_identifier {text : String} (h : isIdentifier text = true) :
    isSubject text.toList = true := by
  have hname := isName_of_isIdentifier h
  have htoken := wordToken_of_isIdentifier h
  have hown : Own [.expr (.assign .plain (.name "f") (.name text))] :=
    ⟨⟨⟨⟨isName_f, Nat.le_add_right 13 2, hname, Nat.le_add_left 1 14⟩, rfl, rfl⟩, trivial⟩, rfl,
      rfl, rfl⟩
  have hspelled : Spelled (subjectParts ["f"] "f" text) :=
    spelled_subjectParts (by decide) (isWord_of_isIdentifier h)
  have hline : line? (assignLine ['f'] text.toList)
      = some [.expr (.assign .plain (.name "f") (.name text))] := by
    refine line?_of_isLine hown (isLine_of_spelled hspelled ?_ ?_ rfl
      ⟨'f' :: '=' :: (text.toList ++ [';']), ?_⟩ (by rintro ⟨⟩) rfl rfl)
    · simp [subjectParts, assignLine, spelling, Lexeme.chars, Mark.text, AssignOp.text]
    · simp [subjectParts, wordToken_f, htoken, stmtKinds, Stmt.kinds, Expr.kinds]
    · simp [assignLine]
  unfold isSubject
  rw [hline]
  rfl

theorem isLabel_of_identifier {text : String} (h : isIdentifier text = true)
    (hdefault : text ≠ "default") : isLabel text.toList = true := by
  have hname := isName_of_isIdentifier h
  have htoken := wordToken_of_isIdentifier h
  have hcase : wordToken "case" = .keyword .case := by decide
  have hswitch : wordToken "switch" = .keyword .switch := by decide
  have hlabel : Spelled (labelParts text) := spelled_labelParts (.inr h)
  have hparts : spelling (labelParts text) = caseLine text.toList := by
    simp [labelParts, hdefault, caseLine_eq, spelling, Lexeme.chars, Mark.text]
  have hkinds : kinds (labelParts text) = [.keyword .case, .name text, .mark .colon] := by
    simp [labelParts, hdefault, hcase, htoken]
  have hline : isLine (caseLine text.toList) [.keyword .case, .name text, .mark .colon] = true := by
    refine isLine_of_spelled hlabel hparts hkinds rfl ⟨"case ".toList ++ text.toList ++ [':'], ?_⟩
      (by rintro ⟨⟩) rfl rfl
    simp [caseLine_eq]
  have hown : Own [.switch (.name "f") [.on (.name text) []]] :=
    ⟨⟨⟨isName_f, ⟨hname, trivial, trivial⟩, Nat.zero_le 1⟩, trivial⟩, rfl, rfl, rfl⟩
  have hall : own? ("switch(f)\x7b\n".toList ++ caseLine text.toList ++ "\x7d\n".toList)
      = some [.switch (.name "f") [.on (.name text) []]] := by
    have hspelled := ((spelled_switchParts (by decide : IsWord "f")).append hlabel).append
      spelled_closingParts
    refine own?_of_isLine hown (isLine_of_spelled hspelled ?_ ?_ rfl
      ⟨"switch(f)\x7b\n".toList ++ caseLine text.toList ++ ['\x7d'], ?_⟩ (by rintro ⟨⟩) rfl rfl)
    · rw [spelling_append, spelling_append, hparts]
      rfl
    · rw [kinds_append, kinds_append, hkinds]
      simp [switchParts, closingParts, hswitch, wordToken_f, stmtKinds, Stmt.kinds, Expr.kinds,
        clauseKinds, bracedKinds]
    · simp
  unfold isLabel
  rw [hall]
  exact Bool.and_eq_true_iff.2 ⟨rfl, hline⟩

theorem isIteration_of_identifiers {collection value : String} {key : Option String}
    (hcollection : isIdentifier collection = true)
    (hnames : ∀ name ∈ value :: key.toList, isIdentifier name = true) :
    isIteration collection.toList (eachParams value key).toList = true := by
  let names := value :: key.toList
  have hname := isName_of_isIdentifier hcollection
  have htoken := wordToken_of_isIdentifier hcollection
  have hf : IsWord "f" := by decide
  let head : List Lexeme :=
    [.word "f", .mark .lparen, .word collection, .mark .comma] ++ headParts names
  have hhead : Spelled head :=
    ⟨⟨hf, .inl rfl⟩, .inl rfl, ⟨isWord_of_isIdentifier hcollection, .inl rfl⟩, .inl rfl,
      spelled_headParts hnames⟩
  have hparts : spelling head = eachLine ['f'] collection.toList (eachParams value key).toList := by
    have hfunction : spelling (headParts names)
        = "function(".toList ++ (eachParams value key).toList ++ ")\x7b\n".toList := by
      rw [headParts, spelling_cons, spelling_cons, spelling_append, ← spelling_eachParams]
      simp [openingParts, spelling, Lexeme.chars, Mark.text]
    rw [spelling_append, hfunction]
    simp [eachLine, spelling, Lexeme.chars, Mark.text]
  have hkinds : kinds head = .name "f" :: eachKinds (.name collection) names := by
    rw [kinds_append, kinds_headParts hnames]
    simp [wordToken_f, htoken, eachKinds, Expr.kinds, names]
  have hline : isLine (eachLine ['f'] collection.toList (eachParams value key).toList)
      (.name "f" :: eachKinds (.name collection) names) = true := by
    refine isLine_of_spelled hhead hparts hkinds rfl ?_ (by rintro ⟨⟩) ?_ ?_
    · exact ⟨'f' :: '(' :: (collection.toList ++ ",function(".toList
        ++ (eachParams value key).toList ++ ")\x7b".toList), by simp [eachLine]⟩
    · cases key <;> rfl
    · cases key <;> rfl
  have hformed : ∀ name ∈ names, IsName name := fun name hname =>
    isName_of_isIdentifier (hnames name hname)
  have hown : Own [.expr (.call (.name "f") [.name collection, .func none names []])] :=
    ⟨⟨⟨⟨isName_f, Nat.le_succ 14, hname, Nat.le_add_left 1 14, ⟨by rintro _ ⟨⟩, hformed, trivial⟩,
      Nat.le_add_left 1 14, trivial⟩, rfl, rfl⟩, trivial⟩, rfl, rfl, rfl⟩
  have hclose : Spelled [.mark .rbrace, .mark .rparen, .mark .semi, .line] :=
    ⟨.inl rfl, .inl rfl, .inl rfl, trivial⟩
  have hall : own? (eachLine ['f'] collection.toList (eachParams value key).toList
      ++ "\x7d);\n".toList)
      = some [.expr (.call (.name "f") [.name collection, .func none names []])] := by
    refine own?_of_isLine hown
      (isLine_of_spelled (hhead.append hclose) ?_ ?_ rfl ?_ (by rintro ⟨⟩) ?_ ?_)
    · rw [spelling_append, hparts]
      rfl
    · rw [kinds_append, hkinds]
      simp [eachKinds, stmtKinds, Stmt.kinds, Expr.kinds, argKinds, moreArgKinds, nameKinds,
        bracedKinds]
    · exact ⟨eachLine ['f'] collection.toList (eachParams value key).toList ++ "\x7d);".toList,
        by simp⟩
    · cases key <;> rfl
    · cases key <;> rfl
  unfold isIteration
  rw [hall]
  exact Bool.and_eq_true_iff.2 ⟨rfl, hline⟩

theorem isRegular_text {line : Int} {value : String}
    (h : opensInterpolation value.toList = false) : (Node.text line value).isRegular = true := by
  rw [Node.isRegular, interpolate_of_plain h]
  by_cases hempty : value = ""
  · rw [if_pos hempty]
    rfl
  · rw [if_neg hempty, List.all_cons, isArguments_of_literal]
    rfl

mutual

/-- A structural node is regular. -/
theorem Node.isRegular_of_structural : ∀ (n : Node String), n.structural = true →
    n.isRegular = true
  | .block b, h => b.isRegular_of_structural h
  | .tag _ name attrs spreads block code, h => by
    simp only [Node.structural, Bool.and_eq_true, List.isEmpty_iff] at h
    obtain ⟨⟨⟨⟨hname, rfl⟩, rfl⟩, hblock⟩, hcode⟩ := h
    simp only [Node.isRegular, Bool.and_eq_true]
    exact ⟨⟨isArguments_of_hostName hname, regularInline_of_structural code hcode⟩,
      regularOptional_of_structural block hblock⟩
  | .text _ value, h => by
    rw [Node.structural, Bool.not_eq_true'] at h
    exact isRegular_text h
  | .code c, h => c.isRegular_of_structural h
  | .choice _ subject none, h => by
    rw [Node.structural, structuralChoice, Bool.and_false] at h
    cases h
  | .choice _ subject (some (.mk _ nodes)), h => by
    simp only [Node.structural, structuralChoice, Bool.and_eq_true] at h
    simp only [Node.isRegular, regularChoice, Bool.and_eq_true]
    exact ⟨isSubject_of_identifier h.1, regularBranches_of_structural nodes h.2.1, h.2.2⟩
  | .each _ collection value key block alternative, h => by
    simp only [Node.structural, Bool.and_eq_true] at h
    obtain ⟨⟨⟨⟨hcollection, hvalue⟩, hkey⟩, hblock⟩, halternative⟩ := h
    have hnames : ∀ name ∈ value :: key.toList, isIdentifier name = true := by
      rw [List.forall_mem_cons]
      refine ⟨hvalue, ?_⟩
      cases key with
      | none => exact nofun
      | some key => simpa using hkey
    simp only [Node.isRegular, Bool.and_eq_true]
    exact ⟨⟨isIteration_of_identifiers hcollection hnames,
      regularOptional_of_structural block hblock⟩,
      regularOptional_of_structural alternative halternative⟩
  | .slot _, _ => rfl

theorem Block.isRegular_of_structural : ∀ (b : Block String), b.structural = true →
    b.isRegular = true
  | .mk _ nodes, h => regularAll_of_structural nodes h

theorem regularOptional_of_structural : ∀ (block : Option (Block String)),
    structuralOptional block = true → regularOptional block = true
  | none, _ => rfl
  | some b, h => b.isRegular_of_structural h

theorem regularAll_of_structural : ∀ (nodes : List (Node String)), structuralAll nodes = true →
    regularAll nodes = true
  | [], _ => rfl
  | n :: rest, h => by
    obtain ⟨hn, hrest⟩ := Bool.and_eq_true_iff.1 h
    exact Bool.and_eq_true_iff.2
      ⟨n.isRegular_of_structural hn, regularAll_of_structural rest hrest⟩

theorem Code.isRegular_of_structural : ∀ (c : Code String), c.structural = true →
    c.isRegular = true
  | .mk _ value buffered _ block, h => by
    simp only [Code.structural, Bool.and_eq_true] at h
    obtain ⟨⟨rfl, hvalue⟩, hblock⟩ := h
    exact Bool.and_eq_true_iff.2
      ⟨isArguments_of_identifier hvalue, regularOptional_of_structural block hblock⟩

theorem regularInline_of_structural : ∀ (code : Option (Code String)),
    structuralInline code = true → regularInline code = true
  | none, _ => rfl
  | some c, h => c.isRegular_of_structural h

theorem regularBranches_of_structural : ∀ (nodes : List (Node String)),
    structuralBranches nodes = true → regularBranches nodes = true
  | [], _ => rfl
  | .branch _ label block :: rest, h => by
    simp only [structuralBranches, Bool.and_eq_true, Bool.or_eq_true, beq_iff_eq] at h
    obtain ⟨⟨hlabel, hblock⟩, hrest⟩ := h
    simp only [regularBranches, Bool.and_eq_true, Bool.or_eq_true, beq_iff_eq]
    refine ⟨⟨?_, regularOptional_of_structural block hblock⟩,
      regularBranches_of_structural rest hrest⟩
    by_cases hdefault : label = "default"
    · exact .inl hdefault
    · exact .inr (isLabel_of_identifier (hlabel.resolve_left hdefault) hdefault)

end

end Espalier.Template
