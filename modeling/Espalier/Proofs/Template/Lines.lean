import Espalier.Proofs.Script.Reading
import Espalier.Proofs.Template.Structural

/-!
# The lines of generated source

The lines that structural templates are generated as, in parts: calls of the markers, functions of
iterations, and switches of choices. Each kind of line is spelled (`spelled_iteration`,
`spelled_subjectParts`, …) and read as the statement it is meant to be (`reads_element`,
`reads_iteration`, `reads_subject`, `reads_switch`, `reads_branch`).
-/

namespace Espalier.Template

open Espalier.Script Espalier.Text

/-! ## Words -/

theorem isWord_of_parts {text : String} {c : Char} {cs : List Char} (htext : text.toList = c :: cs)
    (hstart : isNameStart c = true) (hspace : isSpace c = false)
    (hparts : ∀ d ∈ cs, isNamePart d = true) : IsWord text where
  start := by simp [htext, hstart, hspace]
  rest := by
    rw [htext, List.dropWhile_cons_of_pos hstart, List.all_eq_true]
    exact fun d hd => hparts d ((List.dropWhile_suffix _).subset hd)

theorem toNat_lt_of_part {c : Char} (h : (c.isAlphanum || c == '_' || c == '$') = true) :
    c.toNat < 128 := by
  simp only [Bool.or_eq_true, beq_iff_eq] at h
  rcases h with (h | rfl) | rfl
  · unfold Char.isAlphanum Char.isAlpha Char.isUpper Char.isLower Char.isDigit at h
    simp only [Bool.or_eq_true, Bool.and_eq_true, decide_eq_true_eq, ge_iff_le,
      UInt32.le_iff_toNat_le] at h
    change ((65 ≤ c.toNat ∧ c.toNat ≤ 90) ∨ 97 ≤ c.toNat ∧ c.toNat ≤ 122) ∨
      48 ≤ c.toNat ∧ c.toNat ≤ 57 at h
    omega
  · decide
  · decide

theorem isNameStart_of_letter {c : Char} (h : (c.isAlpha || c == '_' || c == '$') = true) :
    isNameStart c = true ∧ isSpace c = false := by
  have hpart : (c.isAlphanum || c == '_' || c == '$') = true := by
    rw [Char.isAlphanum]
    simp only [Bool.or_eq_true] at h ⊢
    exact h.imp_left (Or.imp_left Or.inl)
  have hascii := toNat_lt_of_part hpart
  constructor
  · rw [isNameStart, if_pos hascii]
    exact h
  · have hspaces : ∀ n < 128, isSpace (Char.ofNat n) = true →
        ((Char.ofNat n).isAlpha || Char.ofNat n == '_' || Char.ofNat n == '$') = false := by decide
    apply Bool.eq_false_iff.2
    intro hspace
    have hnot := hspaces c.toNat hascii (by rwa [Char.ofNat_toNat])
    rw [Char.ofNat_toNat, h] at hnot
    cases hnot

theorem isNamePart_of_part {c : Char} (h : (c.isAlphanum || c == '_' || c == '$') = true) :
    isNamePart c = true := by
  rw [isNamePart, if_pos (toNat_lt_of_part h)]
  exact h

theorem isWord_of_isIdentifier {text : String} (h : isIdentifier text = true) : IsWord text := by
  unfold isIdentifier at h
  split at h
  case h_1 => cases h
  case h_2 c cs htext =>
    simp only [Bool.and_eq_true, List.all_eq_true] at h
    obtain ⟨hstart, hspace⟩ := isNameStart_of_letter h.1.1
    exact isWord_of_parts htext hstart hspace fun d hd => isNamePart_of_part (h.1.2 d hd)

theorem wordToken_of_isIdentifier {text : String} (h : isIdentifier text = true) :
    wordToken text = .name text := by
  unfold isIdentifier at h
  split at h
  case h_1 => cases h
  case h_2 =>
    rw [Bool.and_eq_true, Option.isNone_iff_eq_none] at h
    rw [wordToken, h.2]

/-- A reserved name is a word when its core is part of one. -/
theorem isWord_reserve {core : String} (h : core.toList.all isNamePart = true) :
    IsWord (Marker.reserve core) := by
  have hchars : (Marker.reserve core).toList
      = Marker.opening :: (core.toList ++ [Marker.closing]) := by
    simp [Marker.reserve]
  have hclosing : isNamePart Marker.closing = true := by decide
  refine isWord_of_parts hchars (by decide) (by decide) ?_
  simp only [List.forall_mem_append, List.forall_mem_singleton]
  exact ⟨List.all_eq_true.1 h, hclosing⟩

theorem wordToken_reserve (core : String) :
    wordToken (Marker.reserve core) = .name (Marker.reserve core) := by
  have hfirst : ∀ k ∈ Keyword.all, k.text.toList.head? ≠ some Marker.opening := by decide
  have hnone : Keyword.ofText? (Marker.reserve core) = none := by
    rw [Keyword.ofText?, List.find?_eq_none]
    intro k hk heq
    refine hfirst k hk ?_
    rw [beq_iff_eq.1 heq]
    simp [Marker.reserve]
  rw [wordToken, hnone]

theorem wordToken_null : wordToken "null" = .keyword .null := by decide

theorem isWord_element : IsWord Marker.element := isWord_reserve (by decide)

theorem isWord_text : IsWord Marker.text := isWord_reserve (by decide)

theorem isWord_raw : IsWord Marker.raw := isWord_reserve (by decide)

theorem isWord_iterate : IsWord Marker.iterate := isWord_reserve (by decide)

/-- The variable of a choice inside the root. -/
theorem isWord_temporary {depth : Int} (h : 0 ≤ depth) : IsWord (Marker.temporary depth) := by
  obtain ⟨n, rfl⟩ := Int.eq_ofNat_of_zero_le h
  have hdigits : (toString (n : Int)).toList.all isNamePart = true := by
    rw [List.all_eq_true]
    intro d hd
    have hdigit : d.isDigit = true := by
      change d ∈ n.repr.toList at hd
      rw [Nat.toList_repr] at hd
      exact Nat.isDigit_of_mem_toDigits (by decide) (by decide) hd
    exact isNamePart_of_part (by rw [Char.isAlphanum, hdigit]; simp)
  refine isWord_reserve ?_
  rw [String.toList_append, List.all_append, hdigits]
  decide

/-! ## Calls -/

/-- The line of a call. -/
def callParts (marker : String) (args : List Lexeme) : List Lexeme :=
  .word marker :: .mark .lparen :: (args ++ [Lexeme.mark .rparen, .mark .semi, .line])

theorem spelling_callParts (marker : String) (args : List Lexeme) :
    spelling (callParts marker args)
      = marker.toList ++ '(' :: (spelling args ++ [')', ';', '\n']) := by
  rw [callParts, ← List.singleton_append, spelling_append]
  simp [spelling, Lexeme.chars, Mark.text]

theorem kinds_callParts (core : String) (args : List Lexeme) :
    kinds (callParts (Marker.reserve core) args)
      = .name (Marker.reserve core) :: (.mark .lparen :: (kinds args ++ [TokenKind.mark .rparen])
        ++ [TokenKind.mark .semi]) := by
  simp [callParts, kinds_append, wordToken_reserve]

/-- A call with one argument. -/
theorem reads_output {core : String} {args : List Lexeme} {value : Expr}
    (h : Reader.ReadsArg (kinds args) value) :
    Reader.Reads (kinds (callParts (Marker.reserve core) args))
      [outputStmt (Marker.reserve core) value] := by
  rw [kinds_callParts]
  exact .of_takes rfl (Reader.takes_call (Reader.takes_arguments h .nil))

theorem spelled_callParts_literal {marker : String} (h : IsWord marker) (text : String) :
    Spelled (callParts marker [.literal text]) := by
  simp [Spelled, callParts, Lexeme.Before, Mark.isPlain, h]

theorem spelled_callParts_word {marker value : String} (h : IsWord marker) (hvalue : IsWord value) :
    Spelled (callParts marker [.word value]) := by
  simp [Spelled, callParts, Lexeme.Before, Mark.isPlain, h, hvalue]

/-- The argument that calls the block handed over. -/
def slotParts : List Lexeme :=
  [.word "block", .blank, .mark .question, .blank, .word "block", .mark .lparen, .mark .rparen,
    .blank, .mark .colon, .blank, .word "null"]

theorem spelled_callParts_slot {marker : String} (h : IsWord marker) :
    Spelled (callParts marker slotParts) := by
  have hblock : IsWord "block" := by decide
  have hnull : IsWord "null" := by decide
  simp [Spelled, callParts, slotParts, Lexeme.Before, Mark.isPlain, h, hblock, hnull]

/-- The opening of an element: its call, and the brace before its children. -/
def elementParts (name : String) : List Lexeme :=
  callParts Marker.element [.literal name, .mark .comma, .word "null"]
    ++ [Lexeme.mark .lbrace, .line]

theorem spelled_elementParts (name : String) : Spelled (elementParts name) := by
  have hnull : IsWord "null" := by decide
  simp [Spelled, elementParts, callParts, Lexeme.Before, Mark.isPlain, isWord_element, hnull]

/-- The line that closes braces. -/
def closingParts : List Lexeme :=
  [.mark .rbrace, .line]

theorem spelled_closingParts : Spelled closingParts :=
  ⟨.inl rfl, trivial⟩

/-- Children between the braces of an element. -/
theorem reads_element {name : String} {parts : List Lexeme} {ss : List Stmt}
    (h : Reader.Reads (kinds parts) ss) :
    Reader.Reads (kinds (elementParts name ++ parts ++ closingParts))
      [elementStmt name, .block ss] := by
  have hcall : Reader.Reads
      (kinds (callParts Marker.element [.literal name, .mark .comma, .word "null"]))
      [elementStmt name] := by
    have htype : Reader.ReadsArg [.string (quote name)] (.string (quote name)) := .atom rfl
    have hprops : Reader.ReadsArg [.keyword .null] .null := .atom rfl
    have hkinds : kinds [.literal name, .mark .comma, .word "null"] ++ [TokenKind.mark .rparen]
        = [TokenKind.string (quote name)]
          ++ .mark .comma :: ([TokenKind.keyword .null] ++ [TokenKind.mark .rparen]) := by
      simp [wordToken_null]
    rw [Marker.element, kinds_callParts, hkinds]
    exact .of_takes rfl (Reader.takes_call (Reader.takes_arguments htype (.cons hprops .nil)))
  have hblock : kinds ([Lexeme.mark .lbrace, .line] ++ parts ++ closingParts)
      = Reader.bracedKinds (kinds parts) := by
    rw [kinds_append, kinds_append]
    rfl
  rw [elementParts, List.append_assoc, List.append_assoc, kinds_append, ← List.append_assoc, hblock]
  exact hcall.append h.block

/-! ## Iterations -/

/-- The names of further parameters, each behind a comma. -/
def moreNameParts (names : List String) : List Lexeme :=
  names.flatMap fun name => [.mark .comma, .word name]

/-- The names of parameters, with commas between them. -/
def nameParts : List String → List Lexeme
  | [] => []
  | first :: others => .word first :: moreNameParts others

/-- What stands between the names of parameters and the body. -/
def openingParts : List Lexeme :=
  [.mark .rparen, .mark .lbrace, .line]

/-- The head of a function, up to the line end behind its brace. -/
def headParts (names : List String) : List Lexeme :=
  .word "function" :: .mark .lparen :: (nameParts names ++ openingParts)

/-- A function that has no name. -/
def functionParts (names : List String) (body : List Lexeme) : List Lexeme :=
  headParts names ++ body ++ [Lexeme.mark .rbrace]

theorem wordToken_function : wordToken "function" = .keyword .function := by decide

theorem kinds_moreNameParts {names : List String} (h : ∀ name ∈ names, isIdentifier name = true) :
    kinds (moreNameParts names) = Reader.moreNameKinds names := by
  induction names with
  | nil => rfl
  | cons name names ih =>
    obtain ⟨hname, hnames⟩ := List.forall_mem_cons.1 h
    rw [moreNameParts, List.flatMap_cons, kinds_append, ← moreNameParts, ih hnames]
    simp [wordToken_of_isIdentifier hname, Reader.moreNameKinds]

theorem kinds_headParts {names : List String} (h : ∀ name ∈ names, isIdentifier name = true) :
    kinds (headParts names)
      = .keyword .function :: (Reader.paramKinds names ++ [TokenKind.mark .lbrace]) := by
  cases names with
  | nil => simp [headParts, nameParts, openingParts, wordToken_function, Reader.paramKinds]
  | cons first others =>
    obtain ⟨hfirst, hothers⟩ := List.forall_mem_cons.1 h
    have hsplit : headParts (first :: others) = [Lexeme.word "function", .mark .lparen, .word first]
        ++ moreNameParts others ++ openingParts := by
      simp [headParts, nameParts]
    rw [hsplit, kinds_append, kinds_append, kinds_moreNameParts hothers]
    simp [openingParts, wordToken_function, wordToken_of_isIdentifier hfirst, Reader.paramKinds]

/-- A function is an argument. -/
theorem readsArg_function {names : List String} (h : ∀ name ∈ names, isIdentifier name = true)
    {body : List Lexeme} {ss : List Stmt} (hbody : Reader.Reads (kinds body) ss) :
    Reader.ReadsArg (kinds (functionParts names body)) (.func none names ss) := by
  have hkinds : kinds (functionParts names body)
      = .keyword .function :: (Reader.paramKinds names ++ Reader.bracedKinds (kinds body)) := by
    rw [functionParts, kinds_append, kinds_append, kinds_headParts h]
    simp [Reader.bracedKinds]
  rw [hkinds]
  exact .func hbody

theorem spelled_nameParts {first : String} {others : List String} (hfirst : IsWord first)
    (hothers : ∀ name ∈ others, IsWord name) :
    Spelled (nameParts (first :: others) ++ openingParts) := by
  induction others generalizing first with
  | nil => exact ⟨⟨hfirst, .inl rfl⟩, .inl rfl, .inl rfl, trivial⟩
  | cons name others ih =>
    obtain ⟨hname, hrest⟩ := List.forall_mem_cons.1 hothers
    exact ⟨⟨hfirst, .inl rfl⟩, .inl rfl, ih hname hrest⟩

theorem spelled_headParts {names : List String} (h : ∀ name ∈ names, isIdentifier name = true) :
    Spelled (headParts names) := by
  have hfunction : IsWord "function" := by decide
  cases names with
  | nil => exact ⟨⟨hfunction, .inl rfl⟩, .inl rfl, .inl rfl, .inl rfl, trivial⟩
  | cons first others =>
    obtain ⟨hfirst, hothers⟩ := List.forall_mem_cons.1 h
    exact ⟨⟨hfunction, .inl rfl⟩, .inl rfl, spelled_nameParts (isWord_of_isIdentifier hfirst)
      fun name hname => isWord_of_isIdentifier (hothers name hname)⟩

/-- The function for an empty collection, behind a comma. -/
def alternativeParts : Option (List Lexeme) → List Lexeme
  | none => []
  | some other => .mark .comma :: functionParts [] other

/-- The arguments of an iteration. -/
def iterationArgs (collection : String) (names : List String) (body : List Lexeme)
    (alternative : Option (List Lexeme)) : List Lexeme :=
  .word collection :: .mark .comma :: (functionParts names body ++ alternativeParts alternative)

theorem spelled_iteration {collection : String} {names : List String} {body : List Lexeme}
    {alternative : Option (List Lexeme)} (hcollection : isIdentifier collection = true)
    (hnames : ∀ name ∈ names, isIdentifier name = true) (hbody : Spelled body)
    (halternative : ∀ other, alternative = some other → Spelled other) :
    Spelled (callParts Marker.iterate (iterationArgs collection names body alternative)) := by
  have hhead : Spelled ([Lexeme.word Marker.iterate, .mark .lparen, .word collection, .mark .comma]
      ++ headParts names) :=
    ⟨⟨isWord_iterate, .inl rfl⟩, .inl rfl, ⟨isWord_of_isIdentifier hcollection, .inl rfl⟩, .inl rfl,
      spelled_headParts hnames⟩
  have hclose : Spelled [.mark .rbrace, .mark .rparen, .mark .semi, .line] :=
    ⟨.inl rfl, .inl rfl, .inl rfl, trivial⟩
  have htail : Spelled (.mark .rbrace :: (alternativeParts alternative
      ++ [Lexeme.mark .rparen, .mark .semi, .line])) := by
    cases alternative with
    | none => exact hclose
    | some other =>
      have hsecond : Spelled ([Lexeme.mark .rbrace, .mark .comma] ++ headParts []) :=
        ⟨.inl rfl, .inl rfl, spelled_headParts (List.forall_mem_nil _)⟩
      have hall := (hsecond.append (halternative other rfl)).append hclose
      simpa [alternativeParts, functionParts] using hall
  have hall := (hhead.append hbody).append htail
  simpa [callParts, iterationArgs, functionParts] using hall

theorem spelling_functionParts (names : List String) (body : List Lexeme) :
    spelling (functionParts names body)
      = "function(".toList ++ spelling (nameParts names) ++ ")\x7b\n".toList ++ spelling body
        ++ ['\x7d'] := by
  rw [functionParts, spelling_append, spelling_append, headParts, spelling_cons, spelling_cons,
    spelling_append]
  simp [spelling, openingParts, Lexeme.chars, Mark.text]

/-- The alternative of an iteration, as its last argument. -/
theorem exists_alternativeParts {alternative : Option (Block String)} {depth : Int}
    {source : String} {other : List Lexeme} (hsource : source.toList = spelling other)
    (hspelled : Spelled other)
    (hreads : Reader.Reads (kinds other) (translateOptional depth [] alternative).1) :
    ∃ found, (if alternative.isSome then ",function()\x7b\n" ++ source ++ "\x7d" else "").toList
        = spelling (alternativeParts found) ∧ (∀ parts, found = some parts → Spelled parts) ∧
      Reader.ReadsMore (kinds (alternativeParts found) ++ [TokenKind.mark .rparen])
        (translateAlternative depth alternative) := by
  cases alternative with
  | none => exact ⟨none, rfl, nofun, .nil⟩
  | some b =>
    refine ⟨some other, ?_, ?_, ?_⟩
    · rw [alternativeParts, spelling_cons, spelling_functionParts, ← hsource]
      simp [nameParts, spelling, Lexeme.chars, Mark.text]
    · rintro parts ⟨⟩
      exact hspelled
    · rw [alternativeParts, kinds_mark]
      exact .cons (readsArg_function (List.forall_mem_nil _) hreads) .nil

theorem reads_iteration {collection : String} {names : List String} {body : List Lexeme}
    {ss : List Stmt} {alternative : Option (List Lexeme)} {others : List Expr}
    (hcollection : isIdentifier collection = true)
    (hnames : ∀ name ∈ names, isIdentifier name = true) (hbody : Reader.Reads (kinds body) ss)
    (halternative : Reader.ReadsMore
      (kinds (alternativeParts alternative) ++ [TokenKind.mark .rparen]) others) :
    Reader.Reads
      (kinds (callParts Marker.iterate (iterationArgs collection names body alternative)))
      [.expr (.call (.name Marker.iterate)
        (.name collection :: .func none names ss :: others))] := by
  have hfirst : Reader.ReadsArg [.name collection] (.name collection) := .atom rfl
  have hmore := Reader.ReadsMore.cons (readsArg_function hnames hbody) halternative
  have hkinds : kinds (iterationArgs collection names body alternative) ++ [TokenKind.mark .rparen]
      = [TokenKind.name collection] ++ .mark .comma :: (kinds (functionParts names body)
        ++ (kinds (alternativeParts alternative) ++ [TokenKind.mark .rparen])) := by
    rw [iterationArgs, kinds_word, kinds_mark, kinds_append, wordToken_of_isIdentifier hcollection]
    simp
  rw [Marker.iterate, kinds_callParts, hkinds]
  exact .of_takes rfl (Reader.takes_call (Reader.takes_arguments hfirst hmore))

/-! ## Choices -/

/-- The line that sets the variable of a choice. -/
def subjectParts (declared : List String) (name subject : String) : List Lexeme :=
  (if name ∈ declared then [] else [Lexeme.word "var", .blank])
    ++ [Lexeme.word name, .mark (.assign .plain), .word subject, .mark .semi, .line]

theorem spelled_subjectParts {declared : List String} {name subject : String} (hname : IsWord name)
    (hsubject : IsWord subject) : Spelled (subjectParts declared name subject) := by
  have hvar : IsWord "var" := by decide
  have hassign : Spelled [.word name, .mark (.assign .plain), .word subject, .mark .semi, .line] :=
    ⟨⟨hname, .inr rfl⟩, .inr ⟨rfl, subject, rfl, hsubject⟩, ⟨hsubject, .inl rfl⟩, .inl rfl, trivial⟩
  unfold subjectParts
  split
  case isTrue => exact hassign
  case isFalse => exact ⟨⟨hvar, by decide, by decide⟩, trivial, hassign⟩

theorem reads_subject {declared : List String} {core subject : String}
    (hsubject : isIdentifier subject = true) :
    Reader.Reads (kinds (subjectParts declared (Marker.reserve core) subject))
      [subjectStmt declared (Marker.reserve core) subject] := by
  have hvar : wordToken "var" = .keyword .var := by decide
  have htoken := wordToken_of_isIdentifier hsubject
  unfold subjectParts subjectStmt
  split
  case isTrue =>
    have hkinds : kinds ([] ++ [Lexeme.word (Marker.reserve core), .mark (.assign .plain),
        .word subject, .mark .semi, .line])
        = [.name (Marker.reserve core), .mark (.assign .plain), .name subject, .mark .semi] := by
      simp [wordToken_reserve, htoken]
    rw [hkinds]
    exact .of_takes rfl (Reader.takes_assign _ _)
  case isFalse =>
    have hkinds : kinds ([Lexeme.word "var", .blank] ++ [Lexeme.word (Marker.reserve core),
        .mark (.assign .plain), .word subject, .mark .semi, .line]) = [.keyword .var,
        .name (Marker.reserve core), .mark (.assign .plain), .name subject, .mark .semi] := by
      simp [wordToken_reserve, htoken, hvar]
    rw [hkinds]
    exact .of_takes rfl (Reader.takes_declaration _ _)

/-- The head of a switch. -/
def switchParts (name : String) : List Lexeme :=
  [.word "switch", .mark .lparen, .word name, .mark .rparen, .mark .lbrace, .line]

theorem spelled_switchParts {name : String} (hname : IsWord name) : Spelled (switchParts name) := by
  have hswitch : IsWord "switch" := by decide
  exact ⟨⟨hswitch, .inl rfl⟩, .inl rfl, ⟨hname, .inl rfl⟩, .inl rfl, .inl rfl, trivial⟩

theorem reads_switch {core : String} {parts : List Lexeme} {clauses : List Clause}
    (h : Reader.ReadsClauses (kinds parts) clauses)
    (hdefault : clauses.countP (·.isOtherwise) ≤ 1) :
    Reader.Reads (kinds (switchParts (Marker.reserve core) ++ parts ++ closingParts))
      [.switch (.name (Marker.reserve core)) clauses] := by
  have hswitch : wordToken "switch" = .keyword .switch := by decide
  have hkinds : kinds (switchParts (Marker.reserve core) ++ parts ++ closingParts)
      = .keyword .switch :: .mark .lparen :: .name (Marker.reserve core) :: .mark .rparen
        :: Reader.bracedKinds (kinds parts) := by
    rw [kinds_append, kinds_append]
    simp [switchParts, closingParts, wordToken_reserve, hswitch, Reader.bracedKinds]
  rw [hkinds]
  exact .switch h hdefault

/-- The line that begins a branch. -/
def labelParts (label : String) : List Lexeme :=
  (if label = "default" then [Lexeme.word "default"] else [.word "case", .blank, .word label])
    ++ [Lexeme.mark .colon, .line]

/-- The line that ends a branch. -/
def breakParts : List Lexeme :=
  [.word "break", .mark .semi, .line]

theorem spelled_labelParts {label : String} (h : label = "default" ∨ isIdentifier label = true) :
    Spelled (labelParts label) := by
  have hcase : IsWord "case" := by decide
  have hdefault : IsWord "default" := by decide
  unfold labelParts
  split
  case isTrue => exact ⟨⟨hdefault, .inl rfl⟩, .inl rfl, trivial⟩
  case isFalse hne =>
    have hlabel := isWord_of_isIdentifier (h.resolve_left hne)
    exact ⟨⟨hcase, by decide, by decide⟩, trivial, ⟨hlabel, .inl rfl⟩, .inl rfl, trivial⟩

theorem spelled_breakParts : Spelled breakParts := by
  have hbreak : IsWord "break" := by decide
  exact ⟨⟨hbreak, .inl rfl⟩, .inl rfl, trivial⟩

/-- A branch and the clauses behind it. -/
theorem reads_branch {label : String} (h : label = "default" ∨ isIdentifier label = true)
    {parts more : List Lexeme} {ss : List Stmt} {clauses : List Clause}
    (hbody : Reader.Reads (kinds parts) ss)
    (hmore : Reader.ReadsClauses (kinds more) clauses) :
    Reader.ReadsClauses (kinds (labelParts label ++ parts ++ breakParts ++ more))
      (branchClause label (ss ++ [Stmt.break none]) :: clauses) := by
  have hbreak_kinds : kinds breakParts = [.keyword .break, .mark .semi] := by decide
  have hcase : wordToken "case" = .keyword .case := by decide
  have hdefault : wordToken "default" = .keyword .default := by decide
  have hbreak : Reader.Reads (kinds breakParts) [.break none] := by
    rw [hbreak_kinds]
    exact .of_takes rfl Reader.takes_break
  have hall := hbody.append hbreak
  have hsplit : kinds (labelParts label ++ parts ++ breakParts ++ more) = kinds (labelParts label)
      ++ ((kinds parts ++ kinds breakParts) ++ kinds more) := by simp [kinds_append]
  rw [hsplit]
  unfold labelParts branchClause
  split
  case isTrue =>
    have hkinds : kinds ([Lexeme.word "default"] ++ [Lexeme.mark .colon, .line])
        = [.keyword .default, .mark .colon] := by
      simp [hdefault]
    have hclause := Reader.ReadsClauses.otherwise hall hmore
    rw [hkinds]
    exact hclause
  case isFalse hne =>
    have hkinds : kinds ([Lexeme.word "case", .blank, .word label] ++ [Lexeme.mark .colon, .line])
        = [.keyword .case, .name label, .mark .colon] := by
      simp [hcase, wordToken_of_isIdentifier (h.resolve_left hne)]
    have hclause := @Reader.ReadsClauses.on label _ _ _ _ hall hmore
    rw [hkinds]
    exact hclause

end Espalier.Template
