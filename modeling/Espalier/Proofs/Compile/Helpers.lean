import Espalier.Helper
import Espalier.Proofs.Script.Transcript

/-!
# The functions behind a program

The source of a helper is the declaration of one function, `Helper.declaration`. Behind a program
the sources of helpers are read as these declarations, in order. Main statement: `trails_helpers`.
-/

namespace Espalier

open Espalier.Script

namespace Helper

/-! ## Declarations -/

/-- A call of a method. -/
def method (owner : Expr) (field : String) (args : List Expr) : Expr :=
  .call (.dot owner field) args

/-- A statement that assigns a value. -/
def assigned (target value : Expr) : Stmt :=
  .expr (.assign .plain target value)

/-- The function that calls another one on every item of a collection. -/
def iterateDeclaration : Stmt :=
  .func Marker.iterate ["obj", "each", "alt"] [
    .vars [.init "result" (.array []), .bare "key"],
    .ifElse (.binary .eq (.name "obj") .null)
      (.block [assigned (.name "result") (.array [])])
      (.ifElse
        (.binary .eqStrict (.unary .typeOf (.dot (.name "obj") "length")) (.string "'number'"))
        (.block [assigned (.name "result") (method (.dot (.array []) "map") "call" [.name "obj",
          .func none ["value", "index"]
            [.ret (some (.call (.name "each") [.name "value", .name "index"]))]])])
        (.block [.loopIn (.name "key") (.name "obj")
          (.expr (method (.name "result") "push"
            [.call (.name "each") [.index (.name "obj") (.name "key"), .name "key"]]))])),
    .ret (some (.cond (.binary .or (.unary .not (.name "alt")) (.dot (.name "result") "length"))
      (.name "result") (.call (.name "alt") [])))]

/-- What merging does with classes: they are collected. -/
def classClause : List Stmt :=
  [.ifElse (method (.name "Array") "isArray" [.name "val"])
    (.block [assigned (.name "classes") (method (.name "classes") "concat" [.name "val"])])
    (.ifThen
      (.binary .and (.binary .ne (.name "val") .null)
        (.binary .neStrict (.name "val") (.string "''")))
      (.block [.expr (method (.name "classes") "push" [.name "val"])])),
  .continue none]

/-- What merging does with the name of any other attribute, and with the values of data. -/
def otherClause : List Stmt :=
  [.ifThen (method (.regex "/^data-/") "test" [.name "key"])
    (.block [
      .ifThen (.binary .eq (.name "val") .null) (.continue none),
      .ifThen (.binary .neStrict (.unary .typeOf (.name "val")) (.string "'string'"))
        (assigned (.name "val") (method (.name "JSON") "stringify" [.name "val"])),
      .break none]),
  .ifThen (method (.regex "/^aria-/") "test" [.name "key"]) (.break none),
  assigned (.name "key") (method (.name "key") "split" [.string "'-'"]),
  assigned (.name "key") (.binary .add (.index (.name "key") (.number "0"))
    (method
      (method (method (.name "key") "slice" [.number "1"]) "map"
        [.func none ["part"]
          [.ret (some (.binary .add
            (method (method (.name "part") "charAt" [.number "0"]) "toUpperCase" [])
            (method (.name "part") "substr" [.number "1"])))]])
      "join" [.string "''"]))]

/-- The function that merges property objects. -/
def mergeDeclaration : Stmt :=
  .func Marker.merge [] [
    .vars [.init "classes" (.array [])],
    .vars [.init "attrs" (.object [])],
    .expr (method (method (.dot (.array []) "slice") "call" [.name "arguments"]) "forEach"
      [.func none ["it"]
        [.loopVarIn (.bare "key") (.name "it") (.block [
          .vars [.init "val" (.index (.name "it") (.name "key"))],
          .switch (.name "key") [
            .on (.string "'class'") [],
            .on (.string "'className'") classClause,
            .on (.string "'for'") [assigned (.name "key") (.string "'htmlFor'"), .break none],
            .otherwise otherClause],
          assigned (.index (.name "attrs") (.name "key")) (.name "val")])]]),
    .ifThen (.dot (.name "classes") "length")
      (assigned (.dot (.name "attrs") "className")
        (method (.name "classes") "join" [.string "' '"])),
    .ret (some (.name "attrs"))]

/-- The function that a helper's source declares. -/
def declaration : Helper → Stmt
  | .iterate => iterateDeclaration
  | .merge => mergeDeclaration

/-! ## The declarations are of the grammar -/

/-- The names in the source of a helper. -/
def names : Helper → List String
  | .iterate => [Marker.iterate, "obj", "each", "alt", "result", "key", "length", "map", "call",
    "value", "index", "push"]
  | .merge => [Marker.merge, "classes", "attrs", "slice", "call", "arguments", "forEach", "it",
    "key", "val", "Array", "isArray", "concat", "push", "test", "JSON", "stringify", "split", "map",
    "part", "charAt", "toUpperCase", "substr", "join", "length", "className"]

theorem isName_names (h : Helper) : ∀ name ∈ h.names, IsName name := by
  have hwords : ∀ name ∈ h.names, IsWord name ∧ Keyword.ofText? name = none := by
    cases h <;> decide +kernel
  exact fun name hname => isName_of_word (hwords name hname)

theorem formed_iterateDeclaration : iterateDeclaration.Formed := by
  have hnames := isName_names .iterate
  have hfields := fun name hname => (hnames name hname).field
  simp only [names, List.forall_mem_cons] at hnames hfields
  have hnumber : (TokenKind.string "'number'").Genuine := ⟨{}, "'number'".toList, none, [], rfl⟩
  simp [iterateDeclaration, method, assigned, Stmt.Formed, FormedAll, Expr.Formed, FormedArgs,
    FormedItems, FormedBindings, Binding.Formed, FormedOptional, Expr.rank, BinaryOp.level,
    Expr.leads, Expr.isFunction, Expr.head, Stmt.takesElse, hnames, hfields, hnumber]

theorem formedAll_classClause : FormedAll classClause := by
  have hnames := isName_names .merge
  have hfields := fun name hname => (hnames name hname).field
  simp only [names, List.forall_mem_cons] at hnames hfields
  have hnothing : (TokenKind.string "''").Genuine := ⟨{}, "''".toList, none, [], rfl⟩
  simp [classClause, method, assigned, Stmt.Formed, FormedAll, Expr.Formed, FormedArgs, Expr.rank,
    BinaryOp.level, Expr.leads, Expr.isFunction, Expr.head, Stmt.takesElse, hnames, hfields,
    hnothing]

theorem formedAll_otherClause : FormedAll otherClause := by
  have hnames := isName_names .merge
  have hfields := fun name hname => (hnames name hname).field
  simp only [names, List.forall_mem_cons] at hnames hfields
  have hdata : (TokenKind.regex "/^data-/").Genuine := ⟨{}, "/^data-/;".toList, none, [';'], rfl⟩
  have haria : (TokenKind.regex "/^aria-/").Genuine := ⟨{}, "/^aria-/;".toList, none, [';'], rfl⟩
  have hstring : (TokenKind.string "'string'").Genuine := ⟨{}, "'string'".toList, none, [], rfl⟩
  have hdash : (TokenKind.string "'-'").Genuine := ⟨{}, "'-'".toList, none, [], rfl⟩
  have hnothing : (TokenKind.string "''").Genuine := ⟨{}, "''".toList, none, [], rfl⟩
  have hzero : (TokenKind.number "0").Genuine := ⟨{}, "0;".toList, none, [';'], rfl⟩
  have hone : (TokenKind.number "1").Genuine := ⟨{}, "1;".toList, none, [';'], rfl⟩
  simp [otherClause, method, assigned, Stmt.Formed, FormedAll, Expr.Formed, FormedArgs,
    FormedOptional, Expr.rank, BinaryOp.level, Expr.leads, Expr.isFunction, Expr.head, hnames,
    hfields, hdata, haria, hstring, hdash, hnothing, hzero, hone]

theorem formed_mergeDeclaration : mergeDeclaration.Formed := by
  have hnames := isName_names .merge
  have hfields := fun name hname => (hnames name hname).field
  simp only [names, List.forall_mem_cons] at hnames hfields
  have hclass : (TokenKind.string "'class'").Genuine := ⟨{}, "'class'".toList, none, [], rfl⟩
  have hclassName : (TokenKind.string "'className'").Genuine :=
    ⟨{}, "'className'".toList, none, [], rfl⟩
  have hfor : (TokenKind.string "'for'").Genuine := ⟨{}, "'for'".toList, none, [], rfl⟩
  have hhtmlFor : (TokenKind.string "'htmlFor'").Genuine := ⟨{}, "'htmlFor'".toList, none, [], rfl⟩
  have hblank : (TokenKind.string "' '").Genuine := ⟨{}, "' '".toList, none, [], rfl⟩
  simp [mergeDeclaration, method, assigned, Stmt.Formed, FormedAll, FormedClauses, Expr.Formed,
    FormedArgs, FormedItems, FormedProperties, FormedBindings, Binding.Formed, FormedOptional,
    Expr.rank, Expr.leads, Expr.isFunction, Binding.endsBeforeIn, Clause.isOtherwise,
    formedAll_classClause, formedAll_otherClause, hnames, hfields, hclass, hclassName, hfor,
    hhtmlFor, hblank]

theorem formed_declaration (h : Helper) : h.declaration.Formed := by
  cases h with
  | iterate => exact formed_iterateDeclaration
  | merge => exact formed_mergeDeclaration

/-! ## The sources declare them -/

/-- The source of a helper is a transcript of its declaration. -/
theorem transcribes_source (h : Helper) :
    transcribes true false (stmtKinds [h.declaration]) ("\n" ++ h.source).toList = true := by
  cases h <;>
  · simp only [source, lines, Marker.iterate, Marker.merge, Marker.reserve, String.toList_append,
      String.toList_intercalate, String.toList_singleton, List.map_cons, List.map_nil,
      -String.reduceToList]
    -- spelled out line by line, since characters of a literal are found one after the other
    repeat rw [String.toList_ofList]
    decide +kernel

/-- Behind a program the sources of helpers stand for their declarations. -/
theorem trails_helpers (helpers : List Helper) :
    Trails (helpers.foldr (fun h tail => "\n" ++ h.source ++ tail) "")
      (helpers.map declaration) := by
  induction helpers with
  | nil => exact .nothing
  | cons h helpers ih =>
    have hlinked : linkedAll [h.declaration] = true := by cases h <;> rfl
    have hplain : startsPlain [h.declaration] = true := by cases h <;> rfl
    have hformed : FormedAll [h.declaration] := ⟨h.formed_declaration, trivial⟩
    exact .append hformed hlinked hplain h.transcribes_source ih

end Helper

theorem withHelpers_eq (main : String) (helpers : List Helper) :
    withHelpers main (helpers.map (·.source))
      = main ++ helpers.foldr (fun h tail => "\n" ++ h.source ++ tail) "" := by
  rw [withHelpers]
  induction helpers generalizing main with
  | nil => exact String.intercalate_singleton.trans (String.append_empty ..).symm
  | cons h helpers ih =>
    rw [List.map_cons, String.intercalate_cons_cons, ih, List.foldr_cons, String.append_assoc,
      String.append_assoc]

end Espalier
