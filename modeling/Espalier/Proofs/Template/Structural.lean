import Espalier.Template.Generate
import Espalier.Script.Reader

/-!
# Structural templates and their translation

A template is structural when its source is built from the templates' own forms alone: elements of
the host without attributes, plain text, slots, buffered code, iterations and choices, with
identifiers for all embedded expressions. `translate` gives the statements that a structural
template stands for. It follows the tree; what it has to carry along is the nesting depth, which
names the variable of a choice, and the variables that the function around it has declared.
-/

namespace Espalier.Template

open Espalier.Script Espalier.Text

/-! ## Structural trees -/

/-- The text is an ASCII identifier and no reserved word. -/
def isIdentifier (text : String) : Bool :=
  match text.toList with
  | [] => false
  | c :: cs =>
    (c.isAlpha || c == '_' || c == '$') && cs.all (fun d => d.isAlphanum || d == '_' || d == '$') &&
      (Keyword.ofText? text).isNone

/-- The name is that of a host element. -/
def isHostName (name : String) : Bool :=
  name.toList.head?.any isLowercase || name.toList.contains '-'

/-- An interpolation opens somewhere in the text. -/
def opensInterpolation : List Char → Bool
  | [] => false
  | c :: cs => ((c == '#' || c == '!') && cs.head? == some '\x7b') || opensInterpolation cs

/-- The nodes that take what no other branch takes. -/
def isDefault : Node String → Bool
  | .branch _ label _ => label == "default"
  | _ => false

mutual

/-- The node is structural. -/
def Node.structural : Node String → Bool
  | .block b => b.structural
  | .tag _ name attrs spreads block code =>
    isHostName name && attrs.isEmpty && spreads.isEmpty && structuralOptional block &&
      structuralInline code
  | .text _ value => !opensInterpolation value.toList
  | .code c => c.structural
  | .choice _ subject block => isIdentifier subject && structuralChoice block
  | .each _ collection value key block alternative =>
    isIdentifier collection && isIdentifier value && key.all isIdentifier &&
      structuralOptional block && structuralOptional alternative
  | .slot _ => true
  | _ => false

/-- All nodes of the block are structural. -/
def Block.structural : Block String → Bool
  | .mk _ nodes => structuralAll nodes

/-- The block is structural, if there is one. -/
def structuralOptional : Option (Block String) → Bool
  | none => true
  | some b => b.structural

/-- All nodes are structural. -/
def structuralAll : List (Node String) → Bool
  | [] => true
  | n :: rest => n.structural && structuralAll rest

/-- The code is an identifier to output, and its block is structural. -/
def Code.structural : Code String → Bool
  | .mk _ value buffered _ block => buffered && isIdentifier value && structuralOptional block

/-- The inline code is structural, if there is some. -/
def structuralInline : Option (Code String) → Bool
  | none => true
  | some c => c.structural

/-- The block of a choice holds branches only, and at most one of them is the default. -/
def structuralChoice : Option (Block String) → Bool
  | none => false
  | some (.mk _ nodes) => structuralBranches nodes && nodes.countP isDefault ≤ 1

/-- All nodes are branches with identifiers for labels and structural blocks. -/
def structuralBranches : List (Node String) → Bool
  | [] => true
  | .branch _ label block :: rest =>
    (label == "default" || isIdentifier label) && structuralOptional block &&
      structuralBranches rest
  | _ :: _ => false

end

/-! ## Translation -/

/-- The statement that constructs an element. -/
def elementStmt (name : String) : Stmt :=
  .expr (.call (.name Marker.element) [.string (quote name), .null])

/-- The statement that outputs a value. -/
def outputStmt (marker : String) (value : Expr) : Stmt :=
  .expr (.call (.name marker) [value])

/-- The statement that sets the variable of a choice; the first one in a function declares it. -/
def subjectStmt (declared : List String) (name subject : String) : Stmt :=
  if name ∈ declared then .expr (.assign .plain (.name name) (.name subject))
  else .vars [.init name (.name subject)]

/-- The variables declared after a choice has set its variable. -/
def declaring (declared : List String) (name : String) : List String :=
  if name ∈ declared then declared else declared ++ [name]

/-- The clause of a branch. -/
def branchClause (label : String) (body : List Stmt) : Clause :=
  if label = "default" then .otherwise body else .on (.name label) body

mutual

/-- The statements of a node at a depth, and the variables declared after it. -/
def Node.translate (depth : Int) (declared : List String) : Node String → List Stmt × List String
  | .block b => b.translate depth declared
  | .tag _ name _ _ block code =>
    let inline := translateInline (depth + 1) declared code
    let children := translateOptional (depth + 1) inline.2 block
    ([elementStmt name, .block (inline.1 ++ children.1)], children.2)
  | .text _ value =>
    (if value = "" then [] else [outputStmt Marker.text (.string (quote value))], declared)
  | .code c => c.translate (depth + 1) declared
  | .choice _ subject block =>
    let name := Marker.temporary (depth + 1)
    let clauses := translateChoice (depth + 1) (declaring declared name) block
    ([subjectStmt declared name subject, .switch (.name name) clauses.1], clauses.2)
  | .each _ collection value key block alternative =>
    let body := translateOptional (depth + 1) [] block
    let others := translateAlternative (depth + 1) alternative
    ([.expr (.call (.name Marker.iterate)
      (.name collection :: .func none (value :: key.toList) body.1 :: others))], declared)
  | .slot _ =>
    ([outputStmt Marker.text (.cond (.name "block") (.call (.name "block") []) .null)], declared)
  | _ => ([], declared)

/-- The statements of a block. -/
def Block.translate (depth : Int) (declared : List String) : Block String → List Stmt × List String
  | .mk _ nodes => translateAll (depth + 1) declared nodes

/-- The statements of a block, if there is one. -/
def translateOptional (depth : Int) (declared : List String) :
    Option (Block String) → List Stmt × List String
  | none => ([], declared)
  | some b => b.translate depth declared

/-- The statements of nodes in sequence. -/
def translateAll (depth : Int) (declared : List String) :
    List (Node String) → List Stmt × List String
  | [] => ([], declared)
  | n :: rest =>
    let first := n.translate depth declared
    let others := translateAll depth first.2 rest
    (first.1 ++ others.1, others.2)

/-- The output of embedded code, and the statements of its block. -/
def Code.translate (depth : Int) (declared : List String) : Code String → List Stmt × List String
  | .mk _ value _ escaped block =>
    let inner := translateOptional depth declared block
    (outputStmt (if escaped then Marker.text else Marker.raw) (.name value) :: inner.1, inner.2)

/-- The statements of inline code, if there is some. -/
def translateInline (depth : Int) (declared : List String) :
    Option (Code String) → List Stmt × List String
  | none => ([], declared)
  | some c => c.translate depth declared

/-- The clauses of a choice. -/
def translateChoice (depth : Int) (declared : List String) :
    Option (Block String) → List Clause × List String
  | none => ([], declared)
  | some (.mk _ nodes) => translateBranches (depth + 1) declared nodes

/-- The clauses of branches; each ends with a jump out of the switch. -/
def translateBranches (depth : Int) (declared : List String) :
    List (Node String) → List Clause × List String
  | [] => ([], declared)
  | .branch _ label block :: rest =>
    let body := translateOptional (depth + 1) declared block
    let others := translateBranches depth body.2 rest
    (branchClause label (body.1 ++ [Stmt.break none]) :: others.1, others.2)
  | _ :: rest => translateBranches depth declared rest

/-- The function for an empty collection, if there is one. -/
def translateAlternative (depth : Int) : Option (Block String) → List Expr
  | none => []
  | some b => [.func none [] (b.translate depth []).1]

end

end Espalier.Template
