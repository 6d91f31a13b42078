import Espalier.Value

/-!
# Options

How a compiled program is printed, and which transformations compression may apply. Options are
checked when they are made: output is either beautified or minified, indentation is not negative,
and transformations that could change which calls run are refused. An indentation by a fraction
passes the check, though no text can be indented by it.
-/

namespace Espalier

/-- How far a level of text is indented, as it is asked for. -/
inductive Indentation where
  | blanks (count : Int)
  | fraction (amount : Decimal.Parts)
  deriving DecidableEq, Repr

namespace Indentation

/-- The indentation is below zero. -/
def isNegative : Indentation → Bool
  | .blanks count => count < 0
  | .fraction amount => amount.isNegative

/-- The indentation as messages show it. -/
def text : Indentation → String
  | .blanks count => toString count
  | .fraction amount => amount.text

/-- The indentation that a value stands for: a number, or a truth value as 1 or 0. -/
def ofValue? : Value → Option Indentation
  | .int n => some (.blanks n)
  | .bool b => some (.blanks (if b then 1 else 0))
  | .float x => some (.fraction (.ofFloat x))
  | _ => none

end Indentation

/-- Why options are refused. -/
inductive OptionsFault where
  | beautifyAndMinify
  | negativeIndent (indent : Indentation)
  /-- An option that does not exist. -/
  | unknown (name : String)
  /-- An indentation that is no number; `found` is the kind of value it is. -/
  | indentType (found : String)
  /-- Transformations that are never safe. -/
  | forbidden (names : List String)
  deriving DecidableEq, Repr

/-- The wording of a fault. -/
def OptionsFault.message : OptionsFault → String
  | .beautifyAndMinify => "beautify and minify are mutually exclusive"
  | .negativeIndent indent => "indent must be non-negative, got " ++ indent.text
  | .unknown name =>
    "Invalid compile option: CompileOptions.__init__() got an unexpected keyword argument '"
      ++ name ++ "'"
  | .indentType found =>
    "Invalid compile option: '<' not supported between instances of '" ++ found ++ "' and 'int'"
  | .forbidden names =>
    "Compressor transforms may alter sentinel-derived calls: " ++ String.intercalate ", " names

/-- How a compiled program is printed. -/
structure OutputOptions where
  beautify : Bool := false
  minify : Bool := false
  indent : Indentation := .blanks 4
  deriving DecidableEq, Repr

namespace OutputOptions

/-- Beautified and minified output is compressed first. -/
def compressed (o : OutputOptions) : Bool :=
  o.beautify || o.minify

/-- Options that agree with each other. -/
def check (o : OutputOptions) : Except OptionsFault OutputOptions :=
  if o.beautify && o.minify then .error .beautifyAndMinify
  else if o.indent.isNegative then .error (.negativeIndent o.indent)
  else .ok o

/-- The kind of a value, as messages name it. -/
def kindName : Value → String
  | .null => "NoneType"
  | .bool _ => "bool"
  | .int _ => "int"
  | .float _ => "float"
  | .str _ => "str"
  | .list _ => "list"
  | .dict _ => "dict"

/-- An option and the value it is given. -/
abbrev Setting := String × Value

/-- The value that the last setting of a name gives. -/
def lookup? (settings : List Setting) (name : String) : Option Value :=
  (settings.reverse.find? (·.1 == name)).map (·.2)

/-- The options there are. -/
def names : List String := ["beautify", "minify", "indent"]

/-- The first setting that names no option. -/
def unknown? (settings : List Setting) : Option String :=
  (settings.find? fun s => s.1 ∉ names).map (·.1)

/-- Change options by settings. Unknown names are found first, then conflicts, then indentation. -/
def replace (o : OutputOptions) (settings : List Setting) : Except OptionsFault OutputOptions :=
  match unknown? settings with
  | some name => .error (.unknown name)
  | none =>
    let beautify := (lookup? settings "beautify").elim o.beautify (·.isTrue)
    let minify := (lookup? settings "minify").elim o.minify (·.isTrue)
    if beautify && minify then .error .beautifyAndMinify
    else
      match lookup? settings "indent" with
      | none => check { o with beautify, minify }
      | some v =>
        match Indentation.ofValue? v with
        | some indent => check ⟨beautify, minify, indent⟩
        | none => .error (.indentType (kindName v))

end OutputOptions

/-- Which transformations compression may apply. -/
structure CompressionOptions where
  booleans : Bool := false
  deadCode : Bool := false
  /-- Merge the declarations of every scope. -/
  hoistVars : Bool := true
  sequences : Bool := false
  sideEffects : Bool := false
  unused : Bool := false
  /-- Report skipped work as warnings. -/
  warnings : Bool := false
  deriving DecidableEq, Repr

namespace CompressionOptions

/-- The transformations switched on that may drop, merge or reorder evaluation, in the order of
their names. -/
def forbiddenNames (o : CompressionOptions) : List String :=
  [("booleans", o.booleans), ("dead_code", o.deadCode), ("sequences", o.sequences),
    ("side_effects", o.sideEffects), ("unused", o.unused)].filterMap fun (name, on) =>
      if on then some name else none

/-- Options that switch on no forbidden transformation. -/
def check (o : CompressionOptions) : Except OptionsFault CompressionOptions :=
  if o.forbiddenNames.isEmpty then .ok o else .error (.forbidden o.forbiddenNames)

end CompressionOptions

end Espalier
