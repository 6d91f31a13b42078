/-!
# Faults in embedded expressions

What can be wrong with an expression embedded in a template text, with the text it was found in and
the offset where reading gave up. Offsets count characters.
-/

namespace Espalier.Scan

/-- Why an embedded expression cannot be read. -/
inductive Cause where
  /-- A string literal has no closing quote on its line. -/
  | openString
  /-- A regular expression has no closing slash on its line. -/
  | openRegex
  /-- A block comment has no end. -/
  | openComment
  /-- A closing bracket does not belong to the innermost open one. -/
  | mismatch (expected found : Char)
  /-- A closing bracket has no opening one. -/
  | unmatched (found : Char)
  /-- The text ends inside an expression. -/
  | unclosed
  /-- An interpolation holds only blanks. -/
  | blank
  deriving DecidableEq, Repr

/-- A single bracket between apostrophes. -/
def Cause.shown (bracket : Char) : String :=
  "'" ++ String.singleton bracket ++ "'"

/-- The wording of a cause. -/
def Cause.message : Cause → String
  | .openString => "Unterminated string literal"
  | .openRegex => "Unterminated regular expression literal"
  | .openComment => "Unterminated block comment"
  | .mismatch expected found =>
    "Mismatched bracket: expected " ++ shown expected ++ ", found " ++ shown found
  | .unmatched found => "Mismatched bracket: found " ++ shown found
  | .unclosed => "The end of the string was reached with no closing bracket found"
  | .blank => "Empty interpolation"

/-- A cause and the offset it was found at. -/
structure Fault where
  cause : Cause
  position : Nat
  deriving DecidableEq, Repr

end Espalier.Scan
