import Espalier.Text.Blank
import Espalier.Text.Digit
import Espalier.Value

/-!
# Line numbers

A line number may come as a whole number, as a fraction, which is cut toward zero, as a truth value
or as a numeral: digits of any script with single underscores between them, a sign in front and
blanks around. Absent and empty values count as line zero.
-/

namespace Espalier.Value

open Espalier.Text

/-- Why a value is no line number. -/
inductive LineFault where
  /-- A text that is no numeral, or a number without whole part. -/
  | notNumeral
  /-- A value that cannot stand for a number at all. -/
  | notNumber
  deriving DecidableEq, Repr

/-- The number that digits continue, `value` being what stands before them. Each underscore must
stand between two digits. -/
def continueNumeral (value : Nat) : List Char → Option Nat
  | [] => some value
  | '_' :: c :: cs =>
    match digitValue? c with
    | some d => continueNumeral (value * 10 + d) cs
    | none => none
  | c :: cs =>
    match digitValue? c with
    | some d => continueNumeral (value * 10 + d) cs
    | none => none

/-- The number that a run of digits stands for. -/
def readDigits : List Char → Option Nat
  | [] => none
  | c :: cs =>
    match digitValue? c with
    | some d => continueNumeral d cs
    | none => none

/-- The number that a numeral stands for. -/
def readNumeral (text : List Char) : Option Int :=
  match strip text with
  | '-' :: cs => (readDigits cs).map fun n => -(n : Int)
  | '+' :: cs => (readDigits cs).map Int.ofNat
  | cs => (readDigits cs).map Int.ofNat

/-- The line number that a value stands for. -/
def toLine (v : Value) : Except LineFault Int :=
  if !v.isTrue then .ok 0
  else
    match v with
    | .bool _ => .ok 1
    | .int n => .ok n
    | .float x => ((Decimal.Parts.ofFloat x).truncate?.elim (.error .notNumeral)) .ok
    | .str s => ((readNumeral s.toList).elim (.error .notNumeral)) .ok
    | _ => .error .notNumber

end Espalier.Value
