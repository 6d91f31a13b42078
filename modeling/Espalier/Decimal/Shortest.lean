/-!
# Shortest decimals of binary fractions

A double-precision number is `m · 2 ^ q`. Every real in an interval around it rounds to it, ends
included when `m` is even. `shortest` finds the decimal with the fewest digits in that interval, and
of several the one nearest to the number.

`write` lays the digits out: positionally for exponents from -4 to 15, with a fraction even if it is
zero, and otherwise in scientific form with a signed exponent of at least two digits.
-/

namespace Espalier.Decimal

/-- The parts of a double-precision number. -/
inductive Parts where
  | finite (negative : Bool) (mantissa : Nat) (exponent : Int)
  | infinite (negative : Bool)
  | notANumber
  deriving DecidableEq, Repr

/-- Read the parts off the bits of a number. -/
def Parts.ofBits (bits : Nat) : Parts :=
  let negative := bits / Nat.pow 2 63 % 2 == 1
  let biased : Nat := bits / Nat.pow 2 52 % Nat.pow 2 11
  let fraction := bits % Nat.pow 2 52
  if biased == 2047 then
    if fraction == 0 then .infinite negative else .notANumber
  else if biased == 0 then .finite negative fraction (-1074)
  else .finite negative (Nat.pow 2 52 + fraction) ((biased : Int) - 1075)

/-- The parts of a number. -/
def Parts.ofFloat (x : Float) : Parts :=
  .ofBits x.toBits.toNat

/-- The whole part of a number, cut toward zero. -/
def Parts.truncate? : Parts → Option Int
  | .finite negative mantissa exponent =>
    let size := if exponent < 0 then mantissa / Nat.pow 2 (-exponent).toNat
      else mantissa * Nat.pow 2 exponent.toNat
    some (if negative then -(size : Int) else size)
  | .infinite _ => none
  | .notANumber => none

/-- The number is below zero. A zero with a sign is not. -/
def Parts.isNegative : Parts → Bool
  | .finite negative mantissa _ => negative && mantissa != 0
  | .infinite negative => negative
  | .notANumber => false

/-- A positive number and the interval of reals that round to it, over a common denominator. -/
structure Span where
  low : Nat
  value : Nat
  high : Nat
  denominator : Nat
  /-- The ends of the interval round to the number too. -/
  closed : Bool

/-- The span of `mantissa · 2 ^ exponent`. Below a power of two the neighbours are closer. -/
def Span.of (mantissa : Nat) (exponent : Int) : Span :=
  let narrow := mantissa == Nat.pow 2 52 && exponent > -1074
  let scale := exponent - 2
  let up := Nat.pow 2 scale.toNat
  { low := (4 * mantissa - if narrow then 1 else 2) * up
    value := 4 * mantissa * up
    high := (4 * mantissa + 2) * up
    denominator := Nat.pow 2 (-scale).toNat
    closed := mantissa % 2 == 0 }

/-- Digits `d` and a power `p` that stand for `d · 10 ^ p`. -/
structure Digits where
  digits : Nat
  power : Int
  deriving DecidableEq, Repr

/-- How often a positive fraction below one can be multiplied by ten and stay below one. -/
def leadingZeros (value denominator : Nat) : Nat → Nat
  | 0 => 0
  | fuel + 1 =>
    if value * 10 < denominator then leadingZeros (value * 10) denominator fuel + 1 else 0

/-- The number of decimal places before the point; negative for zeros behind it. -/
def Span.magnitude (s : Span) : Int :=
  if s.denominator ≤ s.value then (Nat.toDigits 10 (s.value / s.denominator)).length
  else -(leadingZeros s.value s.denominator 400 : Int)

/-- The multiple `n` of `10 ^ power` rounds to the number. -/
def Span.holds (s : Span) (n : Nat) (power : Int) : Bool :=
  let point := n * Nat.pow 10 power.toNat * s.denominator
  let scale := Nat.pow 10 (-power).toNat
  if s.closed then s.low * scale ≤ point && point ≤ s.high * scale
  else s.low * scale < point && point < s.high * scale

/-- The better of the two multiples of `10 ^ power` around the number, if one rounds to it. Of two
the nearer is better, and at equal distance the even one. -/
def Span.onGrid? (s : Span) (power : Int) : Option Nat :=
  let scaled := s.value * Nat.pow 10 (-power).toNat
  let unit := Nat.pow 10 power.toNat * s.denominator
  let below := scaled / unit
  let remainder := scaled % unit
  match s.holds below power, s.holds (below + 1) power with
  | true, true =>
    if 2 * remainder < unit then some below
    else if unit < 2 * remainder then some (below + 1)
    else some (if below % 2 == 0 then below else below + 1)
  | true, false => some below
  | false, true => some (below + 1)
  | false, false => none

/-- The first grid with a hit, from `count` digits on. -/
def Span.search (s : Span) (magnitude : Int) : Nat → Nat → Digits
  | 0, _ => ⟨0, 0⟩
  | fuel + 1, count =>
    match s.onGrid? (magnitude - count) with
    | some n => ⟨n, magnitude - count⟩
    | none => s.search magnitude fuel (count + 1)

/-- The decimal with the fewest digits that rounds to `mantissa · 2 ^ exponent`. -/
def shortest (mantissa : Nat) (exponent : Int) : Digits :=
  let s := Span.of mantissa exponent
  s.search s.magnitude 20 1

/-- Digits without the zeros at their end. -/
def trimZeros (digits : List Char) : List Char :=
  (digits.reverse.dropWhile (· == '0')).reverse

/-- An exponent with its sign and at least two digits. -/
def writeExponent (e : Int) : String :=
  let size := toString e.natAbs
  (if e < 0 then "-" else "+") ++ (if size.length < 2 then "0" ++ size else size)

/-- Digits with the point after the first `point` of them. -/
def layOut (digits : List Char) (point : Int) : String :=
  if -4 < point ∧ point ≤ 16 then
    if point ≤ 0 then
      "0." ++ String.ofList (List.replicate (-point).toNat '0' ++ digits)
    else
      let places := point.toNat
      let whole := digits.take places ++ List.replicate (places - digits.length) '0'
      let fraction := digits.drop places
      String.ofList whole ++ "." ++ String.ofList (if fraction.isEmpty then ['0'] else fraction)
  else
    let tail := digits.drop 1
    String.ofList (digits.take 1) ++ (if tail.isEmpty then "" else "." ++ String.ofList tail)
      ++ "e" ++ writeExponent (point - 1)

/-- The text of a number. -/
def Parts.text : Parts → String
  | .notANumber => "nan"
  | .infinite negative => if negative then "-inf" else "inf"
  | .finite negative mantissa exponent =>
    let sign := if negative then "-" else ""
    if mantissa == 0 then sign ++ "0.0"
    else
      let d := shortest mantissa exponent
      let digits := Nat.toDigits 10 d.digits
      sign ++ layOut (trimZeros digits) (digits.length + d.power)

end Espalier.Decimal
