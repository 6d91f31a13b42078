import Espalier.Script.NameChar

/-!
# Words and literals

Readers for the parts of program text that are longer than a mark. Each takes the text at the start
of the part and gives the part and what follows it.
-/

namespace Espalier.Script

/-- A part of a text and what follows it. -/
abbrev Part := List Char × List Char

/-- An identifier or keyword: its opening run, and the characters that may follow it. -/
def readName (cs : List Char) : Part :=
  let opening := cs.takeWhile isNameStart
  let rest := cs.dropWhile isNameStart
  (opening ++ rest.takeWhile isNamePart, rest.dropWhile isNamePart)

/-- The character is a hexadecimal digit. -/
def isHexDigit (c : Char) : Bool :=
  c.isDigit || ('a' ≤ c && c ≤ 'f') || ('A' ≤ c && c ≤ 'F')

/-- The character is an octal digit. -/
def isOctalDigit (c : Char) : Bool :=
  '0' ≤ c && c ≤ '7'

/-- The characters that satisfy a test, and what follows them. -/
def readWhile (p : Char → Bool) (cs : List Char) : Part :=
  (cs.takeWhile p, cs.dropWhile p)

/-- Digits of an exponent after its mark and an optional sign; none if there are no digits. -/
def readExponentDigits (opening : List Char) (cs : List Char) : Option Part :=
  let (digits, rest) := readWhile Char.isDigit cs
  if digits.isEmpty then none else some (opening ++ digits, rest)

/-- An optional exponent. -/
def readExponent (cs : List Char) : Part :=
  let found :=
    match cs with
    | e :: sign :: rest =>
      if e = 'e' ∨ e = 'E' then
        if sign = '+' ∨ sign = '-' then readExponentDigits [e, sign] rest
        else readExponentDigits [e] (sign :: rest)
      else none
    | _ => none
  found.getD ([], cs)

/-- The part of a decimal number behind its whole part: fraction and exponent. -/
def readFraction (cs : List Char) : Part :=
  match cs with
  | '.' :: rest =>
    let (digits, rest) := readWhile Char.isDigit rest
    let (exponent, rest) := readExponent rest
    ('.' :: digits ++ exponent, rest)
  | _ => readExponent cs

/-- A number. A zero in front makes it hexadecimal if an `x` and a digit follow, octal if octal
digits follow, and is otherwise the whole part. -/
def readNumber (cs : List Char) : Part :=
  match cs with
  | '0' :: x :: digit :: rest =>
    if (x = 'x' ∨ x = 'X') ∧ isHexDigit digit then
      let (digits, rest) := readWhile isHexDigit (digit :: rest)
      ('0' :: x :: digits, rest)
    else if isOctalDigit x then
      let (digits, rest) := readWhile isOctalDigit (x :: digit :: rest)
      ('0' :: digits, rest)
    else
      let (tail, rest) := readFraction (x :: digit :: rest)
      ('0' :: tail, rest)
  | '0' :: rest =>
    let (digits, after) := readWhile isOctalDigit rest
    if digits.isEmpty then
      let (tail, rest) := readFraction rest
      ('0' :: tail, rest)
    else ('0' :: digits, after)
  | _ =>
    let (whole, rest) := readWhile Char.isDigit cs
    let (tail, rest) := readFraction rest
    (whole ++ tail, rest)

/-- The character ends a line inside a literal or after a line comment. -/
def endsLine (c : Char) : Bool :=
  c == '\n' || c == '\r' || c.toNat == 0x2028 || c.toNat == 0x2029

/-- The character may follow a backslash in a string and stands for one character. -/
def isSimpleEscape (c : Char) : Bool :=
  c.toNat < 128 &&
    (isOctalDigit c || (c.isAlpha && c != 'u' && c != 'U' && c != 'x' && c != 'X') ||
      (32 < c.toNat && c.toNat < 127 && !c.isAlphanum))

/-- Put characters in front of a part. -/
def Part.prepend (cs : List Char) (part : Part) : Part :=
  (cs ++ part.1, part.2)

/-- The inside of a string literal and the quote that ends it. A backslash may stand before a line
end, which continues the literal on the next line, and before the characters of an escape. -/
def readQuoted (mark : Char) : List Char → Option Part
  | [] => none
  | '\x5c' :: '\r' :: '\n' :: cs => (readQuoted mark cs).map (Part.prepend ['\x5c', '\r', '\n'])
  | '\x5c' :: 'x' :: a :: b :: cs =>
    if isHexDigit a && isHexDigit b then
      (readQuoted mark cs).map (Part.prepend ['\x5c', 'x', a, b])
    else none
  | '\x5c' :: 'u' :: a :: b :: c :: d :: cs =>
    if isHexDigit a && isHexDigit b && isHexDigit c && isHexDigit d then
      (readQuoted mark cs).map (Part.prepend ['\x5c', 'u', a, b, c, d])
    else none
  | '\x5c' :: c :: cs =>
    if endsLine c || isSimpleEscape c then (readQuoted mark cs).map (Part.prepend ['\x5c', c])
    else none
  | c :: cs =>
    if c = mark then some ([c], cs)
    else if c = '\x5c' || endsLine c then none
    else (readQuoted mark cs).map (Part.prepend [c])

/-- The inside of a regular expression, the slash that ends it and its flags. A slash in a class
does not end it, and a backslash stands before any character but a newline. -/
def readRegexTail (inClass : Bool) : List Char → Option Part
  | [] => none
  | '\x5c' :: c :: cs =>
    if c = '\n' then none else (readRegexTail inClass cs).map (Part.prepend ['\x5c', c])
  | c :: cs =>
    if c = '\x5c' then none
    else if inClass then (readRegexTail (c ≠ ']') cs).map (Part.prepend [c])
    else if c = '/' then
      let (flags, rest) := readWhile (fun d => d.toNat < 128 && d.isAlphanum) cs
      some ('/' :: flags, rest)
    else (readRegexTail (c = '[') cs).map (Part.prepend [c])

/-- A regular expression. It is not empty and does not begin with a star. -/
def readRegex : List Char → Option Part
  | '/' :: c :: cs =>
    if c = '*' ∨ c = '/' then none else (readRegexTail false (c :: cs)).map (Part.prepend ['/'])
  | _ => none

/-- What follows the end of a block comment. -/
def afterBlockComment : List Char → Option (List Char)
  | [] => none
  | '*' :: '/' :: cs => some cs
  | _ :: cs => afterBlockComment cs

end Espalier.Script
