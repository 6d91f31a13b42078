import Espalier.Text.CodePoint

/-!
# Blank characters

The blanks are the white space of every script, line ends and the separators of the control block
included. The zero-width space and the byte-order mark are not blanks.
-/

namespace Espalier.Text

/-- The code points of the blank characters. -/
def blankTable : List (Nat × Nat) := [
  (0x9, 0xd), (0x1c, 0x20), (0x85, 0x85), (0xa0, 0xa0), (0x1680, 0x1680), (0x2000, 0x200a),
  (0x2028, 0x2029), (0x202f, 0x202f), (0x205f, 0x205f), (0x3000, 0x3000)]

/-- The character is white space. -/
def isBlank (c : Char) : Bool :=
  inRanges blankTable c

/-- The text without the blanks at its end. -/
def stripRight (cs : List Char) : List Char :=
  (cs.reverse.dropWhile isBlank).reverse

/-- The text without the blanks at either end. -/
def strip (cs : List Char) : List Char :=
  stripRight (cs.dropWhile isBlank)

end Espalier.Text
