/-!
# Quoted text

A text is written as a string literal between double quotes. The quote, the backslash, the control
characters and the two Unicode line separators are escaped; every other character stands for itself,
so that the literal is one line of source whatever the text holds.
-/

namespace Espalier.Text

/-- The hexadecimal digit of a number below sixteen. -/
def hexDigit (n : Nat) : Char :=
  if n < 10 then Char.ofNat (0x30 + n) else Char.ofNat (0x57 + n)

/-- The low `width` hexadecimal digits of a number, most significant first. -/
def hexDigits : Nat → Nat → List Char
  | 0, _ => []
  | width + 1, n => hexDigit (n / Nat.pow 16 width % 16) :: hexDigits width n

/-- The escape of a character by its code point, which has at most four hexadecimal digits. -/
def codeEscape (c : Char) : List Char :=
  '\x5c' :: 'u' :: hexDigits 4 c.toNat

/-- The characters that stand for `c` inside a string literal. -/
def quotedChar (c : Char) : List Char :=
  if c = '\x22' then ['\x5c', '\x22']
  else if c = '\x5c' then ['\x5c', '\x5c']
  else if c = '\x08' then ['\x5c', 'b']
  else if c = '\x09' then ['\x5c', 't']
  else if c = '\x0a' then ['\x5c', 'n']
  else if c = '\x0c' then ['\x5c', 'f']
  else if c = '\x0d' then ['\x5c', 'r']
  else if c.toNat < 0x20 || c.toNat == 0x2028 || c.toNat == 0x2029 then codeEscape c
  else [c]

/-- The characters whose escape has two characters, each with the second of them. -/
def shortEscapes : List (Char × Char) := [
  ('\x22', '\x22'), ('\x5c', '\x5c'), ('\x08', 'b'), ('\x09', 't'), ('\x0a', 'n'), ('\x0c', 'f'),
  ('\x0d', 'r')]

/-- A character is escaped by its letter or by its code point, or it stands for itself. -/
theorem quotedChar_cases (c : Char) :
    (∃ d, (c, d) ∈ shortEscapes ∧ quotedChar c = ['\x5c', d]) ∨
    (c.toNat < 0x10000 ∧ quotedChar c = codeEscape c) ∨
    (c ≠ '\x22' ∧ c ≠ '\x5c' ∧ 0x20 ≤ c.toNat ∧ c.toNat ≠ 0x2028 ∧ c.toNat ≠ 0x2029) ∧
      quotedChar c = [c] := by
  generalize hw : quotedChar c = w
  unfold quotedChar at hw
  repeat' split at hw
  case isFalse.isFalse.isFalse.isFalse.isFalse.isFalse.isFalse.isTrue hcode =>
    simp only [Bool.or_eq_true, beq_iff_eq, decide_eq_true_eq] at hcode
    exact .inr (.inl ⟨by omega, hw.symm⟩)
  case isFalse.isFalse.isFalse.isFalse.isFalse.isFalse.isFalse.isFalse hquote hslash _ _ _ _ _
      hcode =>
    simp only [Bool.or_eq_true, beq_iff_eq, decide_eq_true_eq, not_or, Nat.not_lt] at hcode
    exact .inr (.inr ⟨⟨hquote, hslash, hcode.1.1, hcode.1.2, hcode.2⟩, hw.symm⟩)
  all_goals
    subst c
    exact .inl ⟨_, by decide, hw.symm⟩

/-- An escape by code point is made of a backslash, its letter and hexadecimal digits. -/
theorem mem_codeEscape {c d : Char} (h : d ∈ codeEscape c) :
    d = '\x5c' ∨ d = 'u' ∨ ∃ n < 16, d = hexDigit n := by
  have hdigits : ∀ {width n}, d ∈ hexDigits width n → ∃ m < 16, d = hexDigit m := by
    intro width n hmem
    induction width with
    | zero => cases hmem
    | succ width ih =>
      rcases List.mem_cons.1 hmem with hd | hrest
      · exact ⟨_, Nat.mod_lt _ (by decide), hd⟩
      · exact ih hrest
  simp only [codeEscape, List.mem_cons] at h
  rcases h with hslash | hletter | hmem
  · exact .inl hslash
  · exact .inr (.inl hletter)
  · exact .inr (.inr (hdigits hmem))

/-- A text as the characters of a string literal, quotes included. -/
def quotedChars (cs : List Char) : List Char :=
  '\x22' :: (cs.flatMap quotedChar ++ ['\x22'])

/-- A text as a string literal. -/
def quote (text : String) : String :=
  String.ofList (quotedChars text.toList)

end Espalier.Text
