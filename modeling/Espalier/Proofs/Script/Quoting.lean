import Espalier.Proofs.Scan.Enclosed

/-!
# What a string literal stands for

A text is written as a string literal by `quote`. What the literal stands for is settled by its
readers: ES5 gives it a sequence of 16-bit code units (`literalUnits?`), and the machine that looks
for brackets passes over it up to the quote that ends it (`literalEnd`). Main result:
`quote_faithful`. The escape of one character is decoded as a whole (`literalUnits?_quotedChar`),
whatever follows it, so that a run of backslashes and quotes is never split inside an escape.
-/

namespace Espalier.Scan

open Espalier.Text

/-! ## The end of a literal -/

/-- The offset behind the first step that ends in code; the end of the text if there is none and
nothing is open there. -/
def codeFrom (size : Nat) (s : State) (position : Nat) : List Char → Except Fault Nat
  | [] =>
    match s.faultAtEnd size with
    | some fault => .error fault
    | none => .ok position
  | c :: cs =>
    match s.step position c cs.head? with
    | .error fault => .error fault
    | .ok (s', _) =>
      if s'.mode = .code then .ok (position + 1) else codeFrom size s' (position + 1) cs

/-- The offset behind the string literal that begins at `start`. -/
def literalEnd (source : String) (start : Nat) : Except Fault Nat :=
  codeFrom source.length {} start (source.toList.drop start)

theorem codeFrom_cons {size position : Nat} {s s' : State} {c : Char} {cs : List Char}
    {event : Event} (hstep : s.step position c cs.head? = .ok (s', event))
    (hmode : s'.mode ≠ .code) :
    codeFrom size s position (c :: cs) = codeFrom size s' (position + 1) cs := by
  rw [codeFrom, hstep]
  exact if_neg hmode

theorem codeFrom_quoted {mark : Char} {text rest : List Char} {size start : Nat}
    {stack : List Frame} {operand : Bool} (htext : QuotedText mark text) (hmark : mark ≠ '\x5c')
    (position : Nat) :
    codeFrom size ⟨.quoted mark start false, stack, operand⟩ position (text ++ rest)
      = .ok (position + text.length) := by
  have hmode (escaped : Bool) : Mode.quoted mark start escaped ≠ .code := by simp
  induction htext generalizing position with
  | close => simp [codeFrom, State.step, hmark]
  | escape _ ih =>
    rw [List.cons_append, List.cons_append, codeFrom_cons rfl (hmode true),
      codeFrom_cons rfl (hmode false), ih, List.length_cons, List.length_cons, Nat.add_assoc,
      Nat.add_assoc, Nat.add_comm 1, Nat.add_comm 1, Nat.add_assoc]
  | @char c _ hslash hne hline _ ih =>
    have hstep (next : Option Char) :
        State.step ⟨.quoted mark start false, stack, operand⟩ position c next
          = .ok (⟨.quoted mark start false, stack, operand⟩, .covered) := by
      simp [State.step, hslash, hne, hline]
    rw [List.cons_append, codeFrom_cons (hstep _) (hmode false), ih, List.length_cons,
      Nat.add_assoc, Nat.add_comm 1]

/-- The end of a literal is found, whatever text it holds and whatever stands around it. -/
theorem literalEnd_quote (front text tail : String) :
    literalEnd (front ++ quote text ++ tail) front.length
      = .ok (front.length + (quote text).length) := by
  have hdrop : (front ++ quote text ++ tail).toList.drop front.length
      = '\x22' :: (text.toList.flatMap quotedChar ++ ['\x22'] ++ tail.toList) := by
    simp [quote, quotedChars, ← String.length_toList]
  have hlength : (quote text).length = (text.toList.flatMap quotedChar ++ ['\x22']).length + 1 := by
    rw [← String.length_toList, quote, String.toList_ofList, quotedChars, List.length_cons]
  have hmode : Mode.quoted '\x22' front.length false ≠ .code := by simp
  rw [literalEnd, hdrop, codeFrom_cons rfl hmode,
    codeFrom_quoted (quotedText_flatMap text.toList) (by decide), hlength, Nat.add_assoc,
    Nat.add_comm 1]

end Espalier.Scan

namespace Espalier.Script

open Espalier.Text Espalier.Scan

/-! ## Code units -/

/-- The first unit of a pair. -/
def isHighSurrogate (unit : Nat) : Bool :=
  0xd800 ≤ unit && unit < 0xdc00

/-- The second unit of a pair. -/
def isLowSurrogate (unit : Nat) : Bool :=
  0xdc00 ≤ unit && unit < 0xe000

/-- The code units of a character: a pair if its code point has more than 16 bits. -/
def codeUnits (c : Char) : List Nat :=
  if c.toNat < 0x10000 then [c.toNat]
  else [0xd800 + (c.toNat - 0x10000) / 0x400, 0xdc00 + (c.toNat - 0x10000) % 0x400]

/-- The characters that a sequence of code units encodes. There are none if half a pair is
missing. -/
def ofUnits? : List Nat → Option (List Char)
  | [] => some []
  | unit :: units =>
    if isHighSurrogate unit then
      match units with
      | [] => none
      | low :: units =>
        if isLowSurrogate low then
          (ofUnits? units).map
            (Char.ofNat (0x10000 + (unit - 0xd800) * 0x400 + (low - 0xdc00)) :: ·)
        else none
    else if isLowSurrogate unit then none
    else (ofUnits? units).map (Char.ofNat unit :: ·)

theorem ofUnits?_codeUnits (c : Char) (units : List Nat) :
    ofUnits? (codeUnits c ++ units) = (ofUnits? units).map (c :: ·) := by
  have hvalid : c.toNat < 0xd800 ∨ 0xdfff < c.toNat ∧ c.toNat < 0x110000 := c.valid
  unfold codeUnits
  split
  case isTrue =>
    have hhigh : isHighSurrogate c.toNat = false := by
      simp only [isHighSurrogate, Bool.and_eq_false_iff, decide_eq_false_iff_not]
      omega
    have hlow : isLowSurrogate c.toNat = false := by
      simp only [isLowSurrogate, Bool.and_eq_false_iff, decide_eq_false_iff_not]
      omega
    rw [List.singleton_append, ofUnits?.eq_def]
    simp [hhigh, hlow]
  case isFalse hwide =>
    have hhigh : isHighSurrogate (0xd800 + (c.toNat - 0x10000) / 0x400) = true := by
      simp only [isHighSurrogate, Bool.and_eq_true, decide_eq_true_eq]
      omega
    have hlow : isLowSurrogate (0xdc00 + (c.toNat - 0x10000) % 0x400) = true := by
      simp only [isLowSurrogate, Bool.and_eq_true, decide_eq_true_eq]
      omega
    have hcode : 0x10000 + (0xd800 + (c.toNat - 0x10000) / 0x400 - 0xd800) * 0x400
        + (0xdc00 + (c.toNat - 0x10000) % 0x400 - 0xdc00) = c.toNat := by omega
    rw [List.cons_append, List.singleton_append, ofUnits?, if_pos hhigh]
    simp only [if_pos hlow, hcode, Char.ofNat_toNat]

theorem ofUnits?_flatMap (cs : List Char) : ofUnits? (cs.flatMap codeUnits) = some cs := by
  induction cs with
  | nil => rfl
  | cons c cs ih =>
    rw [List.flatMap_cons, ofUnits?_codeUnits, ih]
    rfl

/-! ## The value of a literal -/

/-- The value of a hexadecimal digit. -/
def hexValue? (c : Char) : Option Nat :=
  if '0' ≤ c ∧ c ≤ '9' then some (c.toNat - 0x30)
  else if 'a' ≤ c ∧ c ≤ 'f' then some (c.toNat - 0x57)
  else if 'A' ≤ c ∧ c ≤ 'F' then some (c.toNat - 0x37)
  else none

/-- The number that hexadecimal digits stand for, with `n` in front of them. -/
def hexNumber? (n : Nat) : List Char → Option Nat
  | [] => some n
  | c :: cs =>
    match hexValue? c with
    | none => none
    | some digit => hexNumber? (16 * n + digit) cs

/-- The code units of a character behind a backslash. A digit, an `x` and a `u` do not stand for
themselves. -/
def escapeUnits? (c : Char) : Option (List Nat) :=
  match c with
  | 'b' => some [0x08]
  | 't' => some [0x09]
  | 'n' => some [0x0a]
  | 'v' => some [0x0b]
  | 'f' => some [0x0c]
  | 'r' => some [0x0d]
  | c => if c.isDigit || c == 'x' || c == 'u' then none else some (codeUnits c)

/-- The code units that the inside of a literal in double quotes stands for; the quote that ends it
is the last character. A backslash before a line end adds nothing. -/
def literalUnits? : List Char → Option (List Nat)
  | [] => none
  | ['\x22'] => some []
  | '\x5c' :: '\r' :: '\n' :: cs => literalUnits? cs
  | '\x5c' :: '0' :: cs =>
    if cs.head?.any Char.isDigit then none else (literalUnits? cs).map (0 :: ·)
  | '\x5c' :: 'x' :: a :: b :: cs =>
    (hexNumber? 0 [a, b]).bind fun unit => (literalUnits? cs).map (unit :: ·)
  | '\x5c' :: 'u' :: a :: b :: c :: d :: cs =>
    (hexNumber? 0 [a, b, c, d]).bind fun unit => (literalUnits? cs).map (unit :: ·)
  | '\x5c' :: c :: cs =>
    if endsLine c then literalUnits? cs
    else (escapeUnits? c).bind fun units => (literalUnits? cs).map (units ++ ·)
  | c :: cs =>
    if c = '\x22' || c = '\x5c' || endsLine c then none
    else (literalUnits? cs).map (codeUnits c ++ ·)

/-- The text that a literal in double quotes stands for. -/
def literalText? (literal : String) : Option String :=
  match literal.toList with
  | '\x22' :: cs => ((literalUnits? cs).bind ofUnits?).map String.ofList
  | _ => none

/-- Escapes that quoting does not write, the same character both as a pair and as itself, and a
backslash before a line end. -/
example : literalText? "\x22\x5cx41\x5cuD83D\x5cude00😀\x5c0\x5c\x0a\x5c'\x22"
    = some "A😀😀\x00'" := by
  decide +kernel

theorem hexValue?_hexDigit {n : Nat} (h : n < 16) : hexValue? (hexDigit n) = some n := by
  have hall : ∀ n < 16, hexValue? (hexDigit n) = some n := by decide
  exact hall n h

/-- The digits of a number are read back as far as they go. -/
theorem hexNumber?_hexDigits (front width n : Nat) :
    hexNumber? front (hexDigits width n)
      = some (front * Nat.pow 16 width + n % Nat.pow 16 width) := by
  induction width generalizing front with
  | zero => simp [hexDigits, hexNumber?, Nat.mod_one]
  | succ width ih =>
    have hdigit : hexValue? (hexDigit (n / Nat.pow 16 width % 16))
        = some (n / Nat.pow 16 width % 16) := hexValue?_hexDigit (Nat.mod_lt _ (by decide))
    have hpow : Nat.pow 16 (width + 1) = Nat.pow 16 width * 16 := rfl
    rw [hexDigits, hexNumber?, hdigit]
    simp only [ih]
    rw [hpow, Nat.mod_mul, Nat.mul_comm (Nat.pow 16 width) 16, Nat.add_mul, Nat.mul_comm 16 front,
      Nat.mul_assoc, Nat.add_assoc, Nat.mul_comm (_ % 16), Nat.add_comm (n % _)]

theorem literalUnits?_codeEscape {c : Char} (h : c.toNat < 0x10000) (rest : List Char) :
    literalUnits? (codeEscape c ++ rest) = (literalUnits? rest).map (codeUnits c ++ ·) := by
  have hunit : hexNumber? 0 (hexDigits 4 c.toNat) = some c.toNat := by
    have hlow : c.toNat % Nat.pow 16 4 = c.toNat := Nat.mod_eq_of_lt h
    rw [hexNumber?_hexDigits, hlow, Nat.zero_mul, Nat.zero_add]
  have hunits : codeUnits c = [c.toNat] := if_pos h
  simp only [hexDigits] at hunit
  simp only [hunits, codeEscape, hexDigits, List.cons_append, List.nil_append]
  rw [literalUnits?, hunit]
  rfl

/-- A character that stands for itself. -/
theorem literalUnits?_char {c : Char} (hquote : c ≠ '\x22') (hslash : c ≠ '\x5c')
    (hline : endsLine c = false) (rest : List Char) :
    literalUnits? (c :: rest) = (literalUnits? rest).map (codeUnits c ++ ·) := by
  rw [literalUnits?, hline]
  · simp [hquote, hslash]
  all_goals
    intros
    simp_all

/-- The characters that stand for one character are read together. -/
theorem literalUnits?_quotedChar (c : Char) (rest : List Char) :
    literalUnits? (quotedChar c ++ rest) = (literalUnits? rest).map (codeUnits c ++ ·) := by
  rcases quotedChar_cases c with ⟨d, hshort, hc⟩ | ⟨hcode, hc⟩ | ⟨⟨hquote, hslash, hplain⟩, hc⟩
  · rw [hc]
    simp only [shortEscapes, List.mem_cons, Prod.mk.injEq, List.not_mem_nil, or_false] at hshort
    rcases hshort with h | h | h | h | h | h | h <;> obtain ⟨rfl, rfl⟩ := h <;> rfl
  · rw [hc]
    exact literalUnits?_codeEscape hcode rest
  · rw [hc]
    have hline := endsLine_eq_false hplain.1 hplain.2.1 hplain.2.2
    exact literalUnits?_char hquote hslash hline rest

theorem literalUnits?_flatMap (cs : List Char) :
    literalUnits? (cs.flatMap quotedChar ++ ['\x22']) = some (cs.flatMap codeUnits) := by
  induction cs with
  | nil => rfl
  | cons c cs ih =>
    rw [List.flatMap_cons, List.append_assoc, literalUnits?_quotedChar, ih]
    rfl

/-- A literal stands for the text that was quoted. -/
theorem literalText?_quote (text : String) : literalText? (quote text) = some text := by
  have hunits : (literalUnits? (text.toList.flatMap quotedChar ++ ['\x22'])).bind ofUnits?
      = some text.toList := by
    rw [literalUnits?_flatMap]
    exact ofUnits?_flatMap text.toList
  simp [literalText?, quote, quotedChars, hunits]

/-- An escape holds no line end and no control character, and neither does a character that stands
for itself. -/
theorem endsLine_of_mem_quotedChar {c d : Char} (h : d ∈ quotedChar c) :
    endsLine d = false ∧ 0x20 ≤ d.toNat := by
  have hslash : endsLine '\x5c' = false ∧ 0x20 ≤ ('\x5c').toNat := by decide
  have hletter : ∀ p ∈ shortEscapes, endsLine p.2 = false ∧ 0x20 ≤ p.2.toNat := by decide
  have hdigit : ∀ n < 16, endsLine (hexDigit n) = false ∧ 0x20 ≤ (hexDigit n).toNat := by decide
  rcases quotedChar_cases c with ⟨letter, hshort, hc⟩ | ⟨-, hc⟩ | ⟨⟨-, -, hplain⟩, hc⟩
  · rw [hc, List.mem_cons, List.mem_singleton] at h
    rcases h with rfl | rfl
    · exact hslash
    · exact hletter _ hshort
  · rw [hc] at h
    rcases mem_codeEscape h with rfl | rfl | ⟨n, hn, rfl⟩
    · exact hslash
    · decide
    · exact hdigit n hn
  · rw [hc] at h
    obtain rfl := List.mem_singleton.1 h
    exact ⟨endsLine_eq_false hplain.1 hplain.2.1 hplain.2.2, hplain.1⟩

theorem endsLine_of_mem_quote {text : String} {c : Char} (h : c ∈ (quote text).toList) :
    endsLine c = false ∧ 0x20 ≤ c.toNat := by
  have hquote : endsLine '\x22' = false ∧ 0x20 ≤ ('\x22').toNat := by decide
  rw [quote, String.toList_ofList, quotedChars, List.mem_cons, List.mem_append,
    List.mem_singleton] at h
  rcases h with rfl | hinside | rfl
  · exact hquote
  · obtain ⟨d, -, hd⟩ := List.mem_flatMap.1 hinside
    exact endsLine_of_mem_quotedChar hd
  · exact hquote

/-- A quoted text is a string literal in one line without control characters. It stands for the
text, so that no two texts have the same literal, and it ends at its last character whatever
follows. -/
theorem quote_faithful :
    Function.Injective quote ∧
    ∀ text : String,
      literalText? (quote text) = some text ∧
      (∀ c ∈ (quote text).toList, endsLine c = false ∧ 0x20 ≤ c.toNat) ∧
      ∀ tail : String, literalEnd (quote text ++ tail) 0 = .ok (quote text).length := by
  refine ⟨fun text other h => ?_, fun text => ⟨literalText?_quote text, ?_, fun tail => ?_⟩⟩
  · have hsame := congrArg literalText? h
    rw [literalText?_quote, literalText?_quote] at hsame
    exact Option.some.inj hsame
  · exact fun _ => endsLine_of_mem_quote
  · simpa using literalEnd_quote "" text tail

end Espalier.Script
