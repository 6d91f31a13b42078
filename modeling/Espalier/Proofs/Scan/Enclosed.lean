import Espalier.Proofs.Scan.Expression
import Espalier.Proofs.Scan.Tokens
import Espalier.Proofs.Script.Spelling

/-!
# Text between parentheses

A text stands between parentheses when the reading that begins behind the opening one stops exactly
at the closing one, whatever follows. By `expressionAt_paren_iff` this is the same as being
balanced, so that a text that was accepted before another bracket may stand there as well. String
literals may too, whatever they hold: `balanced_quotedChars`.
-/

namespace Espalier.Scan

open Espalier.Text Espalier.Script

/-- A text is read up to the parenthesis behind it exactly when it is balanced. -/
theorem expressionAt_paren_iff (front body after : String) :
    expressionAt (front ++ body ++ ")" ++ after) front.length ")"
        = .ok ⟨front.length, front.length + body.length, body⟩ ↔ Balanced true body.toList := by
  have hparen : ")" = String.singleton ')' := rfl
  rw [hparen]
  exact expressionAt_enclosed_iff front body after rfl

/-! ## String literals -/

/-- The characters that stand for one character belong to the inside of a literal. -/
theorem QuotedText.quotedChar_append (c : Char) {cs : List Char} (h : QuotedText '\x22' cs) :
    QuotedText '\x22' (quotedChar c ++ cs) := by
  have hdigit {w : List Char} (width : Nat) (hw : QuotedText '\x22' w) :
      QuotedText '\x22' (Text.hexDigit (c.toNat / Nat.pow 16 width % 16) :: w) :=
    hw.hexDigit (.inl rfl) (isHexDigit_hexDigit (Nat.mod_lt _ (by decide)))
  rcases quotedChar_cases c with ⟨d, -, hc⟩ | ⟨-, hc⟩ | ⟨⟨hquote, hslash, hplain⟩, hc⟩
  · rw [hc]
    exact .escape h
  · rw [hc]
    exact .escape (hdigit 3 (hdigit 2 (hdigit 1 (hdigit 0 h))))
  · rw [hc]
    have hline : c ≠ '\n' := by
      rintro rfl
      exact absurd hplain.1 (by decide)
    exact .char hslash hquote hline h

theorem quotedText_flatMap (cs : List Char) :
    QuotedText '\x22' (cs.flatMap quotedChar ++ ['\x22']) := by
  induction cs with
  | nil => exact .close
  | cons c cs ih =>
    rw [List.flatMap_cons, List.append_assoc]
    exact ih.quotedChar_append c

/-- A string literal is balanced, whatever text it holds. -/
theorem balanced_quotedChars (cs : List Char) : Balanced true (quotedChars cs) := by
  have hliteral : Balanced true ('\x22' :: (cs.flatMap quotedChar ++ ['\x22'] ++ [])) :=
    .quoted (.inl rfl) (quotedText_flatMap cs) .nil
  rwa [List.append_nil] at hliteral

end Espalier.Scan
