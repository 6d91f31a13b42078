import Espalier.Attribute
import Espalier.Proofs.Scan.Enclosed
import Espalier.Proofs.Scan.Items

/-!
# The operands of a class

The value of a `class` attribute is read up to three times: to find the end of an array literal, to
split the literal into its items, and once the items have become operands of a sum, in parentheses.
The second reading cannot fail where the first one succeeded (`classItems?_succeeds`). The third one
gives back an operand exactly when the operand does not end inside a line comment
(`classItems_selfContained_iff`): an item loses the blanks at its ends, and with them the line end
that closes a comment (`classItems_open_comment`).
-/

namespace Espalier

open Espalier.Text Espalier.Scan

/-! ## Splitting an array literal -/

/-- The text of a span can be split, at any separator. -/
theorem topLevelParts_of_expressionAt {source closer : String} {start : Nat} {span : Span}
    (h : expressionAt source start closer = .ok span) (separator : String) :
    ∃ parts, topLevelParts span.text separator = .ok parts := by
  unfold expressionAt at h
  split at h
  case h_1 => cases h
  case h_2 cut hcut =>
    cases h
    exact topLevelParts_of_closedBy hcut separator

/-- The operands of a `class` value are always found: whatever stands between the brackets of an
array literal can be split once the closing bracket has been found. -/
theorem classItems?_succeeds (value : String) :
    classItems? value = .ok (classItems value) ∧
    ∀ span, expressionAt (String.ofList (strip value.toList)) 1 "]" = .ok span →
      ∃ items, topLevelParts span.text "," = .ok items :=
  ⟨classItems?_eq value, fun _ h => topLevelParts_of_expressionAt h ","⟩

/-- A comma inside a group does not split an item, and an item of blanks adds no operand. -/
theorem classItems?_succeeds_group :
    classItems? " [a, f(b, c), ]" = .ok ["a", "f(b, c)"] ∧
    expressionAt "[a, f(b, c), ]" 1 "]" = .ok ⟨1, 13, "a, f(b, c), "⟩ ∧
    ∃ items, topLevelParts "a, f(b, c), " "," = .ok items := by
  have hitems : classItems " [a, f(b, c), ]" = ["a", "f(b, c)"] := by decide +kernel
  have hspan : expressionAt "[a, f(b, c), ]" 1 "]" = .ok ⟨1, 13, "a, f(b, c), "⟩ := by
    decide +kernel
  obtain ⟨hfound, hsplit⟩ := classItems?_succeeds " [a, f(b, c), ]"
  exact ⟨hitems ▸ hfound, hspan, hsplit ⟨1, 13, "a, f(b, c), "⟩ hspan⟩

/-! ## Operands in parentheses -/

/-- The text is read as one expression up to a parenthesis behind it, whatever follows. -/
def SelfContained (source : String) : Prop :=
  ∀ tail : String, expressionAt (source ++ ")" ++ tail) 0 ")" = .ok ⟨0, source.length, source⟩

/-- The text ends inside a line comment: with anything added on its last line and the line ended, it
is self-contained. -/
def EndsInComment (source : String) : Prop :=
  ∀ more : String, '\n' ∉ more.toList → SelfContained (source ++ more ++ "\n")

theorem selfContained_iff {source : String} :
    SelfContained source ↔ Balanced true source.toList := by
  have hparen (tail : String) := expressionAt_paren_iff "" source tail
  simp only [String.empty_append, String.length_empty, Nat.zero_add] at hparen
  exact ⟨fun h => (hparen "").1 (h ""), fun h tail => (hparen tail).2 h⟩

/-- An open comment takes in a parenthesis. -/
theorem EndsInComment.not_selfContained {source : String} (h : EndsInComment source) :
    ¬SelfContained source := by
  intro hself
  have hfirst := hself "\n)"
  have hsecond := h ")" (by decide) ""
  have hsame : source ++ ")" ++ "\n" ++ ")" ++ "" = source ++ ")" ++ "\n)" := by
    simp [← String.toList_inj]
  rw [hsame] at hsecond
  have hlength := congrArg Span.stop (Except.ok.inj (hfirst.symm.trans hsecond))
  have hparen : ")".length = 1 := rfl
  simp only [String.length_append] at hlength
  omega

theorem EndsInComment.of_commented {source : String} (h : Commented true source.toList) :
    EndsInComment source := by
  intro more hmore
  rw [selfContained_iff]
  simpa using h.takesIn more.toList hmore

/-- An operand of a class is the value as it is, or an item of it without the blanks at its ends. -/
theorem mem_classItems {value operand : String} (h : operand ∈ classItems value) :
    operand = value ∨ ∃ part, ListItem true part ∧ part <:+: value.toList ∧
      operand = String.ofList (strip part) := by
  obtain rfl | ⟨inner, cut, items, hstripped, hcut, hitems, item, hitem, rfl⟩ :=
    exists_of_mem_classItems h
  · exact .inl rfl
  · obtain ⟨hinner, -, hbody⟩ := upToUnmatched_eq_some_iff.1 (closedBy_eq_ok_iff.1 hcut).1
    obtain ⟨hlisted, hpart⟩ := items_of_topLevelParts hbody hitems item hitem
    have hwithin : cut.body <:+: '[' :: inner := by
      rw [hinner]
      exact ⟨['['], cut.closer :: cut.rest, by simp⟩
    have hvalue : '[' :: inner <:+: value.toList := hstripped ▸ isInfix_strip _
    exact .inr ⟨item.toList, hlisted, hpart.trans (hwithin.trans hvalue), rfl⟩

/-- An operand of a balanced value is a piece of it that is balanced or ends inside a line
comment. -/
theorem ended_of_mem_classItems {value operand : String} (hvalue : Balanced true value.toList)
    (h : operand ∈ classItems value) :
    Ended true operand.toList ∧ operand.toList <:+: value.toList := by
  rcases mem_classItems h with rfl | ⟨part, hitem, hwithin, rfl⟩
  · exact ⟨.inl hvalue, List.infix_refl _⟩
  · rw [String.toList_ofList]
    exact ⟨hitem.balanced.strip, (isInfix_strip part).trans hwithin⟩

/-- The operands of a class whose value is one expression: an operand is self-contained exactly when
it does not end inside a line comment, and so always when the value holds no two slashes in a
row. -/
theorem classItems_selfContained_iff (value : String)
    (hvalue : expressionAt (value ++ "\x7d") 0 "\x7d" = .ok ⟨0, value.length, value⟩) :
    ∀ operand ∈ classItems value,
      (SelfContained operand ↔ ¬EndsInComment operand) ∧
      (¬['/', '/'] <:+: value.toList → SelfContained operand) := by
  have hbalanced : Balanced true value.toList := by
    have hbrace : "\x7d" = String.singleton '\x7d' := rfl
    have henclosed := expressionAt_enclosed_iff "" value "" (show isCloser '\x7d' = true from rfl)
    simp only [String.empty_append, String.append_empty, String.length_empty, Nat.zero_add,
      ← hbrace] at henclosed
    exact henclosed.1 hvalue
  intro operand hoperand
  obtain ⟨hended, hwithin⟩ := ended_of_mem_classItems hbalanced hoperand
  rcases hended with hclosed | hopen
  · have hself := selfContained_iff.2 hclosed
    exact ⟨⟨fun _ hcomment => hcomment.not_selfContained hself, fun _ => hself⟩, fun _ => hself⟩
  · have hcomment := EndsInComment.of_commented hopen
    refine ⟨⟨fun hself => absurd hself hcomment.not_selfContained, fun h => absurd hcomment h⟩, ?_⟩
    intro hnone
    obtain ⟨code, comment, hslashes, -⟩ := hopen.slashes
    exact absurd (List.IsInfix.trans ⟨code, comment, by rw [hslashes]; simp⟩ hwithin) hnone

/-- Commas and brackets inside a literal do not cut an operand short. -/
theorem classItems_selfContained_regex :
    expressionAt ("[a, b ? /[,)]/ : \x22]\x22]" ++ "\x7d") 0 "\x7d"
      = .ok ⟨0, 21, "[a, b ? /[,)]/ : \x22]\x22]"⟩ ∧
    "b ? /[,)]/ : \x22]\x22" ∈ classItems "[a, b ? /[,)]/ : \x22]\x22]" ∧
    SelfContained "b ? /[,)]/ : \x22]\x22" := by
  have hvalue : expressionAt ("[a, b ? /[,)]/ : \x22]\x22]" ++ "\x7d") 0 "\x7d"
      = .ok ⟨0, 21, "[a, b ? /[,)]/ : \x22]\x22]"⟩ := by decide +kernel
  have hmem : "b ? /[,)]/ : \x22]\x22" ∈ classItems "[a, b ? /[,)]/ : \x22]\x22]" := by
    decide +kernel
  exact ⟨hvalue, hmem, ((classItems_selfContained_iff _ hvalue _ hmem).2 (by decide))⟩

/-- The first item of this array loses the line end that closes its comment, and a parenthesis
behind it is not found. -/
theorem classItems_open_comment :
    expressionAt ("[a // x\n, b]" ++ "\x7d") 0 "\x7d" = .ok ⟨0, 12, "[a // x\n, b]"⟩ ∧
    topLevelParts "[a // x\n, b]" "," = .ok ["[a // x\n, b]"] ∧
    "a // x" ∈ classItems "[a // x\n, b]" ∧
    expressionAt ("a // x" ++ ")") 0 ")" = .error ⟨.unclosed, 7⟩ := by
  decide +kernel

end Espalier
