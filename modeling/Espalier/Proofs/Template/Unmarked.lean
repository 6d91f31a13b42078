import Espalier.Proofs.Attribute.Keys
import Espalier.Proofs.Interpolation.Pieces
import Espalier.Template.Generate

/-!
# Text without reserved names

Reserved names begin with a letter of their own. What is made of text without this letter is without
it: literals, camel case, the parts of a list of classes and the segments of an interpolated text.
Main statements: `unmarked_objectLiteral` and `unmarked_segments`.
-/

namespace Espalier

open Espalier.Text Espalier.Scan

/-- The text holds no first letter of a reserved name. -/
def Unmarked (text : String) : Prop :=
  Marker.opening ∉ text.toList

instance (text : String) : Decidable (Unmarked text) :=
  inferInstanceAs (Decidable (Marker.opening ∉ text.toList))

section
variable {a b : String} {cs : List Char}

@[simp] theorem unmarked_append : Unmarked (a ++ b) ↔ Unmarked a ∧ Unmarked b := by
  simp [Unmarked]

@[simp] theorem unmarked_ofList : Unmarked (String.ofList cs) ↔ Marker.opening ∉ cs := by
  simp [Unmarked]

theorem unmarked_intercalate {gap : String} {parts : List String} (hgap : Unmarked gap)
    (h : ∀ part ∈ parts, Unmarked part) : Unmarked (String.intercalate gap parts) := by
  match parts with
  | [] => exact List.not_mem_nil
  | [part] =>
    rw [String.intercalate_singleton]
    exact h part List.mem_cons_self
  | first :: second :: rest =>
    obtain ⟨hfirst, hrest⟩ := List.forall_mem_cons.1 h
    rw [String.intercalate_cons_cons]
    exact unmarked_append.2 ⟨unmarked_append.2 ⟨hfirst, hgap⟩, unmarked_intercalate hgap hrest⟩

end

/-! ## Literals -/

/-- An escape is made of ASCII characters. -/
theorem not_mem_codeEscape (c : Char) : Marker.opening ∉ codeEscape c := by
  have hdigit : ∀ n < 16, Marker.opening ≠ hexDigit n := by decide
  intro hmem
  rcases mem_codeEscape hmem with h | h | ⟨n, hn, h⟩
  · cases h
  · cases h
  · exact hdigit n hn h

theorem not_mem_quotedChar {c : Char} (h : c ≠ Marker.opening) : Marker.opening ∉ quotedChar c := by
  have hescape : ∀ p ∈ shortEscapes, Marker.opening ∉ ['\x5c', p.2] := by decide
  rcases quotedChar_cases c with ⟨d, hshort, hc⟩ | ⟨-, hc⟩ | ⟨-, hc⟩
  · rw [hc]
    exact hescape _ hshort
  · rw [hc]
    exact not_mem_codeEscape c
  · rw [hc]
    exact fun hmem => h (List.mem_singleton.1 hmem).symm

theorem unmarked_quote {text : String} (h : Unmarked text) : Unmarked (quote text) := by
  rw [quote, unmarked_ofList, quotedChars]
  intro hmem
  rw [List.mem_cons, List.mem_append, List.mem_flatMap, List.mem_singleton] at hmem
  obtain hquote | ⟨c, hc, hmem⟩ | hquote := hmem
  · cases hquote
  · exact not_mem_quotedChar (fun heq => h (heq ▸ hc)) hmem
  · cases hquote

/-! ## Names -/

/-- No character becomes the letter when it is written in upper case. -/
theorem not_mem_upper {c : Char} (h : c ≠ Marker.opening) : Marker.opening ∉ upper c := by
  have huntabled : Untabled Marker.opening := by decide +kernel
  have hascii : ∀ n < 128, Marker.opening ≠ (Char.ofNat n).toUpper := by decide
  intro hmem
  obtain ⟨hsmall, hupper⟩ | ⟨-, hself⟩ := huntabled.mem_upper hmem
  · have hc := hascii c.toNat hsmall
    rw [Char.ofNat_toNat] at hc
    exact hc hupper
  · exact h hself.symm

/-- A character in front of the first part. -/
theorem not_mem_consPart {c : Char} {parts : List (List Char)} (hc : c ≠ Marker.opening)
    (h : ∀ part ∈ parts, Marker.opening ∉ part) :
    ∀ part ∈ consPart c parts, Marker.opening ∉ part := by
  cases parts with
  | nil => exact List.forall_mem_singleton.2 fun hmem => hc (List.mem_singleton.1 hmem).symm
  | cons first parts =>
    obtain ⟨hfirst, hparts⟩ := List.forall_mem_cons.1 h
    exact List.forall_mem_cons.2 ⟨List.not_mem_cons_of_ne_of_not_mem (Ne.symm hc) hfirst, hparts⟩

theorem unmarked_camelName {name : String} (h : Unmarked name) : Unmarked (camelName name) := by
  rw [camelName, unmarked_ofList]
  intro hmem
  obtain ⟨part, hpart, hmem⟩ | ⟨part, hpart, c, hc, hmem⟩ := mem_camelChars hmem
  · exact h (mem_of_mem_cutAt hpart hmem)
  · exact not_mem_upper (fun heq => h (heq ▸ mem_of_mem_cutAt hpart hc)) hmem

theorem unmarked_propertyKey {name : String} (h : Unmarked name) : Unmarked (propertyKey name) := by
  unfold propertyKey
  split
  · decide
  · split
    · exact h
    · exact unmarked_camelName h

theorem unmarked_elementType {name : String} (h : Unmarked name) : Unmarked (elementType name) := by
  unfold elementType
  split
  · exact unmarked_quote h
  · exact h

/-! ## Classes -/

theorem not_mem_strip {cs : List Char} (h : Marker.opening ∉ cs) : Marker.opening ∉ strip cs := by
  rw [strip, stripRight, List.mem_reverse]
  intro hmem
  have hback := (List.dropWhile_suffix _).subset hmem
  exact h ((List.dropWhile_suffix _).subset (List.mem_reverse.1 hback))

/-- The parts of a text hold nothing but its characters. -/
theorem not_mem_partsFrom {separator : String} {size : Nat} {cs : List Char}
    (h : Marker.opening ∉ cs) : ∀ {s : State} {position : Nat} {parts : List (List Char)},
    partsFrom separator size s position cs = .ok parts → ∀ part ∈ parts, Marker.opening ∉ part := by
  induction cs with
  | nil =>
    intro s position parts hparts
    rw [partsFrom] at hparts
    split at hparts
    · cases hparts
    · cases hparts
      exact List.forall_mem_singleton.2 List.not_mem_nil
  | cons c cs ih =>
    rw [List.mem_cons, not_or] at h
    intro s position parts hparts
    rw [partsFrom] at hparts
    split at hparts
    case h_1 | h_2 => cases hparts
    case h_3 =>
      split at hparts
      case h_1 => cases hparts
      case h_2 found hfound =>
        have hrest := ih h.2 hfound
        split at hparts
        · cases hparts
          exact List.forall_mem_cons.2 ⟨List.not_mem_nil, hrest⟩
        · cases hparts
          exact not_mem_consPart (Ne.symm h.1) hrest

theorem unmarked_topLevelParts {body : List Char} {separator : String} {items : List String}
    (h : Marker.opening ∉ body)
    (hitems : topLevelParts (String.ofList body) separator = .ok items) :
    ∀ item ∈ items, Unmarked item := by
  unfold topLevelParts at hitems
  rw [String.toList_ofList] at hitems
  split at hitems
  case h_1 => cases hitems
  case h_2 parts hparts =>
    cases hitems
    intro item hitem
    obtain ⟨part, hpart, rfl⟩ := List.mem_map.1 hitem
    exact unmarked_ofList.2 (not_mem_partsFrom h hparts part hpart)

theorem unmarked_classItems {value : String} (h : Unmarked value) :
    ∀ item ∈ classItems value, Unmarked item := by
  intro item hitem
  obtain rfl | ⟨inner, cut, items, hstripped, hcut, hitems, part, hpart, rfl⟩ :=
    exists_of_mem_classItems hitem
  · exact h
  · have hbody : Marker.opening ∉ cut.body := by
      intro hmem
      have hinner : '[' :: inner = '[' :: (cut.body ++ cut.closer :: cut.rest) := by
        rw [closedBy_append hcut]
      refine not_mem_strip h ?_
      rw [hstripped, hinner]
      exact List.mem_cons_of_mem _ (List.mem_append_left _ hmem)
    exact unmarked_ofList.2 (not_mem_strip (unmarked_topLevelParts hbody hitems part hpart))

theorem unmarked_classValue {classes : List String} (h : ∀ item ∈ classes, Unmarked item) :
    Unmarked (classValue classes) := by
  unfold classValue
  split
  · exact h _ List.mem_cons_self
  · refine unmarked_intercalate (by decide) ?_
    intro part hpart
    obtain ⟨item, hitem, rfl⟩ := List.mem_map.1 hpart
    unfold summand
    split
    · exact h item hitem
    · simp [h item hitem]
      decide

/-! ## Properties -/

theorem unmarked_objectLiteral {attrs : List (Attribute String)}
    (h : ∀ attr ∈ attrs, Unmarked attr.name ∧ Unmarked attr.value) :
    Unmarked (objectLiteral attrs) := by
  have hplain : ∀ entry ∈ plainEntries attrs, Unmarked entry := by
    intro entry hentry
    obtain ⟨attr, hattr, rfl⟩ := List.mem_map.1 hentry
    obtain ⟨hname, hvalue⟩ := h attr (List.mem_filter.1 hattr).1
    rw [unmarked_append, unmarked_append]
    exact ⟨⟨unmarked_quote (unmarked_propertyKey hname), by decide⟩, hvalue⟩
  have hclasses : ∀ item ∈ classesOf attrs, Unmarked item := by
    intro item hitem
    obtain ⟨attr, hattr, hitem⟩ := List.mem_flatMap.1 hitem
    exact unmarked_classItems (h attr (List.mem_filter.1 hattr).1).2 item hitem
  have hclass : ∀ entry ∈ classEntry (classesOf attrs), Unmarked entry := by
    unfold classEntry
    split
    · exact fun entry hentry => absurd hentry List.not_mem_nil
    · refine List.forall_mem_singleton.2
        (unmarked_append.2 ⟨by decide, unmarked_classValue hclasses⟩)
  have hentries : Unmarked (String.intercalate ","
      (plainEntries attrs ++ classEntry (classesOf attrs))) :=
    unmarked_intercalate (by decide) (List.forall_mem_append.2 ⟨hplain, hclass⟩)
  rw [objectLiteral, unmarked_append, unmarked_append]
  exact ⟨⟨by decide, hentries⟩, by decide⟩

/-! ## Interpolated text -/

namespace Interpolation

theorem unmarked_literal {pending : List Char} (h : Marker.opening ∉ pending) :
    ∀ segment ∈ literal pending, Unmarked segment.source := by
  unfold literal
  split
  · exact fun segment hsegment => absurd hsegment List.not_mem_nil
  · have hquote : Unmarked (quote (String.ofList pending.reverse)) :=
      unmarked_quote (by simpa using h)
    rw [quote, String.toList_ofList] at hquote
    exact List.forall_mem_singleton.2 hquote

theorem unmarked_segmentsFrom {size : Nat} {cs : List Char} (h : Marker.opening ∉ cs) :
    ∀ {pending : List Char} {position : Nat}, Marker.opening ∉ pending →
      ∀ segment ∈ (segmentsFrom size pending position cs).1, Unmarked segment.source := by
  induction hlength : cs.length using Nat.strongRecOn generalizing cs with
  | ind n ih =>
    subst hlength
    intro pending position hpending
    have hleads := leads_lead cs
    generalize hlead : lead cs = found at hleads
    cases hleads with
    | done =>
      rw [segmentsFrom_done hlead]
      exact unmarked_literal hpending
    | @other c rest =>
      rw [List.mem_cons, not_or] at h
      rw [segmentsFrom_other hlead]
      exact ih _ (Nat.lt_succ_self _) h.2 rfl (List.not_mem_cons_of_ne_of_not_mem h.1 hpending)
    | escaped kind rest =>
      simp only [List.mem_cons, not_or] at h
      rw [segmentsFrom_escaped hlead]
      refine ih _ (by simp; omega) h.2.2.2 rfl ?_
      exact List.not_mem_cons_of_ne_of_not_mem h.2.2.1
        (List.not_mem_cons_of_ne_of_not_mem h.2.1 hpending)
    | opened kind rest =>
      simp only [List.mem_cons, not_or] at h
      rw [segmentsFrom_opened hlead]
      cases hcut : closedBy "\x7d" size (position + 2) rest with
      | error fault => exact fun segment hsegment => absurd hsegment List.not_mem_nil
      | ok cut =>
        have happend := closedBy_append hcut
        have hbody : Marker.opening ∉ cut.body := fun hmem =>
          h.2.2 (happend ▸ List.mem_append_left _ hmem)
        have hrest : Marker.opening ∉ cut.rest := fun hmem =>
          h.2.2 (happend ▸ List.mem_append_right _ (List.mem_cons_of_mem _ hmem))
        dsimp only
        split
        · exact fun segment hsegment => absurd hsegment List.not_mem_nil
        · refine List.forall_mem_append.2 ⟨unmarked_literal hpending, ?_⟩
          refine List.forall_mem_cons.2 ⟨unmarked_ofList.2 hbody, ?_⟩
          exact ih _ (by rw [happend]; simp; omega) hrest rfl List.not_mem_nil

end Interpolation

/-- The segments of a text hold nothing of a reserved name that the text does not hold. -/
theorem unmarked_segments {value : String} (h : Unmarked value) :
    ∀ segment ∈ (interpolate value).1, Unmarked segment.source :=
  Interpolation.unmarked_segmentsFrom h List.not_mem_nil

end Espalier
