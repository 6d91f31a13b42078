import Espalier.Proofs.Attribute.Classes

/-!
# The entries of an object literal

The static attributes of a tag become one object literal. Read from behind its brace it ends at its
last character, and split at its commas it gives back one entry per attribute and, if there is a
class, one for all classes: `objectLiteral_entries`. No value runs into the entry behind it, since
each is an item of a list, and so is what is written around it.

In a sum of classes each operand is free: it is a literal, a dotted name or a group, which is an
item whether an operand is expected before it or not.
-/

namespace Espalier

open Espalier.Text Espalier.Scan

/-! ## Sums of classes -/

/-- The text is an item of a list whether an operand is expected before it or not. -/
def Free (w : List Char) : Prop :=
  ∀ operand, ListItem operand w

section
variable {w : List Char}

theorem Free.nil : Free [] := fun _ => .nil

theorem Free.plain {cs : List Char} (hcs : ∀ c ∈ cs, isPassive c = true) (h : Free w) :
    Free (cs ++ w) := by
  induction cs with
  | nil => exact h
  | cons c cs ih =>
    obtain ⟨hc, hcs⟩ := List.forall_mem_cons.1 hcs
    exact fun _ => .char hc (ih hcs _)

/-- The characters of a dotted name in front of a free text. -/
theorem Free.word {name : List Char}
    (hname : ∀ c ∈ name, (isWord c || c == '$' || c == '.') = true) (h : Free w) :
    Free (name ++ w) := by
  refine h.plain fun c hc => ?_
  have hword := hname c hc
  rw [Bool.or_eq_true, beq_iff_eq] at hword
  rcases hword with hflag | rfl
  · exact isPassive_of_isFlag hflag
  · decide

theorem endsLiteral_char {mark c d : Char} {cs : List Char} (hslash : c ≠ '\x5c') :
    endsLiteral mark (c :: d :: cs) = (c != mark && endsLiteral mark (d :: cs)) := by
  have hchar : (c != '\x5c') = true := bne_iff_ne.2 hslash
  rw [endsLiteral]
  · rw [hchar, Bool.and_true]
  · exact nofun
  · rintro _ _ rfl
    exact absurd rfl hslash

/-- The literal of an operand ends where the operand does. -/
theorem eq_nil_of_endsLiteral {mark : Char} {text rest : List Char} (hmark : mark ≠ '\x5c')
    (htext : QuotedText mark text) (h : endsLiteral mark (text ++ rest) = true) : rest = [] := by
  induction htext with
  | close =>
    cases rest with
    | nil => rfl
    | cons c rest =>
      rw [List.singleton_append, endsLiteral_char hmark] at h
      simp at h
  | escape _ ih =>
    rw [List.cons_append, List.cons_append, endsLiteral, Bool.and_eq_true] at h
    exact ih h.2
  | @char c cs hslash _ _ htail ih =>
    cases cs with
    | nil => cases htail
    | cons d cs =>
      rw [List.cons_append, List.cons_append, endsLiteral_char hslash, Bool.and_eq_true] at h
      exact ih h.2

theorem Free.literal {mark : Char} {cs : List Char} (hmark : mark = '\x22' ∨ mark = '\x27')
    (hcs : Balanced true (mark :: cs)) (hends : endsLiteral mark cs = true) (h : Free w) :
    Free (mark :: (cs ++ w)) := by
  obtain ⟨text, rest, rfl, htext, -⟩ := hcs.of_quote hmark
  have hslash : mark ≠ '\x5c' := by rcases hmark with rfl | rfl <;> decide
  obtain rfl := eq_nil_of_endsLiteral hslash htext hends
  rw [List.append_nil]
  exact fun _ => .quoted hmark htext (h false)

theorem Free.group {inner : List Char} (hinner : Balanced true inner) (h : Free w) :
    Free ('(' :: (inner ++ ')' :: w)) := by
  have hopener : Frame.ofOpener? '(' = some .round := rfl
  exact fun _ => .group hopener hinner (h _)

/-- A balanced operand is free in the form in which it stands in a sum. -/
theorem Free.summand {operand : String} (hoperand : Balanced true operand.toList) (h : Free w) :
    Free ((Espalier.summand operand).toList ++ w) := by
  unfold Espalier.summand
  split
  case isTrue hsimple =>
    unfold isSimpleOperand at hsimple
    split at hsimple
    case h_1 => cases hsimple
    case h_2 c cs hcs =>
      rw [hcs] at hoperand ⊢
      simp only [Bool.or_eq_true, Bool.and_eq_true, beq_iff_eq] at hsimple
      rcases hsimple with ⟨hmark, hends⟩ | hname
      · exact .literal hmark hoperand hends h
      · exact .word (List.all_eq_true.1 hname) h
  case isFalse =>
    simpa using Free.group hoperand h

/-- What stands between two classes. -/
theorem Free.gap (h : Free w) : Free (classGap.toList ++ w) := by
  have hblank : QuotedText '\x22' [' ', '\x22'] :=
    .char (by decide) (by decide) (by decide) .close
  have hplus : ∀ c ∈ [' ', '+', ' '], isPassive c = true := List.all_eq_true.1 rfl
  have hliteral : Free ('\x22' :: ([' ', '\x22'] ++ ([' ', '+', ' '] ++ w))) :=
    fun _ => .quoted (.inl rfl) hblank (h.plain hplus _)
  have hgap : classGap.toList = [' ', '+', ' ', '\x22', ' ', '\x22', ' ', '+', ' '] := rfl
  have hfree : Free ([' ', '+', ' '] ++ _) := hliteral.plain hplus
  rwa [hgap]

theorem free_sum {classes : List String} (h : ∀ operand ∈ classes, Balanced true operand.toList) :
    Free (String.intercalate classGap (classes.map Espalier.summand)).toList := by
  induction classes with
  | nil => exact .nil
  | cons first classes ih =>
    obtain ⟨hfirst, hclasses⟩ := List.forall_mem_cons.1 h
    cases classes with
    | nil => simpa using Free.summand hfirst .nil
    | cons second classes =>
      have hrest := Free.summand hfirst (ih hclasses).gap
      simpa using hrest

end

/-! ## Entries -/

/-- A value that is read up to a brace behind it and not split is an item of a list. -/
theorem listItem_of_value {value : String}
    (hspan : expressionAt (value ++ "\x7d") 0 "\x7d" = .ok ⟨0, value.length, value⟩)
    (hsplit : topLevelParts value "," = .ok [value]) : ListItem true value.toList := by
  have hbrace : "\x7d" = String.singleton '\x7d' := rfl
  have henclosed := expressionAt_enclosed_iff "" value "" (show isCloser '\x7d' = true from rfl)
  simp only [String.empty_append, String.append_empty, String.length_empty, Nat.zero_add,
    ← hbrace] at henclosed
  have hbalanced := henclosed.1 hspan
  have hlisted := topLevelParts_eq_ok_iff.1 hsplit
  exact hlisted.items hbalanced _ (List.mem_singleton_self _)

/-- An operand of a class without two slashes in a row is an item, as the value of the class is. -/
theorem listItem_of_mem_classItems {value operand : String} (hvalue : ListItem true value.toList)
    (hnone : ¬['/', '/'] <:+: value.toList) (h : operand ∈ classItems value) :
    ListItem true operand.toList := by
  rcases mem_classItems h with rfl | ⟨part, hitem, hwithin, rfl⟩
  · exact hvalue
  · rw [String.toList_ofList]
    have hpiece := (isInfix_strip part).trans hwithin
    have hended := hitem.balanced.strip
    exact ⟨hended.balanced fun hslashes => hnone (hslashes.trans hpiece), hitem.undivided.strip⟩

theorem listItem_classValue {classes : List String}
    (h : ∀ operand ∈ classes, ListItem true operand.toList) :
    ListItem true (classValue classes).toList := by
  unfold classValue
  split
  case h_1 single => exact h single (List.mem_singleton_self _)
  case h_2 => exact free_sum (fun operand hmem => (h operand hmem).balanced) true

/-- A colon leaves the value behind it where an operand is expected. -/
theorem listItem_colon {operand : Bool} {value : List Char} (h : ListItem true value) :
    ListItem operand (':' :: value) :=
  .char rfl h

theorem listItem_plainEntry (key : String) {value : String} (h : ListItem true value.toList) :
    ListItem true (quote key ++ ":" ++ value).toList := by
  have hentry : ListItem true ('\x22' :: (key.toList.flatMap quotedChar ++ ['\x22']
      ++ ':' :: value.toList)) :=
    .quoted (.inl rfl) (quotedText_flatMap _) (listItem_colon h)
  simpa [quote, quotedChars] using hentry

theorem listItem_classEntry {value : String} (h : ListItem true value.toList) :
    ListItem true ("className:" ++ value).toList := by
  have hname : ∀ c ∈ "className".toList, isPassive c = true := List.all_eq_true.1 rfl
  have hvalue : Free (':' :: value.toList) := fun _ => listItem_colon h
  simpa using hvalue.plain hname true

/-- Every entry of an object literal is an item of its list. -/
theorem listItem_entries {attrs : List (Attribute String)}
    (hvalues : ∀ attr ∈ attrs, ListItem true attr.value.toList)
    (hclasses : ∀ attr ∈ attrs, attr.name = "class" → ¬['/', '/'] <:+: attr.value.toList) :
    ∀ entry ∈ plainEntries attrs ++ classEntry (classesOf attrs), ListItem true entry.toList := by
  intro entry hentry
  rcases List.mem_append.1 hentry with hplain | hclass
  · obtain ⟨attr, hattr, rfl⟩ := List.mem_map.1 hplain
    exact listItem_plainEntry _ (hvalues attr (List.mem_filter.1 hattr).1)
  · unfold classEntry at hclass
    split at hclass
    case isTrue => cases hclass
    case isFalse =>
      obtain rfl := List.mem_singleton.1 hclass
      refine listItem_classEntry (listItem_classValue fun operand hoperand => ?_)
      obtain ⟨attr, hattr, hitem⟩ := List.mem_flatMap.1 hoperand
      obtain ⟨hmem, hname⟩ := List.mem_filter.1 hattr
      exact listItem_of_mem_classItems (hvalues attr hmem)
        (hclasses attr hmem (of_decide_eq_true hname)) hitem

/-! ## The literal -/

/-- Items in braces are read up to the closing brace, and the inside splits into the items. -/
theorem braces_of_listItems {entries : List String}
    (h : ∀ entry ∈ entries, ListItem true entry.toList) :
    expressionAt ("\x7b" ++ String.intercalate "," entries ++ "\x7d") 1 "\x7d"
      = .ok ⟨1, 1 + (String.intercalate "," entries).length, String.intercalate "," entries⟩ ∧
    (entries ≠ [] → topLevelParts (String.intercalate "," entries) "," = .ok entries) := by
  have hitems : ∀ w ∈ entries.map String.toList, ListItem true w := List.forall_mem_map.2 h
  constructor
  · have hbrace : "\x7d" = String.singleton '\x7d' := rfl
    have hcloser : isCloser '\x7d' = true := rfl
    have hbalanced : Balanced true (String.intercalate "," entries).toList := by
      rw [String.toList_intercalate]
      exact balanced_intercalate hitems
    have hspan := (expressionAt_enclosed_iff "\x7b" _ "" hcloser).2 hbalanced
    rwa [String.append_empty, ← hbrace] at hspan
  · intro hne
    rw [topLevelParts_eq_ok_iff, String.toList_intercalate]
    exact listed_of_items (mt List.map_eq_nil_iff.1 hne) hitems

/-- The classes of a tag are there if one of its attributes adds a class. -/
theorem classesOf_ne_nil_iff {attrs : List (Attribute String)} :
    classesOf attrs ≠ [] ↔ ∃ attr ∈ attrs, attr.name = "class" ∧ classItems attr.value ≠ [] := by
  simp [classesOf]

/-- The operands of a sum stand as they are or in parentheses. -/
theorem classValue_eq (classes : List String) :
    classValue classes = String.intercalate classGap (classes.map fun operand =>
      if classes.length = 1 ∨ isSimpleOperand operand then operand else "(" ++ operand ++ ")") := by
  match classes with
  | [] | [single] => simp [classValue]
  | first :: second :: others =>
    have hlength : (first :: second :: others).length ≠ 1 := by simp
    simp only [classValue, hlength, false_or]
    rfl

/-- The object literal of static attributes is read up to its last character. If it has an entry,
then it splits into one for each attribute other than `class`, in source order, and a last one for
the classes if there is a class, with the operands of all `class` attributes in source order. -/
theorem objectLiteral_entries (attrs : List (Attribute String))
    (hvalues : ∀ attr ∈ attrs,
      expressionAt (attr.value ++ "\x7d") 0 "\x7d" = .ok ⟨0, attr.value.length, attr.value⟩ ∧
      topLevelParts attr.value "," = .ok [attr.value])
    (hclasses : ∀ attr ∈ attrs, attr.name = "class" → ¬['/', '/'] <:+: attr.value.toList) :
    ∃ (inside : String) (last : Option String),
      expressionAt (objectLiteral attrs) 1 "\x7d"
        = .ok ⟨1, (objectLiteral attrs).length - 1, inside⟩ ∧
      (plainEntries attrs ++ last.toList ≠ [] →
        topLevelParts inside "," = .ok (plainEntries attrs ++ last.toList)) ∧
      (last.isSome ↔ ∃ attr ∈ attrs, attr.name = "class" ∧ classItems attr.value ≠ []) ∧
      ∀ entry ∈ last, entry = "className:" ++
        String.intercalate " + \x22 \x22 + " ((classesOf attrs).map fun operand =>
          if (classesOf attrs).length = 1 ∨ isSimpleOperand operand then operand
          else "(" ++ operand ++ ")") := by
  have hitems := listItem_entries (fun attr hattr =>
    listItem_of_value (hvalues attr hattr).1 (hvalues attr hattr).2) hclasses
  obtain ⟨hspan, hsplit⟩ := braces_of_listItems hitems
  have hlength (inside : String) :
      ("\x7b" ++ inside ++ "\x7d").length - 1 = 1 + inside.length := by
    have hbrace : "\x7b".length = 1 ∧ "\x7d".length = 1 := ⟨rfl, rfl⟩
    simp only [String.length_append, hbrace]
    omega
  have hlast : (classEntry (classesOf attrs)).head?.toList = classEntry (classesOf attrs) := by
    unfold classEntry
    split <;> rfl
  refine ⟨String.intercalate "," (plainEntries attrs ++ classEntry (classesOf attrs)),
    (classEntry (classesOf attrs)).head?, ?_, ?_, ?_, ?_⟩
  · rw [objectLiteral, hspan, hlength]
  · rwa [hlast]
  · rw [← classesOf_ne_nil_iff, classEntry]
    cases classesOf attrs <;> simp
  · intro entry hentry
    unfold classEntry at hentry
    split at hentry
    case isTrue => cases hentry
    case isFalse =>
      obtain rfl := Option.mem_some.1 hentry
      rw [classValue_eq]
      rfl

/-- A value may hold commas and braces in its brackets and literals, and a class may be an array. -/
theorem objectLiteral_entries_mixed :
    ∃ inside : String,
      expressionAt (objectLiteral [⟨"class", "['a', b]"⟩, ⟨"tab-index", "f(x, '\x7d')"⟩,
        ⟨"class", "c || d"⟩]) 1 "\x7d" = .ok ⟨1, 62, inside⟩ ∧
      topLevelParts inside "," = .ok ["\x22tabIndex\x22:f(x, '\x7d')",
        "className:'a' + \x22 \x22 + b + \x22 \x22 + (c || d)"] := by
  obtain ⟨inside, last, hspan, hsplit, hsome, hentry⟩ :=
    objectLiteral_entries [⟨"class", "['a', b]"⟩, ⟨"tab-index", "f(x, '\x7d')"⟩,
      ⟨"class", "c || d"⟩] (by decide +kernel) (by decide +kernel)
  obtain ⟨entry, rfl⟩ := Option.isSome_iff_exists.1 (hsome.2 (by decide +kernel))
  obtain rfl := hentry entry rfl
  refine ⟨inside, hspan.trans (congrArg (fun stop => Except.ok (Span.mk 1 stop inside)) ?_),
    (hsplit (by simp)).trans (congrArg Except.ok ?_)⟩
  · decide +kernel
  · decide +kernel

end Espalier
