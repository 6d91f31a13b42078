import Espalier.Attribute

/-!
# Property keys

The helper that merges properties at run time writes the keys of static attributes a second time, so
a key should stay what it is. It does: a key has no hyphen, unless its name is of one of the
families that keep them (`hyphen_not_mem_camelChars`), and a name without hyphens is its own camel
case. The one word that is rewritten as a whole is `for`, and only `for` with hyphens behind it has
it for its camel case (`camelChars_eq_for_iff`), because no upper-case form holds one of its
letters. Main statement: `propertyKey_stable`.
-/

namespace Espalier

open Espalier.Text

/-! ## Upper-case forms -/

/-- The tables of upper-case forms give the character for none beyond ASCII. -/
structure Untabled (d : Char) : Prop where
  positive : 0 < d.toNat
  expansion : ∀ entry ∈ expansionTable, d ∉ entry.2.map Char.ofNat
  shift : ∀ shift ∈ shiftTable,
    shift.run.contains ((d.toNat : Int) - shift.distance).toNat = false

instance (d : Char) : Decidable (Untabled d) :=
  decidable_of_iff
    (0 < d.toNat ∧ (∀ entry ∈ expansionTable, d ∉ entry.2.map Char.ofNat) ∧
      ∀ shift ∈ shiftTable, shift.run.contains ((d.toNat : Int) - shift.distance).toNat = false)
    ⟨fun h => ⟨h.1, h.2.1, h.2.2⟩, fun h => ⟨h.positive, h.expansion, h.shift⟩⟩

/-- The code point that a shifted character comes from. -/
theorem toNat_of_ofNat_eq {m : Int} {d : Char} (hpositive : 0 < d.toNat)
    (h : d = Char.ofNat m.toNat) : m = d.toNat := by
  by_cases hvalid : m.toNat.isValidChar
  · rw [Char.ofNat, dif_pos hvalid] at h
    have hvalue : d.toNat = m.toNat := congrArg Char.toNat h
    omega
  · rw [Char.ofNat, dif_neg hvalid] at h
    rw [h] at hpositive
    exact absurd hpositive (by decide)

/-- A character that the tables do not give is the upper-case form of ASCII letters or its own. -/
theorem Untabled.mem_upper {c d : Char} (hd : Untabled d) (h : d ∈ upper c) :
    c.toNat < 128 ∧ d = c.toUpper ∨ 128 ≤ c.toNat ∧ d = c := by
  unfold upper at h
  split at h
  case isTrue hsmall => exact .inl ⟨hsmall, List.mem_singleton.1 h⟩
  case isFalse hlarge =>
    refine .inr ⟨Nat.not_lt.1 hlarge, ?_⟩
    unfold upperByTable at h
    split at h
    case h_1 found parts hfind => exact absurd h (hd.expansion _ (List.mem_of_find?_eq_some hfind))
    case h_2 =>
      split at h
      case h_1 shift hfind =>
        have hsum := toNat_of_ofNat_eq hd.positive (List.mem_singleton.1 h)
        have hrun := hd.shift shift (List.mem_of_find?_eq_some hfind)
        rw [← hsum, Int.add_sub_cancel, Int.toNat_natCast, List.find?_some hfind] at hrun
        cases hrun
      case h_2 => exact List.mem_singleton.1 h

/-- Nothing is lost in upper case. -/
theorem upper_ne_nil (c : Char) : upper c ≠ [] := by
  have hexpansion : ∀ entry ∈ expansionTable, entry.2 ≠ [] := by decide +kernel
  unfold upper
  split
  · exact List.cons_ne_nil _ _
  · unfold upperByTable
    split
    case h_1 found parts hfind =>
      exact mt List.map_eq_nil_iff.1 (hexpansion _ (List.mem_of_find?_eq_some hfind))
    case h_2 => split <;> exact List.cons_ne_nil _ _

theorem hyphen_not_mem_upper {c : Char} (hc : c ≠ '-') : '-' ∉ upper c := by
  have huntabled : Untabled '-' := by decide +kernel
  have hascii : ∀ n < 128, '-' = (Char.ofNat n).toUpper → Char.ofNat n = '-' := by decide
  intro hmem
  obtain ⟨hsmall, hupper⟩ | ⟨-, hself⟩ := huntabled.mem_upper hmem
  · have hchar := hascii c.toNat hsmall
    rw [Char.ofNat_toNat] at hchar
    exact hc (hchar hupper)
  · exact hc hself.symm

/-- The letters of `for` are no upper-case forms. -/
theorem not_mem_upper_of_mem_for {c d : Char} (hd : d ∈ "for".toList) : d ∉ upper c := by
  have hletters :
      "for".toList.all (fun d => decide (Untabled d) && decide (d.toNat < 128)) = true := by
    decide +kernel
  have hletter := List.all_eq_true.1 hletters d hd
  rw [Bool.and_eq_true, decide_eq_true_eq, decide_eq_true_eq] at hletter
  obtain ⟨huntabled, hsmall⟩ := hletter
  have hascii : ∀ n < 128, (Char.ofNat n).toUpper ∉ "for".toList := by decide
  intro hmem
  obtain ⟨hc, rfl⟩ | ⟨hlarge, rfl⟩ := huntabled.mem_upper hmem
  · have hchar := hascii c.toNat hc
    rw [Char.ofNat_toNat] at hchar
    exact hchar hd
  · exact absurd hsmall (Nat.not_lt.2 hlarge)

/-! ## Camel case -/

/-- The parts of a text hold nothing but its characters. -/
theorem mem_of_mem_cutAt {mark c : Char} {cs part : List Char} (hpart : part ∈ cutAt mark cs)
    (hc : c ∈ part) : c ∈ cs := by
  induction cs generalizing part with
  | nil =>
    rw [cutAt, List.mem_singleton] at hpart
    exact absurd (hpart ▸ hc) List.not_mem_nil
  | cons d cs ih =>
    rw [cutAt] at hpart
    split at hpart
    · obtain rfl | hpart := List.mem_cons.1 hpart
      · cases hc
      · exact List.mem_cons_of_mem d (ih hpart hc)
    · cases hcut : cutAt mark cs with
      | nil => exact absurd hcut (cutAt_ne_nil mark cs)
      | cons first parts =>
        rw [hcut] at hpart ih
        obtain rfl | hpart := List.mem_cons.1 hpart
        · obtain rfl | hc := List.mem_cons.1 hc
          · exact List.mem_cons_self
          · exact List.mem_cons_of_mem d (ih List.mem_cons_self hc)
        · exact List.mem_cons_of_mem d (ih (List.mem_cons_of_mem first hpart) hc)

/-- A text without the mark is one part. -/
theorem cutAt_of_not_mem {mark : Char} {cs : List Char} (h : mark ∉ cs) : cutAt mark cs = [cs] := by
  induction cs with
  | nil => rfl
  | cons c cs ih =>
    rw [List.mem_cons, not_or] at h
    rw [cutAt, if_neg (Ne.symm h.1), ih h.2]

/-- A mark ends the first part. -/
theorem cutAt_append {mark : Char} {part : List Char} (hpart : mark ∉ part) (rest : List Char) :
    cutAt mark (part ++ mark :: rest) = part :: cutAt mark rest := by
  induction part with
  | nil => rw [List.nil_append, cutAt, if_pos rfl]
  | cons c part ih =>
    rw [List.mem_cons, not_or] at hpart
    rw [List.cons_append, cutAt, if_neg (Ne.symm hpart.1), ih hpart.2]

/-- A character of a name in camel case stands in the name, or in the upper-case form of one that
follows a hyphen. -/
theorem mem_camelChars {d : Char} {cs : List Char} (h : d ∈ camelChars cs) :
    (∃ part ∈ cutAt '-' cs, d ∈ part) ∨ ∃ part ∈ cutAt '-' cs, ∃ c ∈ part, d ∈ upper c := by
  unfold camelChars at h
  split at h
  case h_1 => cases h
  case h_2 head parts hcut =>
    rw [hcut]
    rw [List.mem_append, List.mem_flatMap] at h
    obtain h | ⟨part, hpart, h⟩ := h
    · exact .inl ⟨head, List.mem_cons_self, h⟩
    · have hmem : part ∈ head :: parts := List.mem_cons_of_mem head hpart
      cases part with
      | nil => cases h
      | cons c part =>
        rw [capitalize, List.mem_append] at h
        obtain h | h := h
        · exact .inr ⟨c :: part, hmem, c, List.mem_cons_self, h⟩
        · exact .inl ⟨c :: part, hmem, List.mem_cons_of_mem c h⟩

/-- Camel case has no hyphens. -/
theorem hyphen_not_mem_camelChars (cs : List Char) : '-' ∉ camelChars cs := by
  intro hmem
  obtain ⟨part, hpart, hmem⟩ | ⟨part, hpart, c, hc, hmem⟩ := mem_camelChars hmem
  · exact not_mem_of_mem_cutAt hpart hmem
  · have hne : c ≠ '-' := fun heq => not_mem_of_mem_cutAt hpart (heq ▸ hc)
    exact hyphen_not_mem_upper hne hmem

/-- A name without hyphens is its own camel case. -/
theorem camelChars_of_not_mem {cs : List Char} (h : '-' ∉ cs) : camelChars cs = cs := by
  rw [camelChars, cutAt_of_not_mem h]
  exact List.append_nil cs

/-- A part that begins with another character in upper case is not empty. -/
theorem capitalize_eq_nil_iff {cs : List Char} : capitalize cs = [] ↔ cs = [] := by
  cases cs with
  | nil => rfl
  | cons c cs => simp [capitalize, upper_ne_nil]

/-- Hyphens behind a part are empty parts behind it. -/
theorem cutAt_append_replicate {mark : Char} {part : List Char} (hpart : mark ∉ part) (k : Nat) :
    cutAt mark (part ++ List.replicate k mark) = part :: List.replicate k [] := by
  induction k generalizing part with
  | zero => rw [List.replicate_zero, List.append_nil, cutAt_of_not_mem hpart, List.replicate_zero]
  | succ k ih =>
    rw [List.replicate_succ, cutAt_append hpart, ← List.nil_append (List.replicate k mark),
      ih List.not_mem_nil, List.replicate_succ]

theorem intercalate_replicate (mark : Char) (part : List Char) (k : Nat) :
    List.intercalate [mark] (part :: List.replicate k []) = part ++ List.replicate k mark := by
  induction k generalizing part with
  | zero => simp
  | succ k ih =>
    have hrest := ih []
    rw [List.nil_append] at hrest
    rw [List.replicate_succ, List.replicate_succ, ← hrest]
    simp [List.intercalate, List.intersperse]

/-- Exactly `for` with any number of hyphens behind it is `for` in camel case. -/
theorem camelChars_eq_for_iff {cs : List Char} :
    camelChars cs = "for".toList ↔ ∃ k, cs = "for".toList ++ List.replicate k '-' := by
  have hfor : '-' ∉ "for".toList := by decide
  constructor
  · intro h
    unfold camelChars at h
    split at h
    case h_1 => exact absurd h (by decide)
    case h_2 head parts hcut =>
      -- a part with a character would add an upper-case form
      have hempty : ∀ part ∈ parts, part = [] := by
        intro part hpart
        cases part with
        | nil => rfl
        | cons c part =>
          obtain ⟨d, rest, hupper⟩ := List.exists_cons_of_ne_nil (upper_ne_nil c)
          have hd : d ∈ upper c := hupper ▸ List.mem_cons_self
          have hmem : d ∈ head ++ parts.flatMap capitalize :=
            List.mem_append_right head
              (List.mem_flatMap.2 ⟨c :: part, hpart, List.mem_append_left part hd⟩)
          exact absurd hd (not_mem_upper_of_mem_for (h ▸ hmem))
      have hnone : parts.flatMap capitalize = [] :=
        List.flatMap_eq_nil_iff.2 fun part hpart => capitalize_eq_nil_iff.2 (hempty part hpart)
      rw [hnone, List.append_nil] at h
      have hparts : parts = List.replicate parts.length [] :=
        List.eq_replicate_iff.2 ⟨rfl, hempty⟩
      refine ⟨parts.length, ?_⟩
      rw [← intercalate_cutAt '-' cs, hcut, h, hparts, intercalate_replicate,
        List.length_replicate]
  · rintro ⟨k, rfl⟩
    have hnone : (List.replicate k []).flatMap capitalize = [] :=
      List.flatMap_eq_nil_iff.2 fun part hpart => by rw [List.eq_of_mem_replicate hpart]; rfl
    rw [camelChars, cutAt_append_replicate hfor]
    show "for".toList ++ (List.replicate k []).flatMap capitalize = "for".toList
    rw [hnone, List.append_nil]

/-! ## Keys -/

theorem keepsHyphens_iff {name : String} : keepsHyphens name = true ↔
    "aria-".toList <+: name.toList ∨ "data-".toList <+: name.toList := by
  rw [keepsHyphens, Bool.or_eq_true, List.isPrefixOf_iff_prefix, List.isPrefixOf_iff_prefix]

/-- A name of a family that keeps its hyphens has one. -/
theorem hyphen_mem_of_keepsHyphens {name : String} (h : keepsHyphens name = true) :
    '-' ∈ name.toList := by
  obtain ⟨rest, hname⟩ | ⟨rest, hname⟩ := keepsHyphens_iff.1 h
  · rw [← hname]
    exact List.mem_append_left rest (by decide)
  · rw [← hname]
    exact List.mem_append_left rest (by decide)

/-- The families that keep hyphens have no name that begins as `for` does. -/
theorem keepsHyphens_eq_false {name : String} {rest : List Char}
    (h : name.toList = "for".toList ++ rest) : keepsHyphens name = false := by
  rw [keepsHyphens, h]
  rfl

theorem propertyKey_of_keepsHyphens {name : String} (h : keepsHyphens name = true) :
    propertyKey name = name := by
  rw [propertyKey, if_pos h]
  split
  case isTrue hfor =>
    subst hfor
    cases h
  case isFalse => rfl

/-- A name without hyphens is its own key, unless it is `for`. -/
theorem propertyKey_of_not_mem {name : String} (hhyphen : '-' ∉ name.toList) (hfor : name ≠ "for") :
    propertyKey name = name := by
  rw [propertyKey, if_neg hfor, if_neg fun hkeeps => hhyphen (hyphen_mem_of_keepsHyphens hkeeps),
    camelName, camelChars_of_not_mem hhyphen, String.ofList_toList]

theorem hyphen_not_mem_camelName (name : String) : '-' ∉ (camelName name).toList := by
  rw [camelName, String.toList_ofList]
  exact hyphen_not_mem_camelChars name.toList

theorem camelName_eq_for_iff {name : String} : camelName name = "for" ↔
    ∃ k, name.toList = "for".toList ++ List.replicate k '-' := by
  rw [← camelChars_eq_for_iff, camelName, ← String.toList_inj, String.toList_ofList]

/-- The key of a name in camel case is that name, unless it is `for`. -/
theorem propertyKey_camelName_iff {name : String} :
    propertyKey (camelName name) = camelName name ↔
      ¬∃ k, name.toList = "for".toList ++ List.replicate k '-' := by
  rw [← camelName_eq_for_iff]
  by_cases hword : camelName name = "for"
  · rw [hword]
    decide
  · exact iff_of_true (propertyKey_of_not_mem (hyphen_not_mem_camelName name) hword) hword

/-- A key keeps the hyphens of the `aria-` and `data-` families and has no others, and it is its own
key unless the name is `for` with hyphens behind it. -/
theorem propertyKey_stable (name : String) :
    (("aria-".toList <+: name.toList ∨ "data-".toList <+: name.toList) ∧ propertyKey name = name ∨
      '-' ∉ (propertyKey name).toList) ∧
    (propertyKey (propertyKey name) = propertyKey name ↔
      ¬∃ k, 0 < k ∧ name.toList = "for".toList ++ List.replicate k '-') := by
  by_cases hfor : name = "for"
  · subst hfor
    refine ⟨.inr (by decide), iff_of_true (by decide) ?_⟩
    rintro ⟨k, hk, hname⟩
    have hlength := congrArg List.length hname
    rw [List.length_append, List.length_replicate] at hlength
    omega
  by_cases hkeeps : keepsHyphens name = true
  · have hkey := propertyKey_of_keepsHyphens hkeeps
    refine ⟨.inl ⟨keepsHyphens_iff.1 hkeeps, hkey⟩, iff_of_true (by rw [hkey, hkey]) ?_⟩
    rintro ⟨k, -, hname⟩
    rw [keepsHyphens_eq_false hname] at hkeeps
    cases hkeeps
  -- the name is not `for` itself, so any number of hyphens behind `for` is a positive one
  have hpositive : ∀ k, name.toList = "for".toList ++ List.replicate k '-' → 0 < k := by
    intro k hname
    refine Nat.pos_of_ne_zero fun hzero => hfor ?_
    rw [← String.toList_inj, hname, hzero]
    exact List.append_nil _
  have hkey : propertyKey name = camelName name := by rw [propertyKey, if_neg hfor, if_neg hkeeps]
  rw [hkey, propertyKey_camelName_iff]
  refine ⟨.inr (hyphen_not_mem_camelName name), not_congr ?_⟩
  exact exists_congr fun k => ⟨fun hname => ⟨hpositive k hname, hname⟩, And.right⟩

example : propertyKey "for-" = "for" ∧ propertyKey (propertyKey "for-") = "htmlFor" := by decide

end Espalier
