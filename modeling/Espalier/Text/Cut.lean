/-!
# Cutting text at a character

The parts of a text between the occurrences of one character. There is always one part more than
there are occurrences, so that the empty text has one empty part. `intercalate_cutAt` and
`not_mem_of_mem_cutAt` determine the parts: joined by the mark they make up the text, and none of
them holds it.
-/

namespace Espalier.Text

/-- The parts of a text between the occurrences of `mark`. -/
def cutAt (mark : Char) : List Char → List (List Char)
  | [] => [[]]
  | c :: cs =>
    if c = mark then [] :: cutAt mark cs
    else
      match cutAt mark cs with
      | [] => [[c]]
      | part :: parts => (c :: part) :: parts

/-- There is always a part. -/
theorem cutAt_ne_nil (mark : Char) (cs : List Char) : cutAt mark cs ≠ [] := by
  cases cs with
  | nil => simp [cutAt]
  | cons c cs =>
    unfold cutAt
    split
    · simp
    · split <;> simp

/-- Nothing but the marks is lost: the parts with the mark between them make up the text. -/
theorem intercalate_cutAt (mark : Char) (cs : List Char) :
    List.intercalate [mark] (cutAt mark cs) = cs := by
  induction cs with
  | nil => rfl
  | cons c cs ih =>
    unfold cutAt
    cases h : cutAt mark cs with
    | nil => exact absurd h (cutAt_ne_nil mark cs)
    | cons part parts =>
      rw [h] at ih
      split
      next hc => cases parts <;> simp_all [List.intercalate, List.intersperse]
      next hc => cases parts <;> simp_all [List.intercalate, List.intersperse]

/-- No part holds the mark. -/
theorem not_mem_of_mem_cutAt {mark : Char} {cs part : List Char} (h : part ∈ cutAt mark cs) :
    mark ∉ part := by
  induction cs generalizing part with
  | nil =>
    simp only [cutAt, List.mem_singleton] at h
    simp [h]
  | cons c cs ih =>
    unfold cutAt at h
    split at h
    next =>
      rcases List.mem_cons.1 h with rfl | h
      · simp
      · exact ih h
    next hc =>
      cases hcut : cutAt mark cs with
      | nil => exact absurd hcut (cutAt_ne_nil mark cs)
      | cons first parts =>
        rw [hcut] at h ih
        rcases List.mem_cons.1 h with rfl | h
        · intro hm
          rcases List.mem_cons.1 hm with hm | hm
          · exact hc hm.symm
          · exact ih (List.mem_cons_self ..) hm
        · exact ih (List.mem_cons_of_mem _ h)

end Espalier.Text
