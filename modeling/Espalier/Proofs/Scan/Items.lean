import Espalier.Proofs.Scan.Lists
import Espalier.Proofs.Scan.Tokens

/-!
# The items of a list

The parts of a balanced text are balanced themselves (`items_of_topLevelParts`): a separator
stands where nothing is open, and an operand is expected behind it as at the start of a text. Items
are put together from tokens like balanced text: `ListItem.char`, `ListItem.quoted` and
`ListItem.group`.

Taking the blanks off the ends of a part is another matter. A line comment lasts up to the end of
its line, and the line end is a blank: without it the comment is still open (`Commented`) and takes
in whatever is put behind. `Balanced.strip` says that nothing else can happen.
-/

namespace Espalier.Scan

open Espalier.Text

/-! ## Balanced parts -/

/-- The parts of a balanced text are items of it. -/
theorem items_of_topLevelParts {body : List Char} {parts : List String}
    (hbody : Balanced true body) (h : topLevelParts (String.ofList body) "," = .ok parts) :
    ∀ part ∈ parts, ListItem true part.toList ∧ part.toList <:+: body := by
  intro part hpart
  have hlisted := topLevelParts_eq_ok_iff.1 h
  rw [String.toList_ofList] at hlisted
  have hmem := List.mem_map_of_mem (f := String.toList) hpart
  exact ⟨hlisted.items hbody _ hmem, hlisted.join ▸ infix_intercalate hmem⟩

/-! ## Items token by token

A comma behind balanced text is looked for from the left, so that a token in front of an item is
either passed as a whole or has no comma to offer.
-/

section
variable {operand : Bool} {mark c opener : Char} {frame : Frame} {w text inner cs : List Char}

/-- A quote at the start of balanced text begins a literal. -/
theorem Balanced.of_quote (hmark : mark = '\x22' ∨ mark = '\x27')
    (h : Balanced operand (mark :: cs)) :
    ∃ text rest, cs = text ++ rest ∧ QuotedText mark text ∧ Balanced false rest := by
  cases h with
  | quoted _ htext hrest => exact ⟨_, _, rfl, htext, hrest⟩
  | regex | blockComment | lineComment | template => rcases hmark with hmark | hmark <;> cases hmark
  | group hopener => rcases hmark with rfl | rfl <;> cases hopener
  | char hordinary => rcases hmark with rfl | rfl <;> cases hordinary

/-- An opening bracket at the start of balanced text begins a group. -/
theorem Balanced.of_opener (hopener : Frame.ofOpener? opener = some frame)
    (h : Balanced operand (opener :: cs)) :
    ∃ inner rest, cs = inner ++ frame.closer :: rest ∧ Balanced true inner ∧
      Balanced (beforeOperand frame.closer) rest := by
  cases h with
  | quoted hmark => rcases hmark with rfl | rfl <;> cases hopener
  | regex | blockComment | lineComment | template => cases hopener
  | group hframe hinner hrest =>
    obtain rfl := Option.some.inj (hframe.symm.trans hopener)
    exact ⟨_, _, rfl, hinner, hrest⟩
  | char hordinary =>
    obtain ⟨rfl, -⟩ | ⟨rfl, -⟩ | ⟨rfl, -⟩ := ofOpener?_eq_some hopener <;> cases hordinary

/-- A literal ends in one place only. -/
theorem QuotedText.eq_of_append {text' rest rest' : List Char} (hmark : mark ≠ '\x5c')
    (h : QuotedText mark text) (h' : QuotedText mark text') (heq : text ++ rest = text' ++ rest') :
    text = text' ∧ rest = rest' := by
  induction h generalizing text' with
  | close =>
    cases h' with
    | close => exact ⟨rfl, List.cons.inj heq |>.2⟩
    | escape => exact absurd (List.cons.inj heq).1 hmark
    | char _ hne => exact absurd (List.cons.inj heq).1.symm hne
  | escape _ ih =>
    cases h' with
    | close => exact absurd (List.cons.inj heq).1.symm hmark
    | escape h' =>
      obtain ⟨rfl, htail⟩ := List.cons.inj (List.cons.inj heq).2
      obtain ⟨rfl, rfl⟩ := ih h' htail
      exact ⟨rfl, rfl⟩
    | char hne => exact absurd (List.cons.inj heq).1.symm hne
  | char hslash hne _ _ ih =>
    cases h' with
    | close => exact absurd (List.cons.inj heq).1 hne
    | escape => exact absurd (List.cons.inj heq).1 hslash
    | char _ _ _ h' =>
      obtain ⟨rfl, htail⟩ := List.cons.inj heq
      obtain ⟨rfl, rfl⟩ := ih h' htail
      exact ⟨rfl, rfl⟩

/-- Balanced text before a closing bracket ends in one place only. -/
theorem Balanced.eq_of_append {closer : Char} {inner' rest rest' : List Char}
    (hcloser : isCloser closer = true) (h : Balanced true inner) (h' : Balanced true inner')
    (heq : inner ++ closer :: rest = inner' ++ closer :: rest') :
    inner = inner' ∧ rest = rest' := by
  have hcut : upToUnmatched 0 {} 0 (inner ++ closer :: rest) = .ok (some ⟨inner, closer, rest⟩) :=
    upToUnmatched_eq_some_iff.2 ⟨rfl, hcloser, h⟩
  have hcut' : upToUnmatched 0 {} 0 (inner ++ closer :: rest)
      = .ok (some ⟨inner', closer, rest'⟩) :=
    upToUnmatched_eq_some_iff.2 ⟨heq, hcloser, h'⟩
  rw [hcut] at hcut'
  cases hcut'
  exact ⟨rfl, rfl⟩

/-- The character is no quote, bracket, slash or comma: a part goes on behind it. -/
def isPassive (c : Char) : Bool :=
  isOrdinary c && c != '/' && c != ','

theorem isPassive_of_isFlag (h : isFlag c = true) : isPassive c = true := by
  obtain ⟨hordinary, hslash⟩ := isOrdinary_of_isFlag h
  have hcomma : c ≠ ',' := by
    rintro rfl
    exact absurd h (by decide)
  simp [isPassive, hordinary, hslash, hcomma]

theorem ListItem.nil : ListItem operand [] :=
  ⟨.nil, fun u _ h => absurd h.symm (List.append_ne_nil_of_right_ne_nil u (List.cons_ne_nil _ _))⟩

/-- A passive character in front of an item. -/
theorem ListItem.char (hc : isPassive c = true) (h : ListItem (operandAfter operand c) w) :
    ListItem operand (c :: w) := by
  simp only [isPassive, Bool.and_eq_true, bne_iff_ne] at hc
  obtain ⟨⟨hordinary, hslash⟩, hcomma⟩ := hc
  refine ⟨.char hordinary (fun hc => absurd hc hslash) h.balanced, fun u v hw hu => ?_⟩
  cases u with
  | nil => exact hcomma (List.cons.inj hw).1
  | cons d u =>
    obtain ⟨rfl, hrest⟩ := List.cons.inj hw
    exact h.undivided u v hrest (hu.of_ordinary hordinary hslash)

/-- A string literal in front of an item. -/
theorem ListItem.quoted (hmark : mark = '\x22' ∨ mark = '\x27') (htext : QuotedText mark text)
    (h : ListItem false w) : ListItem operand (mark :: (text ++ w)) where
  balanced := .quoted hmark htext h.balanced
  undivided u v hw hu := by
    cases u with
    | nil => rcases hmark with rfl | rfl <;> cases (List.cons.inj hw).1
    | cons d u =>
      obtain ⟨rfl, hrest⟩ := List.cons.inj hw
      obtain ⟨text', u', rfl, htext', hu'⟩ := hu.of_quote hmark
      have hrest' : text ++ w = text' ++ (u' ++ ',' :: v) := by
        rw [hrest, ← List.append_assoc]
        rfl
      have hslash : mark ≠ '\x5c' := by rcases hmark with rfl | rfl <;> decide
      exact h.undivided u' v (htext.eq_of_append hslash htext' hrest').2 hu'

/-- A group in brackets in front of an item. -/
theorem ListItem.group (hopener : Frame.ofOpener? opener = some frame)
    (hinner : Balanced true inner) (h : ListItem (beforeOperand frame.closer) w) :
    ListItem operand (opener :: (inner ++ frame.closer :: w)) where
  balanced := .group hopener hinner h.balanced
  undivided u v hw hu := by
    cases u with
    | nil => obtain ⟨rfl, -⟩ := List.cons.inj hw; cases hopener
    | cons d u =>
      obtain ⟨rfl, hrest⟩ := List.cons.inj hw
      obtain ⟨inner', u', rfl, hinner', hu'⟩ := hu.of_opener hopener
      have hrest' : inner ++ frame.closer :: w = inner' ++ frame.closer :: (u' ++ ',' :: v) := by
        rw [hrest, ← List.cons_append, ← List.append_assoc]
        rfl
      have hcloser := isCloser_closer (ne_template_of_ofOpener? hopener)
      exact h.undivided u' v (hinner.eq_of_append hcloser hinner' hrest').2 hu'

end

/-! ## Blanks at the ends -/

/-- The text ends inside a line comment: on its last line a comment begins, and whatever is added
there belongs to it. -/
structure Commented (operand : Bool) (w : List Char) : Prop where
  slashes : ∃ code comment, w = code ++ '/' :: '/' :: comment ∧ '\n' ∉ comment
  takesIn : ∀ more, '\n' ∉ more → Balanced operand (w ++ (more ++ ['\n']))

/-- The text is balanced, or only the end of its last line is missing. -/
def Ended (operand : Bool) (w : List Char) : Prop :=
  Balanced operand w ∨ Commented operand w

section
variable {operand operand' : Bool} {w token rest blanks text : List Char}

/-- A token in front of a text. The token may look at the text that follows. -/
theorem Ended.front (token : List Char) (h : Ended operand' w)
    (htoken : ∀ v, Balanced operand' (w ++ v) → Balanced operand (token ++ (w ++ v))) :
    Ended operand (token ++ w) := by
  rcases h with hbalanced | ⟨⟨code, comment, hw, hcomment⟩, htakes⟩
  · left
    have hfront := htoken []
    rw [List.append_nil] at hfront
    exact hfront hbalanced
  · refine .inr ⟨⟨token ++ code, comment, by rw [hw, List.append_assoc], hcomment⟩, ?_⟩
    intro more hmore
    rw [List.append_assoc]
    exact htoken _ (htakes more hmore)

/-- A comment that runs to the end of the text. -/
theorem Ended.comment (h : '\n' ∉ text) : Ended operand ('/' :: '/' :: text) := by
  refine .inr ⟨⟨[], text, rfl, h⟩, fun more hmore => ?_⟩
  have hline : '\n' ∉ text ++ more := fun hmem => (List.mem_append.1 hmem).elim h hmore
  have hcomment : Balanced operand ('/' :: '/' :: ((text ++ more) ++ '\n' :: [])) :=
    .lineComment hline .nil
  simpa using hcomment

/-- A token whose last character is no blank stands before the blanks at the end of a text. -/
theorem exists_rest_of_token {d : Char} (h : token ++ rest = w ++ blanks)
    (hblanks : ∀ b ∈ blanks, isBlank b = true) (hlast : token.getLast? = some d)
    (hd : isBlank d = false) : ∃ w', w = token ++ w' ∧ rest = w' ++ blanks := by
  rcases List.append_eq_append_iff.1 h with ⟨w', hw, hrest⟩ | ⟨back, htoken, hback⟩
  · exact ⟨w', hw, hrest⟩
  · cases back with
    | nil => exact ⟨[], by simpa using htoken.symm, hback.symm⟩
    | cons b back =>
      rw [htoken, List.getLast?_append_cons] at hlast
      have hmem : d ∈ blanks := hback ▸ List.mem_append_left _ (List.mem_of_getLast? hlast)
      rw [hblanks d hmem] at hd
      cases hd

theorem TemplateText.getLast? : ∀ {text : List Char}, TemplateText text →
    text.getLast? = some '\x60'
  | _, .close => rfl
  | _, .escape h | _, .char _ _ _ h => by simp [List.getLast?_cons, h.getLast?]
  | _, .substitution _ h => by simp [List.getLast?_cons, List.getLast?_append, h.getLast?]

/-- A text in which no comment begins on the last line is balanced. -/
theorem Ended.balanced (h : Ended operand w) (hnone : ¬['/', '/'] <:+: w) : Balanced operand w := by
  refine h.resolve_right fun hopen => ?_
  obtain ⟨code, comment, hslashes, -⟩ := hopen.slashes
  exact hnone ⟨code, comment, by rw [hslashes]; simp⟩

/-- Balanced text without the blanks at its end. Only a line comment can lose its end with them: no
other token ends in a blank. -/
theorem Balanced.ended : ∀ {operand : Bool} {w : List Char}, Balanced operand w →
    ∀ {v blanks : List Char}, w = v ++ blanks → (∀ b ∈ blanks, isBlank b = true) → Ended operand v
  | _, _, .nil, v, blanks, h, _ => by
    obtain ⟨rfl, -⟩ := List.append_eq_nil_iff.1 h.symm
    exact .inl .nil
  | _, _, @Balanced.quoted _ mark text cs hmark htext hcs, v, blanks, h, hblanks => by
    have hlast : (mark :: text).getLast? = some mark := by simp [List.getLast?_cons, htext.getLast?]
    have hmarkBlank : isBlank mark = false := by rcases hmark with rfl | rfl <;> decide
    obtain ⟨v', rfl, hv'⟩ := exists_rest_of_token h hblanks hlast hmarkBlank
    exact (hcs.ended hv' hblanks).front _ fun _ hu => .quoted hmark htext hu
  | _, _, @Balanced.regex text flags cs hstart htext hflags hcs, v, blanks, h, hblanks => by
    have hlast : ('/' :: text).getLast? = some '/' := by simp [List.getLast?_cons, htext.getLast?]
    obtain ⟨v', rfl, hv'⟩ := exists_rest_of_token h hblanks hlast (by decide)
    rcases List.append_eq_append_iff.1 hv' with ⟨v'', rfl, hv''⟩ | ⟨back, rfl, -⟩
    · have hfront : Ended true ('/' :: (text ++ flags) ++ v'') :=
        (hcs.ended hv'' hblanks).front _ fun _ hu => by
          simpa using Balanced.regex hstart htext hflags hu
      simpa using hfront
    · have hfewer : v'.all isFlag = true := by
        rw [List.all_append, Bool.and_eq_true] at hflags
        exact hflags.1
      have hregex : Balanced true ('/' :: (text ++ (v' ++ []))) := .regex hstart htext hfewer .nil
      rw [List.append_nil] at hregex
      exact .inl hregex
  | _, _, @Balanced.blockComment _ text cs htext hcs, v, blanks, h, hblanks => by
    have hlast : ('/' :: '*' :: text).getLast? = some '/' := by
      simp [List.getLast?_cons, htext.getLast?]
    obtain ⟨v', rfl, hv'⟩ := exists_rest_of_token h hblanks hlast (by decide)
    exact (hcs.ended hv' hblanks).front _ fun _ hu => .blockComment htext hu
  | _, _, @Balanced.lineComment _ text cs htext hcs, v, blanks, h, hblanks => by
    have hsplit : ['/', '/'] ++ (text ++ '\n' :: cs) = v ++ blanks := h
    obtain ⟨v', rfl, hv'⟩ := exists_rest_of_token hsplit hblanks rfl (by decide)
    rcases List.append_eq_append_iff.1 hv' with ⟨v'', rfl, hv''⟩ | ⟨back, rfl, -⟩
    · cases v'' with
      | nil =>
        rw [List.append_nil]
        exact .comment htext
      | cons d v'' =>
        obtain ⟨rfl, hcs'⟩ := List.cons.inj hv''
        have hfront : Ended _ ('/' :: '/' :: (text ++ ['\n']) ++ v'') :=
          (hcs.ended hcs' hblanks).front _ fun _ hu => by
            simpa using Balanced.lineComment htext hu
        simpa using hfront
    · exact .comment fun hmem => htext (List.mem_append_left _ hmem)
  | _, _, @Balanced.template _ text cs htext hcs, v, blanks, h, hblanks => by
    have hlast : ('\x60' :: text).getLast? = some '\x60' := by
      simp [List.getLast?_cons, htext.getLast?]
    obtain ⟨v', rfl, hv'⟩ := exists_rest_of_token h hblanks hlast (by decide)
    exact (hcs.ended hv' hblanks).front _ fun _ hu => .template htext hu
  | _, _, @Balanced.group _ opener frame inner cs hopener hinner hcs, v, blanks, h, hblanks => by
    have hsplit : opener :: (inner ++ [frame.closer]) ++ cs = v ++ blanks := by simpa using h
    have hlast : (opener :: (inner ++ [frame.closer])).getLast? = some frame.closer := by
      simp [List.getLast?_cons]
    have hcloserBlank : isBlank frame.closer = false := by cases frame <;> decide
    obtain ⟨v', rfl, hv'⟩ := exists_rest_of_token hsplit hblanks hlast hcloserBlank
    exact (hcs.ended hv' hblanks).front _ fun _ hu => by
      simpa using Balanced.group hopener hinner hu
  | _, _, @Balanced.char _ c cs hordinary hslash hcs, v, blanks, h, hblanks => by
    match v, h with
    | [], _ => exact .inl .nil
    | [d], h =>
      obtain ⟨rfl, -⟩ := List.cons.inj h
      exact .inl (.char hordinary (fun hc => ⟨(hslash hc).1, rfl⟩) .nil)
    | d :: e :: v, h =>
      obtain ⟨rfl, hcs'⟩ := List.cons.inj h
      have hslash' (u : List Char) (hc : c = '/') :
          _ = false ∧ startsComment (e :: v ++ u) = false := hcs' ▸ hslash hc
      exact (hcs.ended hcs' hblanks).front [c] fun u hu => .char hordinary (hslash' u) hu

theorem Balanced.dropWhile_isBlank (h : Balanced operand w) :
    Balanced operand (w.dropWhile isBlank) := by
  induction w with
  | nil => exact h
  | cons c w ih =>
    rw [List.dropWhile_cons]
    split
    case isTrue hc => exact ih (h.of_blank hc)
    case isFalse => exact h

theorem stripRight_append (w : List Char) :
    w = stripRight w ++ (w.reverse.takeWhile isBlank).reverse := by
  rw [stripRight, ← List.reverse_append, List.takeWhile_append_dropWhile, List.reverse_reverse]

/-- Without the blanks at its ends a balanced text is balanced, or it ends inside a line comment. -/
theorem Balanced.strip (h : Balanced operand w) : Ended operand (strip w) := by
  refine h.dropWhile_isBlank.ended (stripRight_append _) fun b hb => ?_
  exact List.all_eq_true.1 List.all_takeWhile b (List.mem_reverse.1 hb)

theorem Balanced.append_blanks (hblanks : ∀ b ∈ blanks, isBlank b = true) (h : Balanced operand w) :
    Balanced operand (blanks ++ w) := by
  induction blanks with
  | nil => exact h
  | cons b blanks ih =>
    obtain ⟨hb, hblanks⟩ := List.forall_mem_cons.1 hblanks
    exact .blank hb (ih hblanks)

/-- Without the blanks at its ends an undivided text is still undivided. -/
theorem Undivided.strip (h : Undivided operand w) : Undivided operand (strip w) := by
  intro u v hstrip hu
  have hw : w = w.takeWhile isBlank ++ u
      ++ ',' :: (v ++ ((w.dropWhile isBlank).reverse.takeWhile isBlank).reverse) := by
    have hright := stripRight_append (w.dropWhile isBlank)
    rw [Text.strip] at hstrip
    rw [hstrip] at hright
    conv_lhs => rw [← List.takeWhile_append_dropWhile (p := isBlank) (l := w), hright]
    simp
  exact h _ _ hw (hu.append_blanks fun b hb => List.all_eq_true.1 List.all_takeWhile b hb)

theorem isInfix_strip (w : List Char) : Text.strip w <:+: w := by
  have hprefix : Text.strip w <+: w.dropWhile isBlank :=
    ⟨_, (stripRight_append (w.dropWhile isBlank)).symm⟩
  exact hprefix.isInfix.trans (List.dropWhile_suffix _).isInfix

end

end Espalier.Scan
