import Espalier.Proofs.Script.Agreement
import Espalier.Proofs.Script.Literals

/-!
# Text with more behind it

A text that ends with a line end has the tokens that it has with more text behind it, up to its end,
and whatever stands before it: no token goes on past a line end unless it is not finished there.
`Resembles` says which states of the lexer make no difference, and `Alike` compares the tokens of a
text with those of the same text inside another one. Main statement: `twins_alike`, by which readers
do not tell them apart.
-/

namespace Espalier.Script

/-- The text ends with a line end. -/
def Lined (cs : List Char) : Prop :=
  ∃ line, cs = line ++ ['\n']

theorem Lined.tail {c : Char} {cs : List Char} (h : Lined (c :: cs)) :
    c = '\n' ∧ cs = [] ∨ Lined cs := by
  obtain ⟨line, hline⟩ := h
  cases line with
  | nil =>
    cases hline
    exact .inl ⟨rfl, rfl⟩
  | cons d line =>
    cases hline
    exact .inr ⟨line, rfl⟩

theorem Lined.of_append {x cs : List Char} (h : Lined (x ++ cs)) : cs = [] ∨ Lined cs := by
  induction x with
  | nil => exact .inr h
  | cons c x ih =>
    obtain ⟨-, hnil⟩ | h := h.tail
    · exact .inl (List.append_eq_nil_iff.1 hnil).2
    · exact ih h

theorem Lined.ne_nil {cs : List Char} (h : Lined cs) : cs ≠ [] := by
  obtain ⟨line, rfl⟩ := h
  exact List.append_ne_nil_of_right_ne_nil _ (List.cons_ne_nil _ _)

/-! ## Words and literals -/

/-- The same part was read with more text behind it, and a line end was left. -/
structure Part.Grows (w : List Char) (part part' : Part) : Prop where
  lined : Lined part.2
  eq : part' = (part.1, part.2 ++ w)

section
variable {cs : List Char} (h : Lined cs) (w : List Char)

theorem Part.Grows.prepend {part part' : Part} {w : List Char} (h : part.Grows w part')
    (front : List Char) : (part.prepend front).Grows w (part'.prepend front) :=
  ⟨h.lined, by rw [h.eq]; rfl⟩

include h

theorem Lined.readWhile {p : Char → Bool} (hp : p '\n' = false) :
    (readWhile p cs).Grows w (readWhile p (cs ++ w)) := by
  obtain ⟨line, rfl⟩ := h
  induction line with
  | nil =>
    refine ⟨⟨[], ?_⟩, ?_⟩
    · simp [Script.readWhile, hp]
    · simp [Script.readWhile, hp]
  | cons c line ih =>
    by_cases hc : p c = true
    · have hcons : ∀ ds, Script.readWhile p (c :: ds) = (Script.readWhile p ds).prepend [c] := by
        intro ds
        simp [Script.readWhile, Part.prepend, hc]
      rw [List.cons_append, List.cons_append, hcons, hcons]
      exact ih.prepend [c]
    · have hcons : ∀ ds, Script.readWhile p (c :: ds) = ([], c :: ds) := by
        intro ds
        simp [Script.readWhile, hc]
      rw [List.cons_append, List.cons_append, hcons, hcons]
      exact ⟨⟨c :: line, rfl⟩, rfl⟩

theorem Lined.readName : (readName cs).Grows w (readName (cs ++ w)) := by
  have hopening := h.readWhile w (p := isNameStart) (by decide)
  have hrest := hopening.lined.readWhile w (p := isNamePart) (by decide)
  have hname : ∀ ds, Script.readName ds = (Script.readWhile isNamePart
      (Script.readWhile isNameStart ds).2).prepend (Script.readWhile isNameStart ds).1 :=
    fun _ => rfl
  rw [hname, hname, hopening.eq]
  exact hrest.prepend _

theorem Lined.readExponentDigits (opening : List Char) :
    Option.Rel (Part.Grows w) (readExponentDigits opening cs)
      (readExponentDigits opening (cs ++ w)) := by
  have hdigits := h.readWhile w (p := Char.isDigit) rfl
  simp only [Script.readExponentDigits, hdigits.eq]
  split
  · exact .none
  · exact .some ⟨hdigits.lined, rfl⟩

theorem Lined.readExponent : (readExponent cs).Grows w (readExponent (cs ++ w)) := by
  have hstays : Part.Grows w ([], cs) ([], cs ++ w) := ⟨h, rfl⟩
  have hgetD : ∀ {found found' : Option Part}, Option.Rel (Part.Grows w) found found' →
      (found.getD ([], cs)).Grows w (found'.getD ([], cs ++ w)) := by
    rintro _ _ (hfound | -)
    · exact hfound
    · exact hstays
  have hother : ∀ {e : Char}, ¬(e = 'e' ∨ e = 'E') → ∀ {rest : List Char},
      Script.readExponent (e :: rest) = ([], e :: rest) := by
    intro e he rest
    cases rest with
    | nil => rfl
    | cons sign rest => simp only [Script.readExponent, if_neg he, Option.getD_none]
  obtain _ | ⟨e, rest⟩ := cs
  · exact absurd rfl h.ne_nil
  by_cases he : e = 'e' ∨ e = 'E'
  · have hrest : Lined rest := by
      obtain ⟨rfl, -⟩ | hrest := h.tail
      · exact absurd he (by decide)
      · exact hrest
    obtain _ | ⟨sign, rest⟩ := rest
    · exact absurd rfl hrest.ne_nil
    simp only [Script.readExponent, List.cons_append, if_pos he]
    refine hgetD ?_
    split
    case isTrue hsign =>
      obtain ⟨rfl, -⟩ | hrest := hrest.tail
      · exact absurd hsign (by decide)
      · exact hrest.readExponentDigits w [e, sign]
    case isFalse => exact hrest.readExponentDigits w [e]
  · rw [List.cons_append, hother he, hother he]
    exact hstays

theorem Lined.readFraction : (readFraction cs).Grows w (readFraction (cs ++ w)) := by
  match cs with
  | [] => exact absurd rfl h.ne_nil
  | c :: rest =>
    by_cases hc : c = '.'
    · subst hc
      obtain ⟨hdot, -⟩ | hrest := h.tail
      · cases hdot
      · have hdigits := hrest.readWhile w (p := Char.isDigit) rfl
        have hexponent := hdigits.lined.readExponent w
        simp only [Script.readFraction, List.cons_append, hdigits.eq, hexponent.eq]
        exact ⟨hexponent.lined, rfl⟩
    · have hother : ∀ ds, Script.readFraction (c :: ds) = Script.readExponent (c :: ds) := by
        intro ds
        rw [Script.readFraction]
        exact fun _ heq => hc (List.cons.inj heq).1
      rw [List.cons_append, hother, hother]
      exact h.readExponent w

omit h in
/-- A zero with digits or a fraction behind it. -/
theorem Lined.readNumber_zero (h : Lined ('0' :: cs)) :
    (readNumber ('0' :: cs)).Grows w (readNumber ('0' :: (cs ++ w))) := by
  obtain ⟨hzero, -⟩ | h := h.tail
  · cases hzero
  match cs with
  | [] => exact absurd rfl h.ne_nil
  | d :: more =>
    by_cases hx : d = 'x' ∨ d = 'X'
    · have hmore : Lined more := by
        obtain ⟨rfl, -⟩ | hmore := h.tail
        · exact absurd hx (by decide)
        · exact hmore
      have hoctal : isOctalDigit d = false := by obtain rfl | rfl := hx <;> decide
      match more with
      | [] => exact absurd rfl hmore.ne_nil
      | e :: rest =>
        by_cases he : isHexDigit e = true
        · have hdigits := hmore.readWhile w (p := isHexDigit) (by decide)
          rw [List.cons_append] at hdigits
          simp only [Script.readNumber, List.cons_append, hx, he, and_self, if_true, hdigits.eq]
          exact ⟨hdigits.lined, rfl⟩
        · have hfraction := h.readFraction w
          simp only [List.cons_append] at hfraction
          simp only [Script.readNumber, List.cons_append, he, and_false, hoctal, if_false,
            Bool.false_eq_true, hfraction.eq]
          exact ⟨hfraction.lined, rfl⟩
    · obtain ⟨hlower, hupper⟩ := not_or.1 hx
      by_cases hoctal : isOctalDigit d = true
      · have hdigits := h.readWhile w (p := isOctalDigit) (by decide)
        have hread : ∀ ds, Script.readNumber ('0' :: d :: ds)
            = (Script.readWhile isOctalDigit (d :: ds)).prepend ['0'] := by
          intro ds
          cases ds with
          | nil => simp [Script.readNumber, Script.readWhile, Part.prepend, hoctal]
          | cons e ds => simp [Script.readNumber, Part.prepend, hlower, hupper, hoctal]
        rw [List.cons_append, hread, hread]
        exact hdigits.prepend ['0']
      · have hread := Script.readNumber_zero hlower hupper (Bool.eq_false_iff.2 hoctal)
        rw [List.cons_append, hread, hread]
        exact (h.readFraction w).prepend ['0']

theorem Lined.readNumber : (readNumber cs).Grows w (readNumber (cs ++ w)) := by
  match cs with
  | [] => exact absurd rfl h.ne_nil
  | c :: rest =>
    by_cases hc : c = '0'
    · subst hc
      exact h.readNumber_zero w
    · have hwhole := h.readWhile w (p := Char.isDigit) rfl
      have hfraction := hwhole.lined.readFraction w
      have hread : ∀ ds, Script.readNumber (c :: ds)
          = (Script.readFraction (Script.readWhile Char.isDigit (c :: ds)).2).prepend
            (Script.readWhile Char.isDigit (c :: ds)).1 := by
        intro ds
        rw [Script.readNumber]
        · rfl
        all_goals
          intros
          simp_all
      rw [List.cons_append] at hwhole ⊢
      rw [hread, hread, hwhole.eq]
      exact hfraction.prepend _

theorem Lined.readRegexTail {inClass : Bool} {part : Part}
    (hread : readRegexTail inClass cs = some part) :
    ∃ part', readRegexTail inClass (cs ++ w) = some part' ∧ part.Grows w part' := by
  fun_induction Script.readRegexTail inClass cs generalizing part with
  | case1 | case2 | case4 => cases hread
  | case3 inClass d cs hline ih =>
    obtain ⟨inner, hinner, rfl⟩ := Option.map_eq_some_iff.1 hread
    obtain rfl | hcs := Lined.of_append (x := ['\x5c', d]) h
    · cases hinner
    · obtain ⟨inner', hinner', hgrows⟩ := ih hcs hinner
      refine ⟨_, ?_, hgrows.prepend _⟩
      rw [List.cons_append, List.cons_append, Script.readRegexTail, if_neg hline, hinner']
      rfl
  | case5 d cs _ hslash ih =>
    obtain ⟨inner, hinner, rfl⟩ := Option.map_eq_some_iff.1 hread
    obtain rfl | hcs := Lined.of_append (x := [d]) h
    · cases hinner
    · obtain ⟨inner', hinner', hgrows⟩ := ih hcs hinner
      refine ⟨_, ?_, hgrows.prepend _⟩
      rw [List.cons_append, Script.readRegexTail, if_neg hslash, if_pos rfl, hinner']
      · rfl
      · exact fun _ _ heq => absurd heq hslash
  | case6 inClass cs hclass flags _ hflags =>
    cases hread
    obtain ⟨hslash, -⟩ | hcs := h.tail
    · cases hslash
    · have hgrows := hcs.readWhile w (p := fun d => d.toNat < 128 && d.isAlphanum) (by decide)
      rw [hflags] at hgrows
      refine ⟨_, ?_, hgrows.prepend ['/']⟩
      rw [List.cons_append, Script.readRegexTail, if_neg (by decide), if_neg hclass, if_pos rfl]
      · rfl
      · exact fun _ _ heq => absurd heq (by decide)
  | case7 inClass d cs _ hslash hclass hend ih =>
    obtain ⟨inner, hinner, rfl⟩ := Option.map_eq_some_iff.1 hread
    obtain rfl | hcs := Lined.of_append (x := [d]) h
    · cases hinner
    · obtain ⟨inner', hinner', hgrows⟩ := ih hcs hinner
      refine ⟨_, ?_, hgrows.prepend _⟩
      rw [List.cons_append, Script.readRegexTail, if_neg hslash, if_neg hclass, if_neg hend,
        hinner']
      · rfl
      · exact fun _ _ heq => absurd heq hslash

theorem Lined.readRegex {part : Part} (hread : readRegex cs = some part) :
    ∃ part', readRegex (cs ++ w) = some part' ∧ part.Grows w part' := by
  unfold Script.readRegex at hread
  split at hread
  case h_2 => cases hread
  case h_1 c tail =>
    split at hread
    case isTrue => cases hread
    case isFalse hstart =>
      obtain ⟨inner, hinner, rfl⟩ := Option.map_eq_some_iff.1 hread
      obtain ⟨hslash, -⟩ | htail := h.tail
      · cases hslash
      · obtain ⟨inner', hinner', hgrows⟩ := htail.readRegexTail w hinner
        refine ⟨_, ?_, hgrows.prepend ['/']⟩
        rw [List.cons_append] at hinner'
        rw [List.cons_append, List.cons_append, Script.readRegex, if_neg hstart, hinner']
        rfl

/-- No mark begins inside the text and ends behind it. -/
theorem Lined.isPrefixOf (m : Mark) :
    m.text.toList.isPrefixOf (cs ++ w) = m.text.toList.isPrefixOf cs := by
  have hmark : '\n' ∉ m.text.toList := by
    cases m with
    | binary op => cases op <;> decide
    | assign op => cases op <;> decide
    | _ => decide
  rw [Bool.eq_iff_iff, List.isPrefixOf_iff_prefix, List.isPrefixOf_iff_prefix]
  refine ⟨fun hlong => ?_, fun hshort => hshort.trans (List.prefix_append cs w)⟩
  obtain hshort | hlong := List.prefix_or_prefix_of_prefix hlong (List.prefix_append cs w)
  · exact hshort
  · obtain ⟨line, rfl⟩ := h
    exact absurd (hlong.subset (by simp)) hmark

theorem Lined.read?_mark {m : Mark} {rest : List Char} (hread : Mark.read? cs = some (m, rest)) :
    Mark.read? (cs ++ w) = some (m, rest ++ w) := by
  have hfind : (Mark.all.find? fun mark => mark.text.toList.isPrefixOf (cs ++ w))
      = Mark.all.find? fun mark => mark.text.toList.isPrefixOf cs :=
    congrArg (List.find? · Mark.all) (funext fun mark => h.isPrefixOf w mark)
  have hle : m.text.length ≤ cs.length := by
    rw [Mark.read?_append hread, List.length_append, ← String.length_toList]
    exact Nat.le_add_right ..
  obtain ⟨found, hfound, heq⟩ := Option.map_eq_some_iff.1 hread
  cases heq
  rw [Mark.read?, hfind, hfound, Option.map_some, List.drop_append_of_le_length hle]

omit h in
theorem afterBlockComment_more {rest : List Char} (hread : afterBlockComment cs = some rest) :
    afterBlockComment (cs ++ w) = some (rest ++ w) := by
  fun_induction afterBlockComment cs with
  | case1 => cases hread
  | case2 cs =>
    cases hread
    rfl
  | case3 c cs hend ih =>
    rw [List.cons_append, afterBlockComment, ih hread]
    intro tail hc htail
    cases cs with
    | nil => cases hread
    | cons d cs =>
      cases htail
      exact hend cs hc rfl

end

/-! ## States -/

/-- The states make no difference to what follows, up to the brackets that are not due. -/
structure Resembles (due : List Mark) (s s' : LexState) : Prop where
  previous : s'.previous = s.previous
  gap : s'.gap = s.gap
  wideSpace : s'.wideSpace = s.wideSpace
  parens : ∃ outer, s'.parens = s.parens ++ outer
  depth : s.parens.length = due.count .rparen
  closedHead : s.previous = some (.mark .rparen) → s'.closedHead = s.closedHead

section
variable {due due' : List Mark} {s s' : LexState}

/-- A closing bracket is passed where it is due. -/
theorem cross_closer {m : Mark} (hopens : m.closer? = none) (hcloses : m.isCloser = true)
    (hcross : (TokenKind.mark m).cross due = some due') : due.head? = some m ∧ due.tail = due' := by
  rw [TokenKind.cross] at hcross
  simp only [hopens, hcloses, if_true] at hcross
  split at hcross
  case isTrue hdue => exact ⟨hdue, Option.some.inj hcross⟩
  case isFalse => cases hcross

variable (h : Resembles due s s')
include h

theorem Resembles.divides : s'.divides = s.divides := by
  have hends : s'.endsOperand = s.endsOperand := by
    unfold LexState.endsOperand
    rw [h.previous]
    split
    case h_1 hprevious =>
      unfold LexState.atHeadEnd
      rw [h.closedHead hprevious, h.gap]
    all_goals rfl
  unfold LexState.divides
  rw [h.wideSpace, hends]

theorem Resembles.withGap (gap : Gap) : Resembles due (s.withGap gap) (s'.withGap gap) where
  previous := h.previous
  gap := rfl
  wideSpace := rfl
  parens := h.parens
  depth := h.depth
  closedHead := h.closedHead

theorem Resembles.space (wide : Bool) : Resembles due { s with wideSpace := s.wideSpace || wide }
    { s' with wideSpace := s'.wideSpace || wide } where
  previous := h.previous
  gap := h.gap
  wideSpace := congrArg (· || wide) h.wideSpace
  parens := h.parens
  depth := h.depth
  closedHead := h.closedHead

/-- A token after which the parentheses are as before. -/
theorem Resembles.after_other {kind : TokenKind} (hother : kind ≠ .mark .rparen)
    (hafter : ∀ s : LexState, s.after kind = { s.withGap .token with previous := some kind })
    (hdepth : due'.count .rparen = due.count .rparen) :
    Resembles due' (s.after kind) (s'.after kind) := by
  rw [hafter, hafter]
  exact
    { previous := rfl
      gap := rfl
      wideSpace := rfl
      parens := h.parens
      depth := h.depth.trans hdepth.symm
      closedHead := fun hprevious => absurd (Option.some.inj hprevious) hother }

theorem Resembles.after_lparen :
    Resembles (.rparen :: due) (s.after (.mark .lparen)) (s'.after (.mark .lparen)) where
  previous := rfl
  gap := rfl
  wideSpace := rfl
  parens := by
    obtain ⟨outer, houter⟩ := h.parens
    refine ⟨outer, ?_⟩
    simp only [LexState.after, h.gap, h.previous, houter, List.cons_append]
  depth := by
    rw [List.count_cons_self, ← h.depth]
    rfl
  closedHead := by rintro ⟨⟩

theorem Resembles.after_rparen (hdue : due.head? = some .rparen) :
    Resembles due.tail (s.after (.mark .rparen)) (s'.after (.mark .rparen)) := by
  obtain ⟨outer, houter⟩ := h.parens
  obtain ⟨due, rfl⟩ := List.head?_eq_some_iff.1 hdue
  have hdepth := h.depth
  rw [List.count_cons_self] at hdepth
  obtain ⟨head, parens, hparens⟩ := List.exists_cons_of_length_eq_add_one hdepth
  rw [hparens, List.length_cons, Nat.add_right_cancel_iff] at hdepth
  rw [hparens, List.cons_append] at houter
  exact
    { previous := rfl
      gap := rfl
      wideSpace := rfl
      parens := ⟨outer, by simp only [LexState.after, hparens, houter, List.tail_cons]⟩
      depth := by simpa only [LexState.after, hparens, List.tail_cons] using hdepth
      closedHead := fun _ => by simp only [LexState.after, hparens, houter, List.head?_cons] }

/-- A token that is passed leaves the states alike. -/
theorem Resembles.after {kind : TokenKind} (hcross : kind.cross due = some due') :
    Resembles due' (s.after kind) (s'.after kind) := by
  cases kind with
  | mark m =>
    cases m with
    | lparen =>
      cases hcross
      exact h.after_lparen
    | rparen =>
      obtain ⟨hdue, rfl⟩ := cross_closer rfl rfl hcross
      exact h.after_rparen hdue
    | lbrace | lbracket =>
      cases hcross
      exact h.after_other nofun (fun _ => rfl) (List.count_cons_of_ne (by decide))
    | rbrace | rbracket =>
      obtain ⟨hdue, rfl⟩ := cross_closer rfl rfl hcross
      obtain ⟨due, rfl⟩ := List.head?_eq_some_iff.1 hdue
      exact h.after_other nofun (fun _ => rfl) (List.count_cons_of_ne (by decide)).symm
    | _ =>
      cases hcross
      exact h.after_other nofun (fun _ => rfl) rfl
  | _ =>
    cases hcross
    exact h.after_other nofun (fun _ => rfl) rfl

end

/-! ## Steps of the lexer -/

/-- What the lexer finds with more text behind and from another state, given what it finds in the
text from the first state. A name at the end of the text may be the head of an accessor there. -/
inductive Lexed.Grows (w : List Char) (due : List Mark) (s s' : LexState) (cs : List Char) :
    Lexed → Lexed → Prop
  | stop (kind : TokenKind) (found : Lexed) : Grows w due s s' cs (.stop kind) found
  | skip {t t' : LexState} (rest : List Char) : Resembles due t t' →
    Grows w due s s' cs (.skip t rest) (.skip t' (rest ++ w))
  | lineSemi (rest : List Char) : Grows w due s s' cs (.lineSemi rest) (.lineSemi (rest ++ w))
  | token (kind : TokenKind) (rest : List Char) :
    Grows w due s s' cs (.token kind none rest) (.token kind none (rest ++ w))
  | slash (m : Mark) (rest : List Char) :
    Grows w due s s' cs (.token (.mark m) (some ⟨s, cs⟩) rest)
      (.token (.mark m) (some ⟨s', cs ++ w⟩) (rest ++ w))
  | lastName (id : String) (found : Lexed) :
    Grows w due s s' cs (.token (.name id) none ['\n']) found

section
variable {w cs : List Char} {due : List Mark} {s s' : LexState}

theorem ofPart_grows {make : String → TokenKind} {found found' : Option Part}
    (h : ∀ part, found = some part → found' = some (part.1, part.2 ++ w)) :
    Lexed.Grows w due s s' cs (.ofPart make found) (.ofPart make found') := by
  cases found with
  | none => exact .stop ..
  | some part =>
    rw [h part rfl]
    exact .token ..

theorem Part.Grows.ofPart {make : String → TokenKind} {part part' : Part}
    (h : part.Grows w part') :
    Lexed.Grows w due s s' cs (.ofPart make (some part)) (.ofPart make (some part')) := by
  rw [h.eq]
  exact .token ..

variable (hs : Resembles due s s')
include hs

theorem Resembles.lineEnd (rest : List Char) :
    Lexed.Grows w due s s' cs (s.lineEnd rest) (s'.lineEnd (rest ++ w)) := by
  unfold LexState.lineEnd
  rw [hs.gap, hs.previous]
  split
  · exact .lineSemi rest
  · exact .skip rest (hs.withGap .lineEnd)

variable (h : Lined cs)
include h

omit hs in
theorem Lined.ofMark_none :
    Lexed.Grows w due s s' cs (.ofMark none cs) (.ofMark none (cs ++ w)) := by
  unfold Lexed.ofMark
  cases hread : Mark.read? cs with
  | none => exact .stop ..
  | some found =>
    rw [h.read?_mark w hread]
    exact .token ..

theorem Lined.slash : Lexed.Grows w due s s' cs (s.slash cs) (s'.slash (cs ++ w)) := by
  unfold LexState.slash
  rw [hs.divides, hs.previous]
  split
  · split
    · unfold Lexed.ofMark
      cases hread : Mark.read? cs with
      | none => exact .stop ..
      | some found =>
        rw [h.read?_mark w hread]
        exact .slash ..
    · exact h.ofMark_none
  · refine ofPart_grows fun part hread => ?_
    obtain ⟨part', hread', hgrows⟩ := h.readRegex w hread
    rw [hread', hgrows.eq]

omit hs in
theorem Lined.word : Lexed.Grows w due s s' cs
    (.token (wordKind (String.ofList (Script.readName cs).1) (Script.readName cs).2) none
      (Script.readName cs).2)
    (.token (wordKind (String.ofList (Script.readName (cs ++ w)).1) (Script.readName (cs ++ w)).2)
      none (Script.readName (cs ++ w)).2) := by
  obtain ⟨hlined, heq⟩ := h.readName w
  rw [heq]
  generalize String.ofList (Script.readName cs).1 = word
  generalize (Script.readName cs).2 = rest at hlined
  match rest with
  | [] => exact absurd rfl hlined.ne_nil
  | c :: d :: rest => exact .token ..
  | [c] =>
    obtain ⟨rfl, -⟩ | hnil := hlined.tail
    case inr => exact absurd rfl hnil.ne_nil
    by_cases hget : word = "get"
    · subst hget
      exact .lastName ..
    by_cases hset : word = "set"
    · subst hset
      exact .lastName ..
    have hword : ∀ ds, wordKind word ds = wordToken word := by
      intro ds
      exact wordKind_of_not_blank fun haccessor => absurd haccessor (not_or.2 ⟨hget, hset⟩)
    rw [hword, hword]
    exact .token ..

omit hs h in
/-- What the lexer does where two characters begin neither a line end nor a comment nor a number. -/
theorem look_cons_cons (s : LexState) {c d : Char} (hline : ¬(c = '\r' ∧ d = '\n'))
    (hcomment : ¬(c = '/' ∧ (d = '/' ∨ d = '*'))) (hdot : c ≠ '.') (rest : List Char) :
    s.look (c :: d :: rest) =
      if c = '\n' ∨ c = '\r' then s.lineEnd (d :: rest)
      else if isSpace c then
        .skip { s with wideSpace := s.wideSpace || isWideSpace c } (d :: rest)
      else if c = '/' then s.slash (c :: d :: rest)
      else if c = '\x22' ∨ c = '\x27' then
        Lexed.ofPart .string ((Script.readQuoted c (d :: rest)).map (Part.prepend [c]))
      else if c.isDigit then Lexed.ofPart .number (some (Script.readNumber (c :: d :: rest)))
      else if isNameStart c then
        .token (wordKind (String.ofList (Script.readName (c :: d :: rest)).1)
          (Script.readName (c :: d :: rest)).2) none (Script.readName (c :: d :: rest)).2
      else Lexed.ofMark none (c :: d :: rest) := by
  rw [LexState.look]
  all_goals
    intros
    simp_all

omit hs h in
theorem look_lineComment (s : LexState) (rest : List Char) : s.look ('/' :: '/' :: rest)
    = .skip (s.withGap .comment) (Script.readWhile (!endsLine ·) rest).2 := rfl

omit hs h in
theorem look_blockComment (s : LexState) (rest : List Char) : s.look ('/' :: '*' :: rest)
    = match afterBlockComment rest with
      | some rest => .skip (s.withGap .comment) rest
      | none => .stop .invalid := rfl

omit hs h in
theorem look_dot (s : LexState) (d : Char) (rest : List Char) : s.look ('.' :: d :: rest)
    = if d.isDigit then Lexed.ofPart .number (some (Script.readNumber ('.' :: d :: rest)))
      else .token (.mark .dot) none (d :: rest) := rfl

/-- What the lexer finds in the text, it finds there with more text behind it. -/
theorem Lined.look : Lexed.Grows w due s s' cs (s.look cs) (s'.look (cs ++ w)) := by
  match cs with
  | [] => exact absurd rfl h.ne_nil
  | [c] =>
    obtain ⟨rfl, -⟩ | hnil := h.tail
    · exact hs.lineEnd []
    · exact absurd rfl hnil.ne_nil
  | c :: d :: rest =>
    by_cases hline : c = '\r' ∧ d = '\n'
    · obtain ⟨rfl, rfl⟩ := hline
      exact hs.lineEnd rest
    by_cases hcomment : c = '/' ∧ (d = '/' ∨ d = '*')
    · have hd : d ≠ '\n' := by obtain ⟨-, rfl | rfl⟩ := hcomment <;> decide
      obtain ⟨rfl, -⟩ | htail := h.tail
      · exact absurd hcomment.1 (by decide)
      obtain ⟨hnewline, -⟩ | hrest := htail.tail
      · exact absurd hnewline hd
      obtain ⟨rfl, rfl | rfl⟩ := hcomment
      · have hgrows := hrest.readWhile w (p := (!endsLine ·)) (by decide)
        simp only [List.cons_append]
        rw [look_lineComment, look_lineComment, hgrows.eq]
        exact .skip _ (hs.withGap .comment)
      · simp only [List.cons_append]
        rw [look_blockComment, look_blockComment]
        cases hread : afterBlockComment rest with
        | none => exact .stop ..
        | some rest =>
          rw [afterBlockComment_more w hread]
          exact .skip _ (hs.withGap .comment)
    by_cases hdot : c = '.'
    · subst hdot
      have hnumber := h.readNumber w
      simp only [List.cons_append] at hnumber ⊢
      rw [look_dot, look_dot]
      split
      · exact hnumber.ofPart
      · exact .token ..
    have hmore := look_cons_cons s' hline hcomment hdot (rest ++ w)
    rw [look_cons_cons s hline hcomment hdot, List.cons_append, List.cons_append, hmore]
    split
    · exact hs.lineEnd (d :: rest)
    split
    · exact .skip (d :: rest) (hs.space _)
    split
    · exact h.slash hs
    split
    case isTrue hquote =>
      have hslash : c ≠ '\x5c' := by obtain rfl | rfl := hquote <;> decide
      refine ofPart_grows fun part hread => ?_
      obtain ⟨inner, hinner, rfl⟩ := Option.map_eq_some_iff.1 hread
      have hmore := readQuoted_again hslash hinner (inner.2 ++ w)
      rw [← List.append_assoc, readQuoted_append hinner, List.cons_append] at hmore
      rw [hmore]
      rfl
    split
    · exact (h.readNumber w).ofPart
    split
    · exact h.word
    · exact h.ofMark_none

end

/-! ## Tokens -/

open Reader (nextKind Twin Twins)

/-- Nothing is left of the tokens but names and words that wait for what stands behind them. -/
inductive Over : List Token → Prop
  | nil : Over []
  | stop {kind : TokenKind} {line : Bool} : kind = .eof ∨ kind = .invalid →
    Over [⟨kind, line, none⟩]
  | leading {kind : TokenKind} {line : Bool} {rest : List Token} : kind.leadsOn = true →
    Over rest → Over (⟨kind, line, none⟩ :: rest)

/-- Tokens of a text, and tokens of it with more text behind it and from another state. -/
def Alike (w : List Char) (due : List Mark) (ts ts' : List Token) : Prop :=
  Over ts ∨ ∃ (s s' : LexState) (cs : List Char), Lined cs ∧ Resembles due s s' ∧
    ts = s.tokens cs ∧ ts' = s'.tokens (cs ++ w)

theorem tokens_nil (s : LexState) : s.tokens [] = [⟨.eof, s.gap == .lineEnd, none⟩] :=
  tokens_stop rfl

theorem Lined.of_token {s : LexState} {cs rest : List Char} {kind : TokenKind}
    {retry : Option Retry} (h : Lined cs) (hlook : s.look cs = .token kind retry rest) :
    rest = [] ∨ Lined rest := by
  obtain ⟨x, -, rfl⟩ := (tokenText_of_look hlook).exists_append
  exact h.of_append

end Espalier.Script
