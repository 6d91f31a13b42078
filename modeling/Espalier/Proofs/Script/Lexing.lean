import Espalier.Proofs.Scan.Balanced
import Espalier.Script.Lexer
import Mathlib.Tactic.SplitIfs

/-!
# The text of tokens

What the lexer takes for a token, a gap or a comment is a piece of the text in front of what it goes
on with. `TokenText` and `GapText` say what such a piece looks like and in which state the lexer
takes it. Main statements: `tokenText_of_look` and `gapText_of_look`, by which every step of the
lexer is one of these, and `tokens_token` and the lemmas beside it, by which the tokens of a text
are found step by step, whatever the bound.
-/

namespace Espalier.Script

/-! ## Words and literals -/

theorem readWhile_append (p : Char → Bool) (cs : List Char) :
    (readWhile p cs).1 ++ (readWhile p cs).2 = cs :=
  List.takeWhile_append_dropWhile

theorem readName_append (cs : List Char) : (readName cs).1 ++ (readName cs).2 = cs := by
  simp only [readName, List.append_assoc, List.takeWhile_append_dropWhile]

theorem readExponentDigits_append {opening cs : List Char} {part : Part}
    (h : readExponentDigits opening cs = some part) : part.1 ++ part.2 = opening ++ cs := by
  simp only [readExponentDigits] at h
  split at h
  · cases h
  · cases h
    rw [List.append_assoc, readWhile_append]

theorem readExponent_append (cs : List Char) : (readExponent cs).1 ++ (readExponent cs).2 = cs := by
  simp only [readExponent]
  split
  case h_1 e sign rest =>
    split
    · split
      · cases hdigits : readExponentDigits [e, sign] rest with
        | none => rfl
        | some part => exact readExponentDigits_append hdigits
      · cases hdigits : readExponentDigits [e] (sign :: rest) with
        | none => rfl
        | some part => exact readExponentDigits_append hdigits
    · rfl
  case h_2 => rfl

theorem readFraction_append (cs : List Char) : (readFraction cs).1 ++ (readFraction cs).2 = cs := by
  unfold readFraction
  split
  · simp only [List.cons_append, List.append_assoc, readExponent_append, readWhile_append]
  · exact readExponent_append _

theorem readNumber_append (cs : List Char) : (readNumber cs).1 ++ (readNumber cs).2 = cs := by
  unfold readNumber
  split
  · split
    · simp only [List.cons_append, readWhile_append]
    · split
      · simp only [List.cons_append, readWhile_append]
      · simp only [List.cons_append, readFraction_append]
  · dsimp only
    split
    · simp only [List.cons_append, readFraction_append]
    · simp only [List.cons_append, readWhile_append]
  · simp only [List.append_assoc, readFraction_append, readWhile_append]

theorem prepend_append {cs rest : List Char} {found : Option Part} {part : Part}
    (hfound : ∀ {part : Part}, found = some part → part.1 ++ part.2 = rest)
    (h : found.map (Part.prepend cs) = some part) : part.1 ++ part.2 = cs ++ rest := by
  obtain ⟨inner, hinner, rfl⟩ := Option.map_eq_some_iff.1 h
  rw [Part.prepend, List.append_assoc, hfound hinner]

theorem readQuoted_append {mark : Char} {cs : List Char} {part : Part}
    (h : readQuoted mark cs = some part) : part.1 ++ part.2 = cs := by
  fun_induction readQuoted mark cs generalizing part with
  | case1 | case4 | case6 | case8 | case10 => cases h
  | case9 =>
    cases h
    rfl
  | case2 | case3 | case5 | case7 | case11 =>
    rename_i ih
    exact prepend_append @ih h

theorem readRegexTail_append {inClass : Bool} {cs : List Char} {part : Part}
    (h : readRegexTail inClass cs = some part) : part.1 ++ part.2 = cs := by
  fun_induction readRegexTail inClass cs generalizing part with
  | case1 | case2 | case4 => cases h
  | case6 _ cs _ flags rest hflags =>
    cases h
    have happend := readWhile_append (fun d => d.toNat < 128 && d.isAlphanum) cs
    rw [hflags] at happend
    exact congrArg _ happend
  | case3 | case5 | case7 =>
    rename_i ih
    exact prepend_append @ih h

/-- A regular expression is a slash and what its tail is. -/
theorem readRegex_cases {cs : List Char} {part : Part} (h : readRegex ('/' :: cs) = some part) :
    ∃ inner, readRegexTail false cs = some inner ∧ inner.prepend ['/'] = part := by
  unfold readRegex at h
  split at h
  case h_1 c tail heq =>
    cases heq
    split at h
    · cases h
    · exact Option.map_eq_some_iff.1 h
  case h_2 => cases h

theorem readRegex_append {cs : List Char} {part : Part} (h : readRegex cs = some part) :
    part.1 ++ part.2 = cs := by
  unfold readRegex at h
  split at h
  case h_1 =>
    split at h
    · cases h
    · exact prepend_append readRegexTail_append h
  case h_2 => cases h

theorem Mark.read?_append {cs rest : List Char} {m : Mark} (h : Mark.read? cs = some (m, rest)) :
    cs = m.text.toList ++ rest := by
  obtain ⟨found, hfound, heq⟩ := Option.map_eq_some_iff.1 h
  cases heq
  have hstarts := List.find?_some hfound
  obtain ⟨tail, rfl⟩ := List.isPrefixOf_iff_prefix.1 hstarts
  rw [← String.length_toList, List.drop_left]

theorem readNumber_ne_nil {c : Char} (cs : List Char) (h : c.isDigit = true ∨ c = '.') :
    (readNumber (c :: cs)).1 ≠ [] := by
  unfold readNumber
  split
  · split
    · exact List.cons_ne_nil _ _
    · split <;> exact List.cons_ne_nil _ _
  · dsimp only
    split <;> exact List.cons_ne_nil _ _
  · obtain hdigit | rfl := h
    · simp [readWhile, hdigit]
    · have hwhole : ('.' :: cs).takeWhile Char.isDigit = [] := rfl
      simp [readWhile, hwhole, readFraction]

theorem readName_ne_nil {c : Char} (cs : List Char) (h : isNameStart c = true) :
    (readName (c :: cs)).1 ≠ [] := by
  simp [readName, h]

theorem mem_readName {c : Char} {cs : List Char} (h : c ∈ (readName cs).1) :
    isNameStart c = true ∨ isNamePart c = true := by
  rw [readName, List.mem_append] at h
  exact h.imp (List.all_eq_true.1 List.all_takeWhile c) (List.all_eq_true.1 List.all_takeWhile c)

/-- What follows a block comment follows its text. -/
theorem afterBlockComment_append {cs rest : List Char} (h : afterBlockComment cs = some rest) :
    ∃ text, Scan.CommentText text ∧ cs = text ++ rest := by
  fun_induction afterBlockComment cs with
  | case1 => cases h
  | case2 cs =>
    cases h
    exact ⟨_, .close, rfl⟩
  | case3 c cs hend ih =>
    obtain ⟨text, htext, rfl⟩ := ih h
    refine ⟨c :: text, .char ?_ htext, rfl⟩
    rintro ⟨rfl, hslash⟩
    obtain ⟨text, rfl⟩ : ∃ tail, text = '/' :: tail := by
      cases text with
      | nil => cases hslash
      | cons d text =>
        cases hslash
        exact ⟨text, rfl⟩
    exact hend (text ++ rest) rfl rfl

/-! ## Steps of the lexer -/

/-- The slash marks. -/
def Mark.isSlash : Mark → Bool
  | .binary .div | .assign .div => true
  | _ => false

/-- How a slash after the state is read again. -/
def LexState.retry? (s : LexState) (cs : List Char) : Option Retry :=
  if s.previous.any (·.isAmbiguous) then some ⟨s, cs⟩ else none

/-- From this state a token is found at the start of the first text, and the second text follows
it. -/
inductive TokenText (s : LexState) : List Char → TokenKind → Option Retry → List Char → Prop
  | word {w rest : List Char} : w ≠ [] → readName (w ++ rest) = (w, rest) →
    TokenText s (w ++ rest) (wordKind (String.ofList w) rest) none rest
  | number {w rest : List Char} : w ≠ [] → readNumber (w ++ rest) = (w, rest) →
    TokenText s (w ++ rest) (.number (String.ofList w)) none rest
  | string {mark : Char} {w rest : List Char} : mark = '\x22' ∨ mark = '\x27' →
    readQuoted mark (w ++ rest) = some (w, rest) →
    TokenText s (mark :: (w ++ rest)) (.string (String.ofList (mark :: w))) none rest
  | regex {w rest : List Char} : s.divides = false → Scan.startsComment (w ++ rest) = false →
    readRegexTail false (w ++ rest) = some (w, rest) →
    TokenText s ('/' :: (w ++ rest)) (.regex (String.ofList ('/' :: w))) none rest
  | slash {m : Mark} {rest : List Char} : m.isSlash = true → s.divides = true →
    Scan.startsComment (m.text.toList ++ rest).tail = false →
    TokenText s (m.text.toList ++ rest) (.mark m) (s.retry? (m.text.toList ++ rest)) rest
  | mark {m : Mark} {rest : List Char} : m.isSlash = false →
    TokenText s (m.text.toList ++ rest) (.mark m) none rest

/-- A word is a name, a keyword or the head of an accessor. -/
theorem wordKind_cases (word : String) (rest : List Char) :
    wordKind word rest = .getter ∨ wordKind word rest = .setter ∨
      (∃ keyword, wordKind word rest = .keyword keyword) ∨ wordKind word rest = .name word := by
  unfold wordKind
  split
  · exact .inl rfl
  · split
    · exact .inr (.inl rfl)
    · split
      · exact .inr (.inr (.inl ⟨_, rfl⟩))
      · exact .inr (.inr (.inr rfl))

/-- A line ends at the start of the first text, and the second text follows. -/
inductive LineEnd : List Char → List Char → Prop
  | newline (rest : List Char) : LineEnd ('\n' :: rest) rest
  | return (rest : List Char) : LineEnd ('\r' :: rest) rest
  | both (rest : List Char) : LineEnd ('\r' :: '\n' :: rest) rest

/-- From the first state the start of the first text is passed over, which leads to the second state
and text. -/
inductive GapText (s : LexState) : List Char → LexState → List Char → Prop
  | space {c : Char} {rest : List Char} : isSpace c = true →
    GapText s (c :: rest) { s with wideSpace := s.wideSpace || isWideSpace c } rest
  | lineEnd {cs rest : List Char} : LineEnd cs rest → GapText s cs (s.withGap .lineEnd) rest
  | blockComment {text rest : List Char} : Scan.CommentText text →
    GapText s ('/' :: '*' :: (text ++ rest)) (s.withGap .comment) rest
  | lineComment {text rest : List Char} :
    GapText s ('/' :: '/' :: (text ++ rest)) (s.withGap .comment) rest

section
variable {s s' : LexState} {cs rest : List Char} {kind : TokenKind} {retry : Option Retry}

theorem ofPart_eq_token {make : String → TokenKind} {part : Option Part}
    (h : Lexed.ofPart make part = .token kind retry rest) :
    ∃ w, part = some (w, rest) ∧ kind = make (String.ofList w) ∧ retry = none := by
  cases part with
  | none => cases h
  | some part =>
    cases h
    exact ⟨part.1, rfl, rfl, rfl⟩

theorem ofMark_eq_token {retry' : Option Retry}
    (h : Lexed.ofMark retry' cs = .token kind retry rest) :
    ∃ m : Mark, cs = m.text.toList ++ rest ∧ kind = .mark m ∧ retry = retry' := by
  unfold Lexed.ofMark at h
  split at h
  case h_1 m found hread =>
    cases h
    exact ⟨m, Mark.read?_append hread, rfl, rfl⟩
  case h_2 => cases h

theorem Mark.text_ne_nil (m : Mark) : m.text.toList ≠ [] := by
  cases m with
  | binary op => cases op <;> decide
  | assign op => cases op <;> decide
  | _ => decide

/-- A mark's text is its first character and others. -/
theorem Mark.head_text {m : Mark} {c : Char} (h : c :: cs = m.text.toList ++ rest) :
    m.text.toList.head? = some c := by
  cases htext : m.text.toList with
  | nil => exact absurd htext m.text_ne_nil
  | cons d text =>
    rw [htext] at h
    cases h
    rfl

/-- A mark that begins with a slash is one of the two. -/
theorem Mark.isSlash_iff (m : Mark) : m.isSlash = true ↔ m.text.toList.head? = some '/' := by
  cases m with
  | binary op => cases op <;> decide
  | assign op => cases op <;> decide
  | _ => decide

theorem ofPart_ne_skip {make : String → TokenKind} {part : Option Part} :
    Lexed.ofPart make part ≠ .skip s' rest := by
  cases part <;> nofun

theorem ofMark_ne_skip : Lexed.ofMark retry cs ≠ .skip s' rest := by
  unfold Lexed.ofMark
  split <;> nofun

theorem slash_ne_skip : s.slash cs ≠ .skip s' rest := by
  unfold LexState.slash
  split
  · exact ofMark_ne_skip
  · exact ofPart_ne_skip

theorem lineEnd_eq_skip (h : s.lineEnd cs = .skip s' rest) :
    s' = s.withGap .lineEnd ∧ rest = cs := by
  unfold LexState.lineEnd at h
  split at h
  · cases h
  · cases h
    exact ⟨rfl, rfl⟩

theorem lineEnd_ne_token : s.lineEnd cs ≠ .token kind retry rest := by
  unfold LexState.lineEnd
  split <;> nofun

/-- A token of a slash that begins no comment. -/
theorem tokenText_slash (hnext : Scan.startsComment cs = false)
    (h : s.slash ('/' :: cs) = .token kind retry rest) :
    TokenText s ('/' :: cs) kind retry rest := by
  unfold LexState.slash at h
  split at h
  case isTrue hdivides =>
    obtain ⟨m, hm, rfl, rfl⟩ := ofMark_eq_token h
    have hslash : m.isSlash = true := m.isSlash_iff.2 (Mark.head_text hm)
    have hstart : Scan.startsComment (m.text.toList ++ rest).tail = false := by
      rw [← hm]
      exact hnext
    rw [hm]
    exact .slash hslash hdivides hstart
  case isFalse hdivides =>
    obtain ⟨w, hread, rfl, rfl⟩ := ofPart_eq_token h
    obtain ⟨⟨body, after⟩, hbody, heq⟩ := readRegex_cases hread
    cases heq
    have happend := readRegexTail_append hbody
    rw [← happend] at hnext hbody ⊢
    exact .regex (Bool.eq_false_iff.2 hdivides) hnext hbody

theorem tokenText_number {c : Char} (hc : c.isDigit = true ∨ c = '.')
    (h : Lexed.ofPart .number (some (readNumber (c :: cs))) = .token kind retry rest) :
    TokenText s (c :: cs) kind retry rest := by
  obtain ⟨w, hread, rfl, rfl⟩ := ofPart_eq_token h
  have hread : readNumber (c :: cs) = (w, rest) := Option.some.inj hread
  have happend := readNumber_append (c :: cs)
  have hne := readNumber_ne_nil cs hc
  rw [hread] at happend hne
  rw [← happend] at hread ⊢
  exact .number hne hread

theorem tokenText_string {mark : Char} (hmark : mark = '\x22' ∨ mark = '\x27')
    (h : Lexed.ofPart .string ((readQuoted mark cs).map (Part.prepend [mark]))
      = .token kind retry rest) : TokenText s (mark :: cs) kind retry rest := by
  obtain ⟨w, hread, rfl, rfl⟩ := ofPart_eq_token h
  obtain ⟨⟨body, after⟩, hbody, heq⟩ := Option.map_eq_some_iff.1 hread
  cases heq
  have happend := readQuoted_append hbody
  rw [← happend] at hbody ⊢
  exact .string hmark hbody

theorem tokenText_word {c : Char} (hc : isNameStart c = true) :
    TokenText s (c :: cs) (wordKind (String.ofList (readName (c :: cs)).1) (readName (c :: cs)).2)
      none (readName (c :: cs)).2 := by
  have hne := readName_ne_nil cs hc
  have happend := readName_append (c :: cs)
  generalize hread : readName (c :: cs) = part at hne happend
  obtain ⟨w, rest⟩ := part
  rw [← happend] at hread ⊢
  exact .word hne hread

/-- Whatever the lexer takes for a token has the text of one. -/
theorem tokenText_of_look (h : s.look cs = .token kind retry rest) :
    TokenText s cs kind retry rest := by
  unfold LexState.look at h
  split at h
  case h_1 => cases h
  case h_2 => exact absurd h lineEnd_ne_token
  case h_3 => cases h
  case h_4 => split at h <;> cases h
  case h_5 digit tail =>
    split at h
    case isTrue => exact tokenText_number (.inr rfl) h
    case isFalse =>
      cases h
      exact .mark (m := .dot) rfl
  case h_6 c tail _ hline hblock _ =>
    split_ifs at h with hend hspace hslash hquote hdigit hname
    · exact absurd h lineEnd_ne_token
    · subst hslash
      refine tokenText_slash ?_ h
      cases tail with
      | nil => rfl
      | cons d tail =>
        have hd : d ≠ '/' ∧ d ≠ '*' :=
          ⟨fun h => hline tail rfl (h ▸ rfl), fun h => hblock tail rfl (h ▸ rfl)⟩
        simp [Scan.startsComment, hd]
    · exact tokenText_string hquote h
    · exact tokenText_number (.inl hdigit) h
    · cases h
      exact tokenText_word hname
    · obtain ⟨m, hm, rfl, rfl⟩ := ofMark_eq_token h
      have hother : m.isSlash = false := by
        rw [Bool.eq_false_iff, ne_eq, m.isSlash_iff, Mark.head_text hm]
        exact fun h => hslash (Option.some.inj h)
      rw [hm]
      exact .mark hother

/-- Whatever the lexer passes over is a gap. -/
theorem gapText_of_look (h : s.look cs = .skip s' rest) : GapText s cs s' rest := by
  unfold LexState.look at h
  split at h
  case h_1 => cases h
  case h_2 tail =>
    obtain ⟨rfl, rfl⟩ := lineEnd_eq_skip h
    exact .lineEnd (.both rest)
  case h_3 tail =>
    cases h
    have hcomment : GapText s ('/' :: '/' :: (tail.takeWhile (!endsLine ·)
        ++ tail.dropWhile (!endsLine ·))) (s.withGap .comment) _ := .lineComment
    rwa [List.takeWhile_append_dropWhile] at hcomment
  case h_4 tail =>
    split at h
    case h_1 found hfound =>
      cases h
      obtain ⟨text, htext, rfl⟩ := afterBlockComment_append hfound
      exact .blockComment htext
    case h_2 => cases h
  case h_5 digit tail =>
    split at h
    · exact absurd h ofPart_ne_skip
    · cases h
  case h_6 c tail _ hline hblock _ =>
    split_ifs at h with hend hspace hslash hquote hdigit hname
    · obtain ⟨rfl, rfl⟩ := lineEnd_eq_skip h
      obtain rfl | rfl := hend
      · exact .lineEnd (.newline rest)
      · exact .lineEnd (.return rest)
    · cases h
      exact .space hspace
    · exact absurd h slash_ne_skip
    · exact absurd h ofPart_ne_skip
    · exact absurd h ofPart_ne_skip
    · exact absurd h ofMark_ne_skip

/-- A semicolon is supplied only at the end of a line. -/
theorem lineEnd_of_look (h : s.look cs = .lineSemi rest) : LineEnd cs rest := by
  have hline : ∀ {tail}, s.lineEnd tail = .lineSemi rest → tail = rest := by
    intro tail h
    unfold LexState.lineEnd at h
    split at h <;> cases h
    rfl
  have hpart : ∀ {make part}, Lexed.ofPart make part ≠ .lineSemi rest := by
    intro make part
    cases part <;> nofun
  have hmark : ∀ {retry tail}, Lexed.ofMark retry tail ≠ .lineSemi rest := by
    intro retry tail
    unfold Lexed.ofMark
    split <;> nofun
  unfold LexState.look at h
  split at h
  case h_1 | h_3 => cases h
  case h_2 tail => exact hline h ▸ .both tail
  case h_4 => split at h <;> cases h
  case h_5 =>
    split at h
    · exact absurd h hpart
    · cases h
  case h_6 c tail _ _ _ _ =>
    split_ifs at h with hend hspace hslash hquote hdigit hname
    · obtain rfl | rfl := hend
      · exact hline h ▸ .newline tail
      · exact hline h ▸ .return tail
    · unfold LexState.slash at h
      split at h
      · exact absurd h hmark
      · exact absurd h hpart
    · exact absurd h hpart
    · exact absurd h hpart
    · exact absurd h hmark

/-- The lexer stops at the end of the text and where there is no token. -/
theorem stop_of_look (h : s.look cs = .stop kind) : kind = .eof ∧ cs = [] ∨ kind = .invalid := by
  have hline : ∀ {tail}, s.lineEnd tail ≠ .stop kind := by
    intro tail
    unfold LexState.lineEnd
    split <;> nofun
  have hpart : ∀ {make part}, Lexed.ofPart make part = .stop kind → kind = .invalid := by
    intro make part h
    cases part <;> cases h
    rfl
  have hmark : ∀ {retry tail}, Lexed.ofMark retry tail = .stop kind → kind = .invalid := by
    intro retry tail h
    unfold Lexed.ofMark at h
    split at h <;> cases h
    rfl
  unfold LexState.look at h
  split at h
  case h_1 =>
    cases h
    exact .inl ⟨rfl, rfl⟩
  case h_2 => exact absurd h hline
  case h_3 => cases h
  case h_4 =>
    split at h <;> cases h
    exact .inr rfl
  case h_5 =>
    split at h
    · exact .inr (hpart h)
    · cases h
  case h_6 c tail _ _ _ _ =>
    split_ifs at h with hend hspace hslash hquote hdigit hname
    · exact absurd h hline
    · unfold LexState.slash at h
      split at h
      · exact .inr (hmark h)
      · exact .inr (hpart h)
    · exact .inr (hpart h)
    · exact .inr (hpart h)
    · exact .inr (hmark h)

/-- What is passed over is no token. -/
theorem GapText.previous_eq (h : GapText s cs s' rest) : s'.previous = s.previous := by
  cases h <;> rfl

/-! ## All tokens of a text -/

theorem TokenText.kind_ne_lineSemi (h : TokenText s cs kind retry rest) : kind ≠ .lineSemi := by
  cases h with
  | @word w rest =>
    obtain h | h | ⟨_, h⟩ | h := wordKind_cases (String.ofList w) rest <;> rw [h] <;> nofun
  | number | string | regex | slash | mark => nofun

theorem LineEnd.exists_append (h : LineEnd cs rest) : ∃ w, w ≠ [] ∧ cs = w ++ rest := by
  cases h with
  | newline => exact ⟨['\n'], nofun, rfl⟩
  | «return» => exact ⟨['\r'], nofun, rfl⟩
  | both => exact ⟨['\r', '\n'], nofun, rfl⟩

theorem TokenText.exists_append (h : TokenText s cs kind retry rest) :
    ∃ w, w ≠ [] ∧ cs = w ++ rest := by
  cases h with
  | word hne => exact ⟨_, hne, rfl⟩
  | number hne => exact ⟨_, hne, rfl⟩
  | string => exact ⟨_ :: _, List.cons_ne_nil _ _, rfl⟩
  | regex => exact ⟨_ :: _, List.cons_ne_nil _ _, rfl⟩
  | @slash m => exact ⟨_, m.text_ne_nil, rfl⟩
  | @mark m => exact ⟨_, m.text_ne_nil, rfl⟩

/-- A slash is read again from where it stands. -/
theorem TokenText.chars_of_retry {again : Retry} (h : TokenText s cs kind retry rest)
    (hretry : retry = some again) : again.chars = cs := by
  cases h with
  | slash =>
    unfold LexState.retry? at hretry
    split at hretry <;> cases hretry
    rfl
  | word | number | string | regex | mark => cases hretry

theorem GapText.exists_append (h : GapText s cs s' rest) : ∃ w, w ≠ [] ∧ cs = w ++ rest := by
  cases h with
  | space => exact ⟨[_], nofun, rfl⟩
  | lineEnd hline => exact hline.exists_append
  | @blockComment text => exact ⟨'/' :: '*' :: text, nofun, rfl⟩
  | @lineComment text => exact ⟨'/' :: '/' :: text, nofun, rfl⟩

theorem length_lt_of_append {w : List Char} (hne : w ≠ []) (hcs : cs = w ++ rest) :
    rest.length < cs.length := by
  have hpos := List.length_pos_iff.2 hne
  rw [hcs, List.length_append]
  omega

/-- Induction along the steps of the lexer. -/
@[elab_as_elim]
theorem LexState.look_induction {motive : LexState → List Char → Prop}
    (stop : ∀ s cs kind, s.look cs = .stop kind → motive s cs)
    (skip : ∀ s cs s' rest, s.look cs = .skip s' rest → motive s' rest → motive s cs)
    (lineSemi : ∀ s cs rest, s.look cs = .lineSemi rest → motive (s.withGap .lineEnd) rest →
      motive s cs)
    (token : ∀ s cs kind retry rest, s.look cs = .token kind retry rest →
      motive (s.after kind) rest → motive s cs) (s : LexState) (cs : List Char) : motive s cs := by
  induction hn : cs.length using Nat.strongRecOn generalizing s cs with
  | _ n ih =>
    subst hn
    cases hlook : s.look cs with
    | stop kind => exact stop s cs kind hlook
    | skip s' rest =>
      obtain ⟨w, hne, hcs⟩ := (gapText_of_look hlook).exists_append
      exact skip s cs s' rest hlook (ih _ (length_lt_of_append hne hcs) s' rest rfl)
    | lineSemi rest =>
      obtain ⟨w, hne, hcs⟩ := (lineEnd_of_look hlook).exists_append
      exact lineSemi s cs rest hlook (ih _ (length_lt_of_append hne hcs) _ rest rfl)
    | token kind retry rest =>
      obtain ⟨w, hne, hcs⟩ := (tokenText_of_look hlook).exists_append
      exact token s cs kind retry rest hlook (ih _ (length_lt_of_append hne hcs) _ rest rfl)

/-- The bound makes no difference if it is large enough. -/
theorem tokensFrom_eq_tokens {fuel : Nat} (h : cs.length < fuel) :
    tokensFrom fuel s cs = s.tokens cs := by
  induction hn : cs.length using Nat.strongRecOn generalizing s cs fuel with
  | _ n ih =>
    subst hn
    obtain ⟨fuel, rfl⟩ := Nat.exists_eq_succ_of_ne_zero (Nat.ne_zero_of_lt h)
    have hagain : ∀ {s' : LexState} {rest : List Char}, (∃ w, w ≠ [] ∧ cs = w ++ rest) →
        tokensFrom fuel s' rest = tokensFrom cs.length s' rest := by
      rintro s' rest ⟨w, hne, hcs⟩
      have hlt := length_lt_of_append hne hcs
      rw [ih _ hlt (by omega) rfl, ih _ hlt hlt rfl]
    rw [LexState.tokens, tokensFrom, tokensFrom]
    cases hlook : s.look cs with
    | stop kind => rfl
    | skip s' rest => exact hagain (gapText_of_look hlook).exists_append
    | lineSemi rest => exact congrArg _ (hagain (lineEnd_of_look hlook).exists_append)
    | token kind retry rest => exact congrArg _ (hagain (tokenText_of_look hlook).exists_append)

theorem tokens_stop (h : s.look cs = .stop kind) :
    s.tokens cs = [⟨kind, s.gap == .lineEnd, none⟩] := by
  rw [LexState.tokens, tokensFrom, h]

theorem tokens_skip (h : s.look cs = .skip s' rest) : s.tokens cs = s'.tokens rest := by
  obtain ⟨w, hne, hcs⟩ := (gapText_of_look h).exists_append
  rw [LexState.tokens, tokensFrom, h]
  exact tokensFrom_eq_tokens (length_lt_of_append hne hcs)

theorem tokens_lineSemi (h : s.look cs = .lineSemi rest) :
    s.tokens cs = ⟨.lineSemi, false, none⟩ :: (s.withGap .lineEnd).tokens rest := by
  obtain ⟨w, hne, hcs⟩ := (lineEnd_of_look h).exists_append
  rw [LexState.tokens, tokensFrom, h]
  exact congrArg _ (tokensFrom_eq_tokens (length_lt_of_append hne hcs))

theorem tokens_token (h : s.look cs = .token kind retry rest) :
    s.tokens cs = ⟨kind, s.gap == .lineEnd, retry⟩ :: (s.after kind).tokens rest := by
  obtain ⟨w, hne, hcs⟩ := (tokenText_of_look h).exists_append
  rw [LexState.tokens, tokensFrom, h]
  exact congrArg _ (tokensFrom_eq_tokens (length_lt_of_append hne hcs))

theorem tokens_ne_nil (s : LexState) (cs : List Char) : s.tokens cs ≠ [] := by
  induction s, cs using LexState.look_induction with
  | stop s cs kind hlook =>
    rw [tokens_stop hlook]
    nofun
  | skip s cs s' rest hlook ih =>
    rw [tokens_skip hlook]
    exact ih
  | lineSemi s cs rest hlook =>
    rw [tokens_lineSemi hlook]
    nofun
  | token s cs kind retry rest hlook =>
    rw [tokens_token hlook]
    nofun

@[simp] theorem previous_after (s : LexState) (kind : TokenKind) :
    (s.after kind).previous = some kind := by
  unfold LexState.after
  dsimp only
  split <;> rfl

end

end Espalier.Script
