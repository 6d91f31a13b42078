import Espalier.Proofs.Script.Locality
import Espalier.Proofs.Script.Nesting
import Espalier.Proofs.Script.Transitions

/-!
# Lines of code inside a text

A line that is read on its own has the same tokens wherever it stands, if it neither begins nor ends
with anything that depends on its neighbours: `Passage` says of a text that it has its tokens
anywhere. `isLine` checks a line for its tokens. Main statements: `passage_of_isLine`, and
`passage_of_named`, by which another name may be put at the start of the line.
-/

namespace Espalier.Script

open Espalier.Text

/-! ## The check -/

/-- Whether tokens stand for these kinds. -/
def spellsAll (ambiguous : Bool) : List Token → List TokenKind → Bool
  | ts, [] => ts.isEmpty
  | [], _ :: _ => false
  | t :: ts, kind :: kinds =>
    t.kind == kind && spellsAll t.kind.isAmbiguous ts kinds ||
      ambiguous && t.kind == .mark (.binary .div) &&
        match t.retry.bind Retry.regex? with
        | some (text, more) => kind == .regex text && spellsAll false more kinds
        | none => false
termination_by structural _ kinds => kinds

theorem spells_of_spellsAll {ambiguous : Bool} {ts : List Token} {kinds : List TokenKind}
    (h : spellsAll ambiguous ts kinds = true) : Spells ambiguous ts kinds := by
  induction kinds generalizing ambiguous ts with
  | nil =>
    rw [spellsAll, List.isEmpty_iff] at h
    rw [h]
    exact .nil ambiguous
  | cons kind kinds ih =>
    cases ts with
    | nil => cases h
    | cons t ts =>
      rw [spellsAll, Bool.or_eq_true] at h
      obtain h | h := h
      · obtain ⟨hkind, hrest⟩ := Bool.and_eq_true_iff.1 h
        rw [← eq_of_beq hkind]
        exact .token t (ih hrest)
      · obtain ⟨hambiguous, hagain⟩ := Bool.and_eq_true_iff.1 h
        obtain ⟨rfl, hslash⟩ := Bool.and_eq_true_iff.1 hambiguous
        cases hretry : t.retry.bind Retry.regex? with
        | none =>
          rw [hretry] at hagain
          cases hagain
        | some found =>
          rw [hretry] at hagain
          obtain ⟨hkind, hrest⟩ := Bool.and_eq_true_iff.1 hagain
          rw [eq_of_beq hkind]
          exact .regex (eq_of_beq hslash) hretry (ih hrest)

theorem Spells.of_false {ambiguous : Bool} {ts : List Token} {kinds : List TokenKind}
    (h : Spells false ts kinds) : Spells ambiguous ts kinds := by
  cases h with
  | nil => exact .nil ambiguous
  | token t rest => exact .token t rest

theorem Spells.ne_nil {ambiguous : Bool} {ts : List Token} {ks : List TokenKind} {kind : TokenKind}
    (h : Spells ambiguous ts (ks ++ [kind])) : ts ≠ [] := by
  rintro rfl
  cases ks <;> cases h

/-- The end of a text stands for nothing else. -/
theorem Spells.of_singleton {ambiguous : Bool} {t : Token} {ks : List TokenKind}
    (h : Spells ambiguous [t] (ks ++ [.eof])) (hslash : t.kind ≠ .mark (.binary .div)) :
    ks = [] ∧ t.kind = .eof := by
  cases ks with
  | nil =>
    obtain ⟨_, _, ⟨⟩, hkind, -⟩ := h.cons rfl
    exact ⟨rfl, hkind⟩
  | cons kind ks =>
    cases h with
    | token t hnone => exact absurd rfl hnone.ne_nil
    | regex hkind => exact absurd hkind hslash

/-- A token that cannot be read again stands for itself. -/
theorem Spells.of_cons {ambiguous : Bool} {t : Token} {ts : List Token} {ks : List TokenKind}
    (h : Spells ambiguous (t :: ts) (ks ++ [.eof])) (hts : ts ≠ [])
    (hretry : ambiguous = true → t.retry = none) :
    ∃ left, ks = t.kind :: left ∧ Spells t.kind.isAmbiguous ts (left ++ [.eof]) := by
  cases ks with
  | nil =>
    obtain ⟨_, _, ⟨⟩, -, hrest⟩ := h.cons rfl
    cases hrest
    exact absurd rfl hts
  | cons kind ks =>
    cases h with
    | token t hleft => exact ⟨ks, rfl, hleft⟩
    | regex _ hagain =>
      rw [hretry rfl] at hagain
      cases hagain

/-- Nothing stands behind a name at the end of a line. -/
theorem Spells.nil_of_newline {ambiguous : Bool} {s : LexState} {id : String} {ks : List TokenKind}
    (h : Spells ambiguous ((s.after (.name id)).tokens ['\n']) (ks ++ [.eof])) : ks = [] := by
  have hskip : (s.after (.name id)).look ['\n'] = .skip _ [] := rfl
  rw [tokens_skip hskip, tokens_nil] at h
  exact (h.of_singleton nofun).1

theorem readRegex_ne_nil {cs : List Char} {part : Part} (h : readRegex cs = some part) :
    part.1 ≠ [] := by
  unfold readRegex at h
  split at h
  case h_2 => cases h
  case h_1 =>
    split at h
    case isTrue => cases h
    case isFalse =>
      obtain ⟨inner, -, rfl⟩ := Option.map_eq_some_iff.1 h
      exact List.cons_ne_nil _ _

/-- A slash in a text that ends with a line end begins the same regular expression with more text
behind it. -/
theorem Retry.regex?_append {cs : List Char} (h : Lined cs) (w : List Char) (s' : LexState)
    {text after : List Char} (hread : readRegex cs = some (text, after)) :
    (some (⟨s', cs ++ w⟩ : Retry)).bind Retry.regex? = some (String.ofList text,
      (s'.after (.regex (String.ofList text))).tokens (after ++ w)) := by
  obtain ⟨part', hread', hgrows⟩ := h.readRegex w hread
  show (readRegex (cs ++ w)).map _ = _
  rw [hread', hgrows.eq]
  rfl

section
variable {w : List Char} {more : List TokenKind}

/-- The tokens of a text stand for the same with more text behind it. -/
theorem Spells.within (hmore : ∀ s : LexState, Spells false (s.tokens w) more) {s s' : LexState}
    {cs : List Char} (h : cs = [] ∨ Lined cs) {due due' : List Mark} (hs : Resembles due s s')
    {ambiguous : Bool} {ks : List TokenKind} (hcross : crossAll due ks = some due')
    (hlast : ∀ front kind, ks = front ++ [kind] → kind.leadsOn = false)
    (hspells : Spells ambiguous (s.tokens cs) (ks ++ [.eof])) :
    Spells ambiguous (s'.tokens (cs ++ w)) (ks ++ more) := by
  induction hn : cs.length using Nat.strongRecOn generalizing s s' cs due ambiguous ks with
  | _ n ih =>
  subst hn
  -- what follows the first step is shorter
  have hrest : ∀ {x rest : List Char} {t t' : LexState} {due₁ : List Mark} {found : Bool}
      {left : List TokenKind}, x ≠ [] → cs = x ++ rest → Resembles due₁ t t' →
      crossAll due₁ left = some due' →
      (∀ front kind, left = front ++ [kind] → kind.leadsOn = false) →
      Spells found (t.tokens rest) (left ++ [.eof]) →
      Spells found (t'.tokens (rest ++ w)) (left ++ more) := by
    rintro x rest t t' due₁ found left hx rfl ht hleft hends hfound
    refine ih _ (length_lt_of_append hx rfl) ?_ ht hleft hends hfound rfl
    obtain hnil | hlined := h
    · exact .inl (List.append_eq_nil_iff.1 hnil).2
    · exact hlined.of_append
  have hbehind : ∀ {first : TokenKind} {left : List TokenKind}, ks = first :: left →
      ∀ front kind, left = front ++ [kind] → kind.leadsOn = false := by
    rintro first left rfl front kind rfl
    exact hlast (first :: front) kind rfl
  obtain rfl | h := h
  · rw [tokens_nil] at hspells
    obtain ⟨rfl, -⟩ := hspells.of_singleton nofun
    exact (hmore s').of_false
  have hgrows := h.look (w := w) hs
  cases hlook : s.look cs with
  | stop kind =>
    rw [tokens_stop hlook] at hspells
    obtain ⟨-, rfl⟩ | rfl := stop_of_look hlook
    · exact absurd rfl h.ne_nil
    · cases (hspells.of_singleton nofun).2
  | skip t rest =>
    rw [hlook] at hgrows
    generalize hlook' : s'.look (cs ++ w) = found at hgrows
    cases hgrows with
    | @skip _ t' _ ht =>
      rw [tokens_skip hlook] at hspells
      rw [tokens_skip hlook']
      obtain ⟨x, hx, hcs⟩ := (gapText_of_look hlook).exists_append
      exact hrest hx hcs ht hcross hlast hspells
  | lineSemi rest =>
    rw [hlook] at hgrows
    generalize hlook' : s'.look (cs ++ w) = found at hgrows
    cases hgrows with
    | lineSemi =>
      rw [tokens_lineSemi hlook] at hspells
      rw [tokens_lineSemi hlook']
      obtain ⟨x, hx, hcs⟩ := (lineEnd_of_look hlook).exists_append
      obtain ⟨left, rfl, hleft⟩ := hspells.of_cons (tokens_ne_nil _ _) fun _ => rfl
      refine .token ⟨.lineSemi, false, none⟩ ?_
      exact hrest hx hcs (hs.withGap .lineEnd) hcross (hbehind rfl) hleft
  | token kind retry rest =>
    rw [hlook] at hgrows
    generalize hlook' : s'.look (cs ++ w) = found at hgrows
    rw [tokens_token hlook] at hspells
    obtain ⟨x, hx, hcs⟩ := (tokenText_of_look hlook).exists_append
    -- the token is passed
    have hpass : ∀ {left : List TokenKind} {retry' : Option Retry}, ks = kind :: left →
        Spells kind.isAmbiguous ((s.after kind).tokens rest) (left ++ [.eof]) →
        Spells ambiguous (⟨kind, s'.gap == .lineEnd, retry'⟩ :: (s'.after kind).tokens (rest ++ w))
          (ks ++ more) := by
      rintro left retry' rfl hleft
      obtain ⟨due₁, hfirst, hcross⟩ := Option.bind_eq_some_iff.1 hcross
      refine .token ⟨kind, s'.gap == .lineEnd, retry'⟩ ?_
      exact hrest hx hcs (hs.after hfirst) hcross (hbehind rfl) hleft
    cases hgrows with
    | lastName id =>
      obtain ⟨left, rfl, hleft⟩ := hspells.of_cons (tokens_ne_nil _ _) fun _ => rfl
      cases hleft.nil_of_newline
      cases hlast [] _ rfl
    | slash m =>
      rw [tokens_token hlook']
      cases ks with
      | nil =>
        obtain ⟨_, _, heq, hkind, -⟩ := hspells.cons rfl
        cases heq
        cases hkind
      | cons first left =>
        cases hspells with
        | token t hleft => exact hpass rfl hleft
        | regex hslash hretry hleft =>
          obtain ⟨⟨text, after⟩, hread, heq⟩ := Option.map_eq_some_iff.1 hretry
          cases heq
          refine .regex hslash (Retry.regex?_append h w s' hread) ?_
          exact hrest (readRegex_ne_nil hread) (readRegex_append hread).symm (hs.after rfl) hcross
            (hbehind rfl) hleft
    | token =>
      rw [tokens_token hlook']
      obtain ⟨left, hks, hleft⟩ := hspells.of_cons (tokens_ne_nil _ _) fun _ => rfl
      exact hpass hks hleft

/-! ## The first token -/

/-- The character begins a token that does not depend on what stands before it. -/
def startsToken (c : Char) : Bool :=
  c != '/' && c != '.' && c != '\n' && c != '\r' && !isSpace c

omit w more in
theorem startsToken_iff {c : Char} : startsToken c = true ↔
    c ≠ '/' ∧ c ≠ '.' ∧ c ≠ '\n' ∧ c ≠ '\r' ∧ isSpace c = false := by
  simp only [startsToken, Bool.and_eq_true, bne_iff_ne, Bool.not_eq_true', and_assoc]

omit w more in
theorem look_eq_of_startsToken {c : Char} (hc : startsToken c = true) {cs : List Char}
    (hcs : cs ≠ []) (s s' : LexState) : s'.look (c :: cs) = s.look (c :: cs) := by
  obtain ⟨hslash, hdot, hnewline, hreturn, hspace⟩ := startsToken_iff.1 hc
  obtain _ | ⟨d, rest⟩ := cs
  · exact absurd rfl hcs
  have hline : ¬(c = '\r' ∧ d = '\n') := fun hline => hreturn hline.1
  have hcomment : ¬(c = '/' ∧ (d = '/' ∨ d = '*')) := fun hcomment => hslash hcomment.1
  rw [look_cons_cons s hline hcomment hdot, look_cons_cons s' hline hcomment hdot]
  simp only [hnewline, hreturn, hspace, hslash, or_self, if_false, Bool.false_eq_true]

omit w more in
/-- The lexer passes nothing before a first token. -/
theorem stop_or_token_of_startsToken {c : Char} (hc : startsToken c = true) (s : LexState)
    (cs : List Char) : s.look (c :: cs) = .stop .invalid ∨
      ∃ kind retry rest, s.look (c :: cs) = .token kind retry rest := by
  obtain ⟨hslash, -, hnewline, hreturn, hspace⟩ := startsToken_iff.1 hc
  have hline : ∀ {rest : List Char}, ¬LineEnd (c :: cs) rest := by
    rintro rest ⟨⟩
    · exact hnewline rfl
    · exact hreturn rfl
    · exact hreturn rfl
  cases hlook : s.look (c :: cs) with
  | stop kind =>
    obtain ⟨-, hnil⟩ | rfl := stop_of_look hlook
    · cases hnil
    · exact .inl rfl
  | skip t rest =>
    cases gapText_of_look hlook with
    | space hblank => exact absurd hblank (Bool.eq_false_iff.1 hspace)
    | lineEnd hends => exact absurd hends hline
    | blockComment | lineComment => exact absurd rfl hslash
  | lineSemi rest => exact absurd (lineEnd_of_look hlook) hline
  | token kind retry rest => exact .inr ⟨kind, retry, rest, rfl⟩

/-- Behind a first token it makes no difference what stood before it. -/
theorem resembles_after {s s' : LexState} {kind : TokenKind} {due : List Mark}
    (hparens : s.parens = []) (hcross : kind.cross [] = some due)
    (hhead : kind = .mark .lparen → (s'.gap == .token && s'.previous.any (·.opensHead))
      = (s.gap == .token && s.previous.any (·.opensHead))) :
    Resembles due (s.after kind) (s'.after kind) := by
  have houter : s'.parens = s.parens ++ s'.parens := by rw [hparens, List.nil_append]
  have hother : (∀ s : LexState, s.after kind = { s.withGap .token with previous := some kind }) →
      kind ≠ .mark .rparen → due.count .rparen = 0 → Resembles due (s.after kind) (s'.after kind) :=
    fun hafter hne hcount => by
      rw [hafter, hafter]
      exact ⟨rfl, rfl, rfl, ⟨s'.parens, houter⟩, (congrArg List.length hparens).trans hcount.symm,
        fun hprevious => absurd (Option.some.inj hprevious) hne⟩
  cases kind with
  | mark m =>
    cases m with
    | lparen =>
      cases hcross
      exact ⟨rfl, rfl, rfl, ⟨s'.parens, by simp only [LexState.after, hparens, hhead rfl]; rfl⟩,
        by simp [LexState.after, hparens], by rintro ⟨⟩⟩
    | rparen | rbrace | rbracket => cases hcross
    | lbrace | lbracket =>
      cases hcross
      exact hother (fun _ => rfl) (by rintro ⟨⟩) rfl
    | _ =>
      cases hcross
      exact hother (fun _ => rfl) (by rintro ⟨⟩) rfl
  | _ =>
    cases hcross
    exact hother (fun _ => rfl) (by rintro ⟨⟩) rfl

/-- `Spells.within` at the start of a line, where other states make no difference either. -/
theorem Spells.within_start (hmore : ∀ s : LexState, Spells false (s.tokens w) more)
    {s s' : LexState} {c : Char} {cs : List Char} (hc : startsToken c = true) (h : Lined (c :: cs))
    (hparens : s.parens = []) {ks : List TokenKind} {due : List Mark}
    (hcross : crossAll [] ks = some due)
    (hlast : ∀ front kind, ks = front ++ [kind] → kind.leadsOn = false)
    (hhead : ks.head? = some (.mark .lparen) → (s'.gap == .token && s'.previous.any (·.opensHead))
      = (s.gap == .token && s.previous.any (·.opensHead)))
    (hspells : Spells false (s.tokens (c :: cs)) (ks ++ [.eof])) :
    Spells false (s'.tokens (c :: cs ++ w)) (ks ++ more) := by
  have hnonempty : cs ≠ [] := by
    obtain ⟨rfl, -⟩ | hcs := h.tail
    · cases hc
    · exact hcs.ne_nil
  obtain hlook | ⟨kind, retry, rest, hlook⟩ := stop_or_token_of_startsToken hc s cs
  · rw [tokens_stop hlook] at hspells
    cases (hspells.of_singleton nofun).2
  have hrest : rest = [] ∨ Lined rest := h.of_token hlook
  rw [tokens_token hlook] at hspells
  obtain ⟨left, rfl, hleft⟩ := hspells.of_cons (tokens_ne_nil _ _) (by rintro ⟨⟩)
  obtain ⟨due₁, hfirst, hcross⟩ := Option.bind_eq_some_iff.1 hcross
  have hafter := resembles_after hparens hfirst fun hkind => hhead (congrArg some hkind)
  have hwithin := hleft.within hmore hrest hafter hcross fun front kind' heq =>
    hlast (kind :: front) kind' (congrArg _ heq)
  have hsame : s'.look (c :: cs ++ w) = s.look (c :: cs ++ w) :=
    look_eq_of_startsToken hc (List.append_ne_nil_of_left_ne_nil hnonempty w) s s'
  have hself : Resembles [] s s :=
    ⟨rfl, rfl, rfl, ⟨[], (List.append_nil _).symm⟩, congrArg List.length hparens, fun _ => rfl⟩
  have hgrows := h.look (w := w) hself
  rw [hlook] at hgrows
  rw [← hsame] at hgrows
  generalize hlook' : s'.look (c :: cs ++ w) = found at hgrows
  cases hgrows with
  | lastName id =>
    cases hleft.nil_of_newline
    cases hlast [] _ rfl
  | slash m =>
    rw [tokens_token hlook']
    exact .token _ hwithin
  | token =>
    rw [tokens_token hlook']
    exact .token _ hwithin

end

/-! ## Passages -/

/-- The text has these tokens wherever it stands, whatever follows. -/
def Passage (text : List Char) (ks : List TokenKind) : Prop :=
  ∀ (w : List Char) (more : List TokenKind), (∀ s : LexState, Spells false (s.tokens w) more) →
    ∀ s : LexState, Spells false (s.tokens (text ++ w)) (ks ++ more)

theorem Passage.nil : Passage [] [] :=
  fun _ _ hmore => hmore

theorem Passage.append {a b : List Char} {ks ks' : List TokenKind} (ha : Passage a ks)
    (hb : Passage b ks') : Passage (a ++ b) (ks ++ ks') := by
  intro w more hmore s
  rw [List.append_assoc, List.append_assoc]
  exact ha _ _ (hb w more hmore) s

section
variable {cs : List Char} {ks : List TokenKind}

theorem Passage.mark (h : Passage cs ks) {m : Mark} (hm : m.isPlain = true) :
    Passage (m.text.toList ++ cs) (.mark m :: ks) := by
  intro w more hmore s
  rw [List.append_assoc, tokens_token (look_plainMark s hm _)]
  exact .token _ (h w more hmore _).of_false

theorem Passage.blank (h : Passage cs ks) : Passage (' ' :: cs) ks := by
  intro w more hmore s
  rw [List.cons_append, tokens_skip (look_blank s _)]
  exact h w more hmore s

theorem Passage.word {c : Char} (h : Passage (c :: cs) ks) {text : String} (htext : IsWord text)
    (hstart : isNameStart c = false) (hpart : isNamePart c = false)
    (hblank : text = "get" ∨ text = "set" → isBlank c = false) :
    Passage (text.toList ++ c :: cs) (wordToken text :: ks) := by
  intro w more hmore s
  rw [List.append_assoc, List.cons_append,
    tokens_token (look_word s htext hstart hpart hblank _)]
  exact .token _ (h w more hmore _).of_false

end

/-- A mark at the end of a line. -/
theorem passage_markLine {m : Mark} (hm : m.isPlain = true) :
    Passage (m.text.toList ++ ['\n']) [.mark m] := by
  intro w more hmore s
  rw [List.append_assoc, tokens_token (look_plainMark s hm _),
    List.singleton_append, tokens_skip (look_line _ (.after rfl) _)]
  exact .token _ (hmore _).of_false

/-- A comment that the lexer passes up to a line end. -/
theorem passage_of_skip {text : List Char}
    (h : ∀ (s : LexState) rest, s.look (text ++ rest) = .skip (s.withGap .comment) ('\n' :: rest)) :
    Passage text [] := by
  intro w more hmore s
  have hcalm : (s.withGap .comment).Calm := fun hjump => by cases hjump.1
  rw [tokens_skip (h s w), tokens_skip (look_line _ hcalm w)]
  exact hmore _

theorem passage_lineComment {text : List Char} (h : text.all (!endsLine ·) = true) :
    Passage ('/' :: '/' :: (text ++ ['\n'])) [] := by
  refine passage_of_skip fun s rest => ?_
  show Lexed.skip _ ((text ++ ['\n'] ++ rest).dropWhile (!endsLine ·)) = _
  rw [List.append_assoc, List.dropWhile_append_of_pos (List.all_eq_true.1 h)]
  rfl

/-! ## Lines -/

/-- Whether the text is a line, or several, with these tokens, and has the same tokens wherever it
stands: it begins with no slash and no parenthesis, ends with no name and closes no bracket that is
opened before it. -/
def isLine (text : List Char) (ks : List TokenKind) : Bool :=
  text.head?.any startsToken && text.getLast? == some '\n' && ks.head? != some (.mark .lparen) &&
    ks.getLast?.all (!·.leadsOn) && (crossAll [] ks).isSome &&
    spellsAll false (({} : LexState).tokens text) (ks ++ [.eof])

/-- What `isLine` checks. -/
structure Line (c : Char) (cs : List Char) (ks : List TokenKind) : Prop where
  start : startsToken c = true
  lined : Lined (c :: cs)
  head : ks.head? ≠ some (.mark .lparen)
  last : ∀ front kind, ks = front ++ [kind] → kind.leadsOn = false
  closed : ∃ due, crossAll [] ks = some due
  spells : Spells false (({} : LexState).tokens (c :: cs)) (ks ++ [.eof])

theorem line_of_isLine {text : List Char} {ks : List TokenKind} (h : isLine text ks = true) :
    ∃ c cs, text = c :: cs ∧ Line c cs ks := by
  simp only [isLine, Bool.and_eq_true, beq_iff_eq, bne_iff_ne] at h
  obtain ⟨⟨⟨⟨⟨hstart, hline⟩, hhead⟩, hlast⟩, hcross⟩, hspells⟩ := h
  cases text with
  | nil => cases hstart
  | cons c cs =>
    refine ⟨c, cs, rfl, hstart, List.getLast?_eq_some_iff.1 hline, hhead, ?_,
      Option.isSome_iff_exists.1 hcross, spells_of_spellsAll hspells⟩
    rintro front kind rfl
    rw [List.getLast?_concat, Option.all_some, Bool.not_eq_true'] at hlast
    exact hlast

theorem passage_of_isLine {text : List Char} {ks : List TokenKind} (h : isLine text ks = true) :
    Passage text ks := by
  obtain ⟨c, cs, rfl, hline⟩ := line_of_isLine h
  obtain ⟨due, hcross⟩ := hline.closed
  intro w more hmore s
  exact hline.spells.within_start hmore hline.start hline.lined rfl hcross hline.last
    fun hhead => absurd hhead hline.head

/-- Another name may stand at the start of a line. -/
theorem passage_of_named {c : Char} {cs : List Char} {ks : List TokenKind}
    (h : isLine ('f' :: c :: cs) (.name "f" :: ks) = true) (hc : c = '(' ∨ c = '=') {id : String}
    (hid : IsWord id) (htoken : wordToken id = .name id) :
    Passage (id.toList ++ c :: cs) (.name id :: ks) := by
  obtain ⟨_, _, ⟨⟩, hline⟩ := line_of_isLine h
  obtain ⟨due, hcross⟩ := hline.closed
  have hname : isNameStart c = false ∧ isNamePart c = false ∧ isBlank c = false := by
    obtain rfl | rfl := hc <;> decide
  have hlined : Lined (c :: cs) := hline.lined.tail.resolve_left nofun
  have hlook : ∀ (s : LexState) {text : String}, IsWord text → ∀ rest,
      s.look (text.toList ++ c :: rest) = .token (wordToken text) none (c :: rest) :=
    fun s _ htext => look_word s htext hname.1 hname.2.1 fun _ => hname.2.2
  have hf : IsWord "f" := by decide
  have hfirst : ({} : LexState).look ('f' :: c :: cs) = .token (.name "f") none (c :: cs) :=
    hlook {} hf cs
  have hspells := hline.spells
  rw [tokens_token hfirst] at hspells
  obtain ⟨_, _, heq, -, hrest⟩ := hspells.cons rfl
  cases heq
  have hc : startsToken c = true := by obtain rfl | rfl := hc <;> decide
  have hlast : ∀ front kind, ks = front ++ [kind] → kind.leadsOn = false := by
    rintro front kind rfl
    exact hline.last (.name "f" :: front) kind rfl
  have hcross : crossAll [] ks = some due := hcross
  have hbehind :
      Spells false ((({} : LexState).after (.name "f")).tokens (c :: cs)) (ks ++ [.eof]) := hrest
  intro w more hmore s
  have hwithin := @Spells.within_start w more hmore (({} : LexState).after (.name "f"))
    (s.after (.name id)) c cs hc hlined rfl ks due hcross hlast (fun _ => rfl) hbehind
  rw [List.append_assoc, List.cons_append, tokens_token (hlook s hid _), htoken]
  exact .token _ hwithin

end Espalier.Script
