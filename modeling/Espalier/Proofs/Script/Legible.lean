import Espalier.Proofs.Scan.Tokens
import Espalier.Proofs.Script.Literals

/-!
# Legible programs

Printed text is read token by token as it was meant, unless two tokens run into each other or a
slash stands where the lexer expects the other one. `TokenKind.clashes` names the pairs of tokens
that a style does not keep apart, `LexState.takes` the places of slashes, and `LexState.legible`
says that none of this happens in a sequence of tokens. What a style has to keep to for the rest is
`Style.Careful`; the pretty style of any width and the minified style do. Main statement:
`Laid.spells`, by which the printed text of a legible stream stands for the tokens of the stream.
-/

namespace Espalier.Script

open Espalier.Text

/-! ## Pairs of tokens -/

/-- An optional blank behind the token keeps it apart from a word. -/
def TokenKind.joinsWord (kind : TokenKind) : Bool :=
  kind.text.toList.getLast?.any fun c => Text.isWord c || c == '$'

/-- The dot of a field would belong to the number before it. -/
def TokenKind.takesDot : TokenKind → TokenKind → Bool
  | .number text, .mark .dot => !endsBeforeDot text.toList
  | _, _ => false

/-- The name would introduce an accessor. -/
def TokenKind.introduces : TokenKind → TokenKind → Bool
  | .name id, next => (id == "get" || id == "set") && (next.isWord || next.isAccessor)
  | _, _ => false

/-- The line that ends behind a jump before a brace would end a statement. -/
def TokenKind.jumps (kind next : TokenKind) : Bool :=
  kind.endsAtLine && next == .mark .rbrace

/-- The word that follows would belong to the name or to the flags of a regular expression. -/
def TokenKind.takesWord (kind next : TokenKind) : Bool :=
  (kind.isWord || kind.isRegex) && next.isWord && !kind.joinsWord

/-- The slashes of a division and of a regular expression would begin a comment. -/
def TokenKind.comments : TokenKind → TokenKind → Bool
  | .mark (.binary .div), next => next.isRegex
  | _, _ => false

/-- The style does not keep the tokens apart. -/
def TokenKind.clashes (minified : Bool) (kind next : TokenKind) : Bool :=
  kind.takesDot next || kind.introduces next ||
    if minified then kind.takesWord next || kind.comments next else kind.jumps next

/-! ## Places of slashes -/

/-- The lexer finds the token here: it takes a slash for what it is, or keeps the way to read a
regular expression instead of a division. -/
def LexState.takes (s : LexState) : TokenKind → Bool
  | .mark (.binary .div) | .mark (.assign .div) => s.endsOperand
  | .regex text =>
    !s.endsOperand || (s.previous.any (·.isAmbiguous) && text.toList[1]? != some '=')
  | _ => true

/-- The style keeps the spelling of the token. -/
def TokenKind.isKept (minified : Bool) : TokenKind → Bool
  | .string text => !minified || Minified.joinLines text.toList == text.toList
  | _ => true

/-- Tokens printed in the style are read as such from the state on. -/
def LexState.legible (minified : Bool) (s : LexState) : List TokenKind → Bool
  | [] => true
  | kind :: ks =>
    s.previous.all (!·.clashes minified kind) && s.takes kind && kind.isKept minified
      && (s.after kind).legible minified ks

/-- The state after several tokens. -/
def LexState.follow (s : LexState) (ks : List TokenKind) : LexState :=
  ks.foldl LexState.after s

/-- A slash may divide or begin a regular expression. -/
def LexState.isAmbiguous (s : LexState) : Bool :=
  s.previous.any (·.isAmbiguous)

/-- The state is that directly after a token. -/
structure LexState.Fresh (s : LexState) : Prop where
  gap : s.gap = .token
  narrow : s.wideSpace = false

section
variable {s f : LexState} {kind : TokenKind} {minified : Bool}

theorem fresh_after (s : LexState) (kind : TokenKind) : (s.after kind).Fresh := by
  unfold LexState.after
  dsimp only
  split <;> exact ⟨rfl, rfl⟩

theorem isAmbiguous_after (s : LexState) (kind : TokenKind) :
    (s.after kind).isAmbiguous = kind.isAmbiguous := by
  rw [LexState.isAmbiguous, previous_after]
  rfl

theorem LexState.Fresh.follow (h : s.Fresh) (ks : List TokenKind) : (s.follow ks).Fresh := by
  induction ks generalizing s with
  | nil => exact h
  | cons kind ks ih => exact ih (fresh_after s kind)

theorem LexState.follow_append (s : LexState) (ks more : List TokenKind) :
    s.follow (ks ++ more) = (s.follow ks).follow more :=
  List.foldl_append

theorem LexState.legible_append (s : LexState) (ks more : List TokenKind) :
    s.legible minified (ks ++ more)
      = (s.legible minified ks && (s.follow ks).legible minified more) := by
  induction ks generalizing s with
  | nil => rfl
  | cons kind ks ih =>
    rw [List.cons_append, legible, legible, ih, ← Bool.and_assoc]
    rfl

/-- A line end matters only to parentheses. -/
theorem after_withGap (h : kind ≠ .mark .lparen) (gap : Gap) :
    (s.withGap gap).after kind = s.after kind := by
  unfold LexState.after
  dsimp only
  split
  · exact absurd rfl h
  · rfl
  · rfl

/-- The state before a text: what stands between the text and the token before it is read, and a
line may have ended there. -/
def LexState.Behind (s f : LexState) : Prop :=
  s = f ∨ s = f.withGap .lineEnd

theorem LexState.Behind.previous (h : s.Behind f) : s.previous = f.previous := by
  obtain rfl | rfl := h <;> rfl

theorem LexState.Behind.isAmbiguous (h : s.Behind f) : s.isAmbiguous = f.isAmbiguous := by
  rw [LexState.isAmbiguous, h.previous, LexState.isAmbiguous]

/-- The token is read in the same way behind a line end. -/
def LexState.Steady (f : LexState) (kind : TokenKind) : Prop :=
  kind = .mark .rbrace ∨ ∀ before ∈ f.previous, before ≠ .mark .rparen ∧ before.opensHead = false

theorem LexState.Behind.after (h : s.Behind f) (hsteady : s = f ∨ f.Steady kind) (hf : f.Fresh) :
    s.after kind = f.after kind := by
  obtain rfl | rfl := h
  · rfl
  by_cases hparen : kind = .mark .lparen
  · subst hparen
    obtain heq | hbrace | hsteady := hsteady
    · rw [heq]
    · cases hbrace
    · have hhead : f.previous.any (·.opensHead) = false := by
        cases hprevious : f.previous with
        | none => rfl
        | some before => exact (hsteady before hprevious).2
      have hgap : (f.withGap .lineEnd).gap = .lineEnd := rfl
      simp only [LexState.after, LexState.withGap, hhead, Bool.and_false, hf.gap]
  · exact after_withGap hparen _

theorem LexState.Behind.divides (h : s.Behind f) (hsteady : s = f ∨ f.Steady kind) (hf : f.Fresh)
    (hslash : kind.isSlash = true) : s.divides = f.endsOperand := by
  obtain rfl | rfl := h
  · rw [LexState.divides, hf.narrow, Bool.false_or]
  obtain heq | rfl | hsteady := hsteady
  · rw [heq, LexState.divides, hf.narrow, Bool.false_or]
  · cases hslash
  · have hprevious : (f.withGap .lineEnd).previous = f.previous := rfl
    show (false || (f.withGap .lineEnd).endsOperand) = _
    rw [Bool.false_or, LexState.endsOperand, LexState.endsOperand, hprevious]
    split
    · exact absurd rfl (hsteady _ ‹_›).1
    · rfl
    · rfl

/-! ## Single tokens -/

/-- The first character behind the slash of a division. -/
theorem slash_of_ends {m : Mark} (hm : m.isSlash = true) {w : List Char}
    (hends : (TokenKind.mark m).Ends w) :
    ∃ c rest, w = c :: rest ∧ m.grows c = false ∧
      ∀ s : LexState, s.look (m.text.toList ++ w) = s.slash (m.text.toList ++ w) := by
  cases w with
  | nil =>
    have hopen : (TokenKind.mark m).isOpen = true := hends
    cases m with
    | binary | assign => cases hopen
    | _ => cases hm
  | cons c rest =>
    have hstops := hends.1
    simp only [TokenKind.stops, Bool.and_eq_true, Bool.not_eq_true'] at hstops
    refine ⟨c, rest, rfl, hstops.1.1, fun s => ?_⟩
    cases m with
    | binary op =>
      cases op with
      | div =>
        have hc : c ≠ '/' ∧ c ≠ '*' := by simpa using hstops.2
        exact look_slash s hc.1 hc.2 rest
      | _ => cases hm
    | assign op =>
      cases op with
      | div => exact look_slash s (by decide) (by decide) _
      | _ => cases hm
    | _ => cases hm

/-- A token that ends where it stands, with the tokens of the rest behind it. -/
theorem spells_text (hs : s.Behind f) (hf : f.Fresh) (hsteady : s = f ∨ f.Steady kind)
    (hsound : kind.Sound) (htakes : f.takes kind = true) {w : List Char} (hends : kind.Ends w)
    {ks : List TokenKind}
    (hrest : Spells (f.after kind).isAmbiguous ((f.after kind).tokens w) ks) :
    Spells s.isAmbiguous (s.tokens (kind.text.toList ++ w)) (kind :: ks) := by
  have hafter := hs.after hsteady hf
  rw [isAmbiguous_after, ← hafter] at hrest
  have htoken : ∀ retry, s.look (kind.text.toList ++ w) = .token kind retry w →
      Spells s.isAmbiguous (s.tokens (kind.text.toList ++ w)) (kind :: ks) := by
    intro retry hlook
    rw [tokens_token hlook]
    exact .token ⟨kind, _, retry⟩ hrest
  by_cases hslash : kind.isSlash = true
  · have hdivides := hs.divides hsteady hf hslash
    cases kind with
    | mark m =>
      obtain ⟨c, rest, rfl, hgrows, hlook⟩ := slash_of_ends hslash hends
      have hoperand : f.endsOperand = true := by
        cases m with
        | binary op =>
          cases op with
          | div => exact htakes
          | _ => cases hslash
        | assign op =>
          cases op with
          | div => exact htakes
          | _ => cases hslash
        | _ => cases hslash
      refine htoken (if s.previous.any (·.isAmbiguous) then some ⟨s, m.text.toList ++ c :: rest⟩
        else none) ?_
      rw [TokenKind.text, hlook, LexState.slash, hdivides, hoperand, if_pos rfl, Lexed.ofMark,
        Mark.read?_stop hsound hgrows]
    | regex text =>
      obtain ⟨d, more, htext, hd, hstar⟩ := hsound.start
      have hread : readRegex (text.toList ++ w) = some (text.toList, w) := by
        cases w with
        | nil => cases hends
        | cons c rest => exact hsound.read c (by simpa [TokenKind.stops] using hends.1) rest
      have hlook : s.look (text.toList ++ w) = s.slash (text.toList ++ w) := by
        rw [htext]
        exact look_slash s hd hstar _
      cases hoperand : f.endsOperand with
      | false =>
        refine htoken none ?_
        rw [TokenKind.text, hlook, LexState.slash, hdivides, hoperand, if_neg Bool.false_ne_true,
          hread, Lexed.ofPart, String.ofList_toList]
      | true =>
        -- The slash is taken for division, and the text is read again from it.
        rw [LexState.takes, hoperand, Bool.not_true, Bool.false_or, Bool.and_eq_true] at htakes
        have hgrows : (Mark.binary .div).grows d = false := by
          have hgrowths : (Mark.binary .div).growths = ['='] := by decide +kernel
          have hne : d ≠ '=' := by simpa [htext] using htakes.2
          rw [Mark.grows, hgrowths]
          simpa using hne
        have hmark : Mark.read? (text.toList ++ w) = some (.binary .div, d :: (more ++ w)) := by
          rw [htext]
          exact Mark.read?_stop (by decide) hgrows _
        have hambiguous : s.isAmbiguous = true := hs.isAmbiguous.trans htakes.1
        have hslashed : s.look (text.toList ++ w)
            = .token (.mark (.binary .div)) (some ⟨s, text.toList ++ w⟩) (d :: (more ++ w)) := by
          rw [hlook, LexState.slash, hdivides, hoperand, if_pos rfl, Lexed.ofMark, hmark]
          have hany : s.previous.any (·.isAmbiguous) = true := hambiguous
          rw [if_pos hany]
        rw [hambiguous, TokenKind.text, tokens_token hslashed]
        refine .regex rfl ?_ hrest
        have hregex : String.ofList text.toList = text := String.ofList_toList
        rw [Option.bind_some, Retry.regex?, hread]
        simp only [Option.map_some, hregex]
    | _ => cases hslash
  · exact htoken none (look_of_ends s hsound (Bool.eq_false_iff.2 hslash) hends)

/-! ## Between texts -/

theorem follow_withGap {glue : List Char} (gap : Gap) (hne : glue.filterMap glueKind? ≠ []) :
    (s.withGap gap).follow (glue.filterMap glueKind?) = s.follow (glue.filterMap glueKind?) := by
  obtain ⟨kind, ks, hks⟩ := List.exists_cons_of_ne_nil hne
  have hkind : kind ≠ .mark .lparen := by
    rintro rfl
    have hmem : TokenKind.mark .lparen ∈ glue.filterMap glueKind? := by
      rw [hks]
      exact List.mem_cons_self ..
    obtain ⟨c, -, hc⟩ := List.mem_filterMap.1 hmem
    unfold glueKind? at hc
    split at hc
    · cases hc
    · split at hc
      · cases hc
      · split at hc <;> cases hc
  rw [hks]
  exact congrArg (List.foldl LexState.after · ks) (after_withGap hkind gap)

/-- The lexer passes what a style writes between texts and finds the tokens in it. A line end is
harmless unless it is directly behind a jump. -/
theorem spells_glue {glue rest : List Char} {ks : List TokenKind} :
    ∀ {s : LexState}, (∀ c ∈ glue, isGlue c = true) →
    (s.Calm ∨ '\n' ∉ glue ∨ glue.head? = some ';') →
    (∀ s' : LexState, s'.Behind (s.follow (glue.filterMap glueKind?)) →
      ('\n' ∉ glue → s' = s.follow (glue.filterMap glueKind?)) →
      Spells s'.isAmbiguous (s'.tokens rest) ks) →
    Spells s.isAmbiguous (s.tokens (glue ++ rest)) (glue.filterMap glueKind? ++ ks) := by
  induction glue with
  | nil => exact fun _ _ h => h _ (.inl rfl) fun _ => rfl
  | cons c glue ih =>
    intro s hglue hcalm h
    obtain ⟨hc, hrest⟩ := List.forall_mem_cons.1 hglue
    have hmark : ∀ {m : Mark}, m.isPlain = true → m.text.toList = [c] →
        glueKind? c = some (.mark m) →
        Spells s.isAmbiguous (s.tokens (c :: glue ++ rest))
          ((c :: glue).filterMap glueKind? ++ ks) := by
      intro m hplain htext hkind
      have hlook := look_plainMark s hplain (glue ++ rest)
      rw [htext, List.singleton_append] at hlook
      rw [List.filterMap_cons_some hkind] at h ⊢
      rw [List.cons_append, List.cons_append, tokens_token hlook]
      have hplain : (s.after (.mark m)).isAmbiguous = (TokenKind.mark m).isAmbiguous :=
        isAmbiguous_after s _
      refine .token ⟨.mark m, _, none⟩ (hplain ▸ ih hrest (.inl (.after rfl)) ?_)
      intro s' hs' hsame
      exact h s' hs' fun hnot => hsame fun hmem => hnot (List.mem_cons_of_mem _ hmem)
    obtain rfl | rfl | rfl | rfl | rfl := isGlue_cases hc
    · rw [List.filterMap_cons_none (by decide)] at h ⊢
      rw [List.cons_append, tokens_skip (look_blank s _)]
      refine ih hrest (hcalm.imp_right ?_) fun s' hs' hsame => h s' hs' fun hnot =>
        hsame fun hmem => hnot (List.mem_cons_of_mem _ hmem)
      rintro (hnot | hhead)
      · exact .inl fun hmem => hnot (List.mem_cons_of_mem _ hmem)
      · cases hhead
    · have hline : s.Calm := by
        obtain hline | hnot | hhead := hcalm
        · exact hline
        · exact absurd (List.mem_cons_self ..) hnot
        · cases hhead
      rw [List.filterMap_cons_none (by decide)] at h ⊢
      rw [List.cons_append, tokens_skip (look_line s hline _)]
      refine ih (s := s.withGap .lineEnd) hrest (.inl fun hgap => nomatch hgap.1) ?_
      intro s' hs' hsame
      refine h s' ?_ fun hnot => absurd (List.mem_cons_self ..) hnot
      by_cases hnil : glue.filterMap glueKind? = []
      · rw [hnil] at hs' ⊢
        exact .inr (hs'.elim id id)
      · rwa [follow_withGap _ hnil] at hs'
    · exact hmark (m := .semi) rfl rfl rfl
    · exact hmark (m := .lbrace) rfl rfl rfl
    · exact hmark (m := .rbrace) rfl rfl rfl

end

/-! ## First characters -/

/-- Each range of the first table lies in one of the second. Both are in order, so that one pass
finds out. -/
def lieWithin : List (Nat × Nat) → List (Nat × Nat) → Bool
  | inner, [] => inner.isEmpty
  | inner, q :: outer => lieWithin (inner.dropWhile fun r => q.1 ≤ r.1 && r.2 ≤ q.2) outer

theorem inRanges_mono {inner outer : List (Nat × Nat)} (h : lieWithin inner outer = true) {c : Char}
    (hc : inRanges inner c = true) : inRanges outer c = true := by
  induction outer generalizing inner with
  | nil =>
    rw [List.isEmpty_iff.1 h] at hc
    cases hc
  | cons q outer ih =>
    rw [inRanges, ← List.takeWhile_append_dropWhile (l := inner), List.any_append,
      Bool.or_eq_true] at hc
    rw [inRanges, List.any_cons, Bool.or_eq_true]
    refine hc.imp (fun htake => ?_) fun hdrop => ih h hdrop
    obtain ⟨r, hr, hrange⟩ := List.any_eq_true.1 htake
    have hcover := List.all_eq_true.1 List.all_takeWhile r hr
    simp only [Bool.and_eq_true, decide_eq_true_eq] at hrange hcover ⊢
    omega

/-- A blank is written between a word and whatever begins like a name. -/
theorem isWord_of_isNameStart {c : Char} (h : isNameStart c = true) :
    Text.isWord c = true ∨ c = '$' := by
  by_cases hsmall : c.toNat < 128
  · have hall : ∀ n < 128, isNameStart (Char.ofNat n) = true →
        Text.isWord (Char.ofNat n) = true ∨ Char.ofNat n = '$' := by decide
    have hc := hall c.toNat hsmall
    rw [Char.ofNat_toNat] at hc
    exact hc h
  · rw [isNameStart, if_neg hsmall] at h
    refine .inl ?_
    rw [Text.isWord, isAlphanumeric, if_neg hsmall, inRanges_mono (by decide +kernel) h,
      Bool.true_or]

section
variable {kind next : TokenKind}

/-- The first character of a token: that of a word, a digit, or one that is part of no word. -/
theorem TokenKind.Sound.head_cases (h : kind.Sound) : ∃ c cs, kind.text.toList = c :: cs ∧
    (isNameStart c = true ∧ (kind.isWord = true ∨ kind.isAccessor = true) ∨
      c.isDigit = true ∨
      isNameStart c = false ∧ isNamePart c = false ∧ isBlank c = false) := by
  cases kind with
  | name | keyword =>
    obtain ⟨c, cs, htext, hc, -⟩ := (h.isWord rfl).1.exists_cons
    exact ⟨c, cs, htext, .inl ⟨hc, .inl rfl⟩⟩
  | getter => exact ⟨'g', _, rfl, .inl ⟨by decide, .inr rfl⟩⟩
  | setter => exact ⟨'s', _, rfl, .inl ⟨by decide, .inr rfl⟩⟩
  | mark m =>
    have hall : ∀ m ∈ Mark.all, m.text.toList.head?.any fun c =>
        decide (isNameStart c = false ∧ isNamePart c = false ∧ isBlank c = false) := by
      decide +kernel
    obtain ⟨c, hc, hplain⟩ := (Option.any_eq_true _ _).1 (hall m h)
    obtain ⟨cs, htext⟩ := List.head?_eq_some_iff.1 hc
    exact ⟨c, cs, htext, .inr (.inr (of_decide_eq_true hplain))⟩
  | number text =>
    obtain ⟨c, cs, htext, hdigit | ⟨rfl, -⟩⟩ := h.exists_cons
    · exact ⟨c, cs, htext, .inr (.inl hdigit)⟩
    · exact ⟨'.', cs, htext, .inr (.inr (by decide))⟩
  | string text =>
    obtain ⟨mark, body, hmark, htext, -⟩ := h
    refine ⟨mark, body, htext, .inr (.inr ?_)⟩
    obtain rfl | rfl := hmark <;> decide
  | regex text =>
    obtain ⟨c, cs, htext, -⟩ := h.start
    exact ⟨'/', c :: cs, htext, .inr (.inr (by decide))⟩
  | lineSemi | eof | invalid => exact h.elim

theorem isWord_of_isDigit {c : Char} (h : c.isDigit = true) :
    Text.isWord c = true ∧ isBlank c = false := by
  have hall : ∀ n < 58, 48 ≤ n →
      Text.isWord (Char.ofNat n) = true ∧ isBlank (Char.ofNat n) = false := by decide
  simp only [Char.isDigit, Bool.and_eq_true, decide_eq_true_eq, ge_iff_le,
    UInt32.le_iff_toNat_le] at h
  have hc := hall c.toNat (Nat.lt_succ_of_le h.2) h.1
  rwa [Char.ofNat_toNat] at hc

/-- Only a word begins like a name. -/
theorem TokenKind.Sound.head_not_isNameStart (h : kind.Sound) (hword : kind.isWord = false)
    (haccessor : kind.isAccessor = false) :
    ∃ c cs, kind.text.toList = c :: cs ∧ isNameStart c = false := by
  obtain ⟨c, cs, htext, ⟨-, hw | ha⟩ | hdigit | hplain⟩ := h.head_cases
  · exact absurd hw (by rw [hword]; exact Bool.false_ne_true)
  · exact absurd ha (by rw [haccessor]; exact Bool.false_ne_true)
  · refine ⟨c, cs, htext, Bool.eq_false_iff.2 fun hstart => ?_⟩
    rw [not_isDigit_of_isNameStart hstart] at hdigit
    cases hdigit
  · exact ⟨c, cs, htext, hplain.1⟩

/-- A token that is spelled like an accessor is one, or it is a name. -/
theorem TokenKind.Sound.of_accessorText (h : kind.Sound)
    (htext : kind.text = "get" ∨ kind.text = "set") :
    kind.isAccessor = true ∨ ∃ id, kind = .name id ∧ (id == "get" || id == "set") = true := by
  have hhead : ∃ c, kind.text.toList.head? = some c ∧ isNameStart c = true := by
    obtain htext | htext := htext <;> rw [htext]
    · exact ⟨'g', rfl, by decide⟩
    · exact ⟨'s', rfl, by decide⟩
  cases kind with
  | name id => exact .inr ⟨id, rfl, by simpa [TokenKind.text] using htext⟩
  | getter | setter => exact .inl rfl
  | keyword word =>
    have hall : ∀ word ∈ Keyword.all, word.text ≠ "get" ∧ word.text ≠ "set" := by decide +kernel
    obtain ⟨hget, hset⟩ := hall word h
    exact absurd htext (not_or.2 ⟨hget, hset⟩)
  | mark | number | string | regex =>
    obtain ⟨c, cs, hcs, hc⟩ := h.head_not_isNameStart rfl rfl
    rw [hcs] at hhead
    obtain ⟨_, ⟨⟩, hstart⟩ := hhead
    rw [hc] at hstart
    cases hstart
  | lineSemi | eof | invalid => exact h.elim

/-- Every token ends before what a style writes. -/
theorem TokenKind.Sound.stops_glue (h : kind.Sound) {c : Char} (hc : isGlue c = true) :
    kind.stops c = true := by
  have hplain : isNameStart c = false ∧ isNamePart c = false ∧ isFlag c = false ∧
      isHexDigit c = false ∧ c.isDigit = false ∧ c ∉ growingSigns ∧
        c ∉ ['x', 'X', '.', '/', '*'] := by
    obtain rfl | rfl | rfl | rfl | rfl := isGlue_cases hc <;> decide
  simp only [List.mem_cons, List.not_mem_nil, or_false, not_or] at hplain
  obtain ⟨hstart, hpart, hflag, hhex, hdigit, hsign, hx, hX, hpoint, hslash, hstar⟩ := hplain
  cases kind with
  | name | keyword | getter | setter => simp [stops, hstart, hpart]
  | number => simp [stops, hhex, hx, hX, hpoint]
  | regex => simp [stops, hflag]
  | mark m =>
    have hgrows : m.grows c = false :=
      Bool.eq_false_iff.2 fun hgrows => hsign (m.mem_growingSigns h hgrows)
    simp [stops, hgrows, hdigit, hslash, hstar]
  | string | lineSemi | eof | invalid => rfl

/-- A mark that stands alone ends before anything. -/
theorem Mark.ends_of_standsAlone {m : Mark} (h : m.standsAlone = true) (c : Char)
    (rest : List Char) : (TokenKind.mark m).Ends (c :: rest) := by
  have hne : m ≠ .dot ∧ m ≠ .binary .div ∧ m.text ≠ "get" ∧ m.text ≠ "set" := by
    cases m with
    | dot | not | binary | assign => cases h
    | _ => decide
  refine ⟨?_, fun htext => absurd htext (not_or.2 hne.2.2)⟩
  simp [TokenKind.stops, m.grows_of_standsAlone h, hne]

theorem Mark.standsAlone_of_finishesExpr {m : Mark} (h : (TokenKind.mark m).finishesExpr = true) :
    m.standsAlone = true := by
  cases m with
  | rparen | rbracket | rbrace | increment | decrement => rfl
  | _ => cases h

/-- What an expression finishes with ends before a mark, unless a number takes the dot. -/
theorem TokenKind.stops_mark (h : kind.finishesExpr = true) {m : Mark} (hm : m ∈ Mark.all)
    (hdot : kind.takesDot (.mark m) = false) :
    ∃ c cs, m.text.toList = c :: cs ∧ kind.stops c = true := by
  have hall : ∀ m ∈ Mark.all, m.text.toList.head?.any fun c =>
      decide (isNameStart c = false ∧ isNamePart c = false ∧ isFlag c = false ∧
        isHexDigit c = false ∧ c ≠ 'x' ∧ c ≠ 'X' ∧ (c = '.' → m = .dot)) := by
    decide +kernel
  obtain ⟨c, hc, hplain⟩ := (Option.any_eq_true _ _).1 (hall m hm)
  obtain ⟨hstart, hpart, hflag, hhex, hx, hX, hpoint⟩ := of_decide_eq_true hplain
  obtain ⟨cs, htext⟩ := List.head?_eq_some_iff.1 hc
  refine ⟨c, cs, htext, ?_⟩
  cases kind with
  | name | keyword => simp [stops, hstart, hpart]
  | number text =>
    have hends : c = '.' → endsBeforeDot text.toList = true := by
      intro hpointed
      obtain rfl := hpoint hpointed
      simpa [takesDot] using hdot
    by_cases hpointed : c = '.'
    · simp [stops, hhex, hx, hX, hends hpointed]
    · simp [stops, hhex, hx, hX, hpointed]
  | regex => simp [stops, hflag]
  | mark k => exact (Mark.ends_of_standsAlone (Mark.standsAlone_of_finishesExpr h) c []).1
  | string | lineSemi | eof | invalid => rfl
  | getter | setter => cases h

theorem TokenKind.ends_of_isOpen (h : kind.isOpen = true) (w : List Char) : kind.Ends w := by
  cases w with
  | nil => exact h
  | cons c rest =>
    cases kind with
    | mark m =>
      rw [isOpen, Bool.and_eq_true] at h
      exact m.ends_of_standsAlone h.1 c rest
    | _ => cases h

/-- A blank ends a token, if no name follows a name that would introduce an accessor. -/
theorem TokenKind.Sound.ends_blank (h : kind.Sound) (hplain : kind.isAccessor = false)
    (hnext : next.Sound) (hclash : kind.introduces next = false) {rest : List Char}
    (hrest : rest.head? = next.text.toList.head?) : kind.Ends (' ' :: rest) := by
  refine ⟨h.stops_glue rfl, fun htext => ?_⟩
  obtain haccessor | ⟨id, rfl, hid⟩ := h.of_accessorText htext
  · rw [hplain] at haccessor
    cases haccessor
  · rw [introduces, hid, Bool.true_and, Bool.or_eq_false_iff] at hclash
    obtain ⟨c, cs, hcs, hc⟩ := hnext.head_not_isNameStart hclash.1 hclash.2
    rw [hcs] at hrest
    obtain ⟨more, rfl⟩ := List.head?_eq_some_iff.1 hrest
    simp [blankThenName, hc, isAccessor]

/-- A token ends directly before the next one, if it ends before the first character. -/
theorem TokenKind.Sound.ends_touching (h : kind.Sound) (hplain : kind.isAccessor = false)
    (hnext : next.Sound) (hstops : ∀ c ∈ next.text.toList.head?, kind.stops c = true)
    {rest : List Char} (hrest : rest.head? = next.text.toList.head?) : kind.Ends rest := by
  obtain ⟨c, cs, hcs, hcases⟩ := hnext.head_cases
  rw [hcs] at hrest hstops
  obtain ⟨more, rfl⟩ := List.head?_eq_some_iff.1 hrest
  have hc := hstops c rfl
  refine ⟨hc, fun htext => ?_⟩
  obtain haccessor | ⟨id, rfl, -⟩ := h.of_accessorText htext
  · rw [hplain] at haccessor
    cases haccessor
  · have hblank : isBlank c = false := by
      obtain ⟨hstart, -⟩ | hdigit | hsign := hcases
      · simp [stops, hstart] at hc
      · exact (isWord_of_isDigit hdigit).2
      · exact hsign.2.2
    cases more <;> simp [blankThenName, hblank, isAccessor]

end

/-! ## Between two texts -/

/-- What is asked of a style besides being faithful. Blanks may be missing where texts do not run
together, in pretty text only where the stream says so; a semicolon that comes first in a group is
written first; and only pretty text ends a line behind the last property of an object. -/
structure Style.Careful (minified : Bool) (style : Style) : Prop extends style.Faithful where
  keeps : ∀ text, (TokenKind.string text).isKept minified = true → style.literal text = text
  empty : ∀ around level, (style.group around level []).1 = ""
  blank : ∀ around level m, around.before.isSome = true → m = .space ∨ m = .optionalSpace →
    (style.group around level [m]).1 = " " ∨
      (style.group around level [m]).1 = "" ∧ around.touching = false ∧
        (m = .space → minified = true)
  headBlank : ∀ around level, (style.group around level [.headSpace]).1 = " " ∨
    (style.group around level [.headSpace]).1 = ""
  close : ∀ around level,
    (minified = true ∧ (style.group around level [.dedent, .newline]).1 = "") ∨
    minified = false ∧
      ∃ n, (style.group around level [.dedent, .newline]).1.toList = '\n' :: List.replicate n ' '
  jump : ∀ around level marks,
    (style.group around level (.endStatement :: marks)).1.toList.head? = some ';'

/-- The texts around a group are those of the tokens, as far as the characters next to the group are
concerned. -/
structure Around.Between (around : Around) (kind next : TokenKind) : Prop where
  before : around.before.isSome = true
  last : around.last? = kind.text.toList.getLast?
  first : around.first? = next.text.toList.head?

section
variable {minified : Bool} {style : Style} {around : Around} {level : Nat} {kind next : TokenKind}
  {marks : List LayoutMark} {rest : List Char}

/-- What does not touch does not join. -/
theorem Around.Between.not_wouldJoin (h : around.Between kind next)
    (htouching : around.touching = false)
    {left right : Char} (hleft : kind.text.toList.getLast? = some left)
    (hright : next.text.toList.head? = some right) : wouldJoin left right = false := by
  rw [Around.touching, h.last, h.first, hleft, hright] at htouching
  exact htouching

/-- A token ends before a group that writes a token. -/
theorem Style.Faithful.ends_group (hstyle : style.Faithful) (hkind : kind.Sound)
    (hplain : kind.isAccessor = false) (htoken : marks.any (·.kind?.isSome) = true)
    (rest : List Char) : kind.Ends ((style.group around level marks).1.toList ++ rest) := by
  have hkinds := hstyle.kinds around level marks
  have hglue := hstyle.glue around level marks
  cases hwritten : (style.group around level marks).1.toList with
  | nil => exact absurd hwritten (hstyle.group_ne_nil htoken)
  | cons c cs =>
    rw [hwritten] at hglue hkinds
    obtain ⟨hc, hcs⟩ := List.forall_mem_cons.1 hglue
    refine ⟨hkind.stops_glue hc, fun _ => hplain ▸ ?_⟩
    cases cs with
    | nil =>
      -- The only character is that of the token.
      have hblank : isBlank c = false := by
        obtain ⟨m, hm, hsome⟩ := List.any_eq_true.1 htoken
        obtain ⟨found, hfound⟩ := Option.isSome_iff_exists.1 hsome
        have hmem : found ∈ [c].filterMap glueKind? := hkinds ▸ List.mem_filterMap.2 ⟨m, hm, hfound⟩
        obtain rfl | rfl | rfl | rfl | rfl := isGlue_cases hc
        · cases hmem
        · cases hmem
        all_goals decide
      cases rest <;> simp [blankThenName, hblank]
    | cons d cs =>
      have hd : isNameStart d = false := by
        obtain rfl | rfl | rfl | rfl | rfl :=
          isGlue_cases (hcs d (List.mem_cons_self ..)) <;> decide
      simp [blankThenName, hd]

/-- A word that may be written without a blank behind it ends before the next token. -/
theorem stops_of_not_touching {c : Char} {cs : List Char} (hnext : next.Sound)
    (hcs : next.text.toList = c :: cs) (hc : isWord c = false ∧ c ≠ '$') :
    isNameStart c = false ∧ isNamePart c = false := by
  obtain ⟨_, _, hcs', hcases⟩ := hnext.head_cases
  rw [hcs] at hcs'
  cases hcs'
  obtain ⟨hstart, -⟩ | hdigit | hplain := hcases
  · obtain hword | hdollar := isWord_of_isNameStart hstart
    · rw [hc.1] at hword
      cases hword
    · exact absurd hdollar hc.2
  · rw [(isWord_of_isDigit hdigit).1] at hc
    cases hc.1
  · exact ⟨hplain.1, hplain.2.1⟩

theorem TokenKind.clashes_eq_false : kind.clashes minified next = false ↔
    kind.takesDot next = false ∧ kind.introduces next = false ∧
      (minified = true → kind.takesWord next = false ∧ kind.comments next = false) ∧
      (minified = false → kind.jumps next = false) := by
  cases minified <;> simp [clashes, and_assoc]

/-- The first mark behind an expression or a word. -/
theorem TokenKind.Sound.ends_before_mark (h : kind.Sound) (hfinishes : kind.finishesExpr = true)
    {m : Mark} (hm : m ∈ Mark.all) (hdot : kind.takesDot (.mark m) = false)
    (hrest : rest.head? = m.text.toList.head?) : kind.Ends rest := by
  have hsound : (TokenKind.mark m).Sound := hm
  refine h.ends_touching (kind.not_isAccessor_of_finishesExpr hfinishes) hsound ?_ hrest
  obtain ⟨c, cs, hcs, hstops⟩ := kind.stops_mark hfinishes hm hdot
  intro d hd
  have hhead : m.text.toList.head? = some d := hd
  rw [hcs] at hhead
  cases hhead
  exact hstops

/-- What an operand begins with goes on with no operator but a sign. -/
theorem TokenKind.Sound.head_of_startsExpr (h : kind.Sound) (hstarts : kind.startsExpr = true) :
    ∀ c ∈ kind.text.toList.head?, (c ∈ growingSigns → c = '+' ∨ c = '-') ∧ c ≠ '*' ∧
      (c = '/' → kind.isRegex = true) := by
  intro c hc
  have hplain (hc : isNameStart c = true ∨ c.isDigit = true ∨ c ∈ ['.', '\x22', '\x27']) :
      (c ∈ growingSigns → c = '+' ∨ c = '-') ∧ c ≠ '*' ∧ (c = '/' → kind.isRegex = true) := by
    have hall : ('/' :: '*' :: growingSigns).all fun d =>
        decide (isNameStart d = false ∧ d.isDigit = false ∧ d ∉ ['.', '\x22', '\x27']) := by decide
    have hnot : c ∉ '/' :: '*' :: growingSigns := by
      intro hmem
      obtain ⟨hstart, hdigit, hsign⟩ := of_decide_eq_true (List.all_eq_true.1 hall c hmem)
      rw [hstart, hdigit] at hc
      exact hsign ((hc.resolve_left Bool.false_ne_true).resolve_left Bool.false_ne_true)
    simp only [List.mem_cons, not_or] at hnot
    exact ⟨fun hmem => absurd hmem hnot.2.2, hnot.2.1, fun heq => absurd heq hnot.1⟩
  cases kind with
  | name | keyword =>
    obtain ⟨d, ds, htext, hd, -⟩ := (h.isWord rfl).1.exists_cons
    rw [htext] at hc
    cases hc
    exact hplain (.inl hd)
  | number text =>
    obtain ⟨d, ds, htext, hd | ⟨rfl, -⟩⟩ := h.exists_cons
    all_goals
      rw [TokenKind.text, htext] at hc
      cases hc
    · exact hplain (.inr (.inl hd))
    · exact hplain (.inr (.inr (by decide)))
  | string text =>
    obtain ⟨mark, body, rfl | rfl, htext, -⟩ := h
    all_goals
      rw [TokenKind.text, htext] at hc
      cases hc
      exact hplain (.inr (.inr (by decide)))
  | regex text =>
    obtain ⟨d, ds, htext, -⟩ := h.start
    rw [TokenKind.text, htext] at hc
    cases hc
    exact ⟨by decide, by decide, fun _ => rfl⟩
  | mark m =>
    have hall : ∀ m ∈ Mark.all, (TokenKind.mark m).startsExpr = true →
        m.text.toList.head?.all fun c =>
          decide ((c ∈ growingSigns → c = '+' ∨ c = '-') ∧ c ≠ '*' ∧ c ≠ '/') := by
      decide +kernel
    obtain ⟨hsign, hstar, hslash⟩ :=
      of_decide_eq_true ((Option.all_eq_true _ _).1 (hall m h hstarts) c hc)
    exact ⟨hsign, hstar, fun heq => absurd heq hslash⟩
  | getter | setter => cases hstarts
  | lineSemi | eof | invalid => exact h.elim

/-- An operator that is a word, directly behind an expression. Numbers end before it, since it
begins with no digit. -/
theorem TokenKind.Sound.ends_before_word (h : kind.Sound) (hfinishes : kind.finishesExpr = true)
    (hnext : next.Sound) (hword : next.isWord = true) (hhead : next.text.toList.head? = some 'i')
    (hclash : kind.takesWord next = false) (htouching : around.touching = false)
    (haround : around.Between kind next) (hrest : rest.head? = next.text.toList.head?) :
    kind.Ends rest := by
  refine h.ends_touching (kind.not_isAccessor_of_finishesExpr hfinishes) hnext ?_ hrest
  intro c hc
  obtain rfl : 'i' = c := Option.some.inj (hhead.symm.trans hc)
  have hjoins : (kind.isWord || kind.isRegex) = true → False := by
    intro hkind
    rw [takesWord, hkind, hword, Bool.true_and, Bool.true_and, Bool.not_eq_false',
      joinsWord] at hclash
    obtain ⟨left, hleft, hword⟩ := (Option.any_eq_true _ _).1 hclash
    have hjoin := haround.not_wouldJoin htouching hleft hhead
    rw [Bool.or_eq_true, beq_iff_eq] at hword
    have hi : Text.isWord 'i' = true := by decide
    obtain hword | rfl := hword
    · simp [wouldJoin, hword, hi] at hjoin
    · simp [wouldJoin, hi] at hjoin
  cases kind with
  | name | keyword | regex => exact (hjoins rfl).elim
  | number =>
    have hi : isHexDigit 'i' = false := by decide
    simp [stops, hi]
  | mark k => exact (Mark.ends_of_standsAlone (Mark.standsAlone_of_finishesExpr hfinishes) 'i' []).1
  | string | lineSemi | eof | invalid => rfl
  | getter | setter => cases hfinishes

theorem BinaryOp.head_of_isWord (op : BinaryOp) (h : op.kind.isWord = true) :
    op.kind.text.toList.head? = some 'i' := by
  cases op with
  | isIn | isInstance => rfl
  | _ => cases h

theorem BinaryOp.exists_mark (op : BinaryOp) (h : ¬op.kind.isWord = true) :
    ∃ m, op.kind = .mark m := by
  cases op with
  | isIn | isInstance => exact absurd rfl h
  | _ => exact ⟨_, rfl⟩

/-- What stands at a seam ends before what the style writes there and the next token. -/
theorem Seam.ends (hstyle : style.Careful minified) (h : Seam kind marks next)
    (hkind : kind.Sound) (hnext : next.Sound)
    (hclash : marks.any (·.kind?.isSome) = false → kind.clashes minified next = false)
    (haround : around.Between kind next) (hrest : rest.head? = next.text.toList.head?) :
    kind.Ends ((style.group around level marks.reverse).1.toList ++ rest) := by
  cases h with
  | alone hopen => exact kind.ends_of_isOpen hopen _
  | group htoken hready =>
    refine hstyle.ends_group hkind hready.plain ?_ rest
    rw [List.any_reverse]
    exact htoken
  | required hfinishes =>
    obtain ⟨-, hintroduces, -⟩ := TokenKind.clashes_eq_false.1 (hclash rfl)
    rw [List.reverse_singleton, hstyle.requiredSpace]
    exact hkind.ends_blank (kind.not_isAccessor_of_finishesExpr hfinishes) hnext hintroduces hrest
  | accessor haccessor hword =>
    rw [List.reverse_singleton, hstyle.requiredSpace]
    refine ⟨hkind.stops_glue rfl, fun _ => ?_⟩
    obtain ⟨c, cs, hcs, hc, -⟩ := (hnext.isWord hword).1.exists_cons
    rw [hcs] at hrest
    obtain ⟨more, rfl⟩ := List.head?_eq_some_iff.1 hrest
    rw [haccessor]
    show (isBlank ' ' && isNameStart c) = true
    rw [hc]
    rfl
  | paren hmarks =>
    obtain ⟨c, cs, hcs, -⟩ := hnext.head_cases
    rw [hcs] at hrest
    obtain ⟨more, rfl⟩ := List.head?_eq_some_iff.1 hrest
    obtain ⟨d, ds, hds⟩ := List.exists_cons_of_ne_nil (List.append_ne_nil_of_right_ne_nil
      (style.group around level marks.reverse).1.toList (List.cons_ne_nil c more))
    rw [hds]
    exact Mark.ends_of_standsAlone rfl d ds
  | @behind _ m _ hfinishes hmarks =>
    have htokens : marks.any (·.kind?.isSome) = false := by
      obtain rfl | rfl | rfl := hmarks <;> rfl
    obtain ⟨hdot, hintroduces, -⟩ := TokenKind.clashes_eq_false.1 (hclash htokens)
    have hwritten : (style.group around level marks.reverse).1 = " " ∨
        (style.group around level marks.reverse).1 = "" := by
      obtain rfl | rfl | rfl := hmarks
      · exact .inr (hstyle.empty around level)
      · exact (hstyle.blank around level .space haround.before (.inl rfl)).imp_right And.left
      · exact (hstyle.blank around level .optionalSpace haround.before
          (.inr rfl)).imp_right And.left
    obtain hblank | hempty := hwritten
    · rw [hblank]
      exact hkind.ends_blank (kind.not_isAccessor_of_finishesExpr hfinishes) hnext hintroduces hrest
    · rw [hempty]
      exact hkind.ends_before_mark hfinishes hnext hdot hrest
  | close hfinishes =>
    obtain ⟨hdot, -⟩ := TokenKind.clashes_eq_false.1 (hclash rfl)
    obtain ⟨-, hempty⟩ | ⟨-, n, hline⟩ := hstyle.close around level
    · show kind.Ends ((style.group around level [.dedent, .newline]).1.toList ++ rest)
      rw [hempty]
      exact hkind.ends_before_mark hfinishes hnext hdot hrest
    · show kind.Ends ((style.group around level [.dedent, .newline]).1.toList ++ rest)
      rw [hline]
      refine ⟨hkind.stops_glue rfl, fun _ => ?_⟩
      rw [kind.not_isAccessor_of_finishesExpr hfinishes]
      obtain ⟨more, rfl⟩ : ∃ more, rest = '\x7d' :: more := List.head?_eq_some_iff.1 hrest
      cases n <;> rfl
  | field hword =>
    rw [List.reverse_nil, hstyle.empty]
    refine hkind.ends_touching rfl hnext (fun c hc => ?_) hrest
    obtain ⟨d, ds, hds, hd, -⟩ := (hnext.isWord hword).1.exists_cons
    rw [hds] at hc
    cases hc
    have hgrowths : Mark.dot.growths = [] := by decide +kernel
    simp [TokenKind.stops, Mark.grows, hgrowths, not_isDigit_of_isNameStart hd]
  | @operator _ op hfinishes =>
    obtain ⟨hdot, hintroduces, hwords, -⟩ := TokenKind.clashes_eq_false.1 (hclash rfl)
    have hplain := kind.not_isAccessor_of_finishesExpr hfinishes
    obtain hblank | ⟨hempty, htouching, hminified⟩ :=
      hstyle.blank around level .space haround.before (.inl rfl)
    · rw [List.reverse_singleton, hblank]
      exact hkind.ends_blank hplain hnext hintroduces hrest
    · rw [List.reverse_singleton, hempty]
      by_cases hword : op.kind.isWord = true
      · exact hkind.ends_before_word hfinishes hnext hword (op.head_of_isWord hword)
          (hwords (hminified rfl)).1 htouching haround hrest
      · obtain ⟨m, hm⟩ := op.exists_mark hword
        rw [hm] at hnext hdot hrest
        exact hkind.ends_before_mark hfinishes hnext hdot hrest
  | @operand m _ _ hdot hmarks hstarts =>
    obtain ⟨mark, rfl, hmark⟩ : ∃ mark, marks = [mark] ∧
        (mark = .space ∨ mark = .optionalSpace) := by
      obtain rfl | ⟨rfl, -⟩ := hmarks
      · exact ⟨_, rfl, .inl rfl⟩
      · exact ⟨_, rfl, .inr rfl⟩
    obtain hblank | ⟨hempty, htouching, hminified⟩ :=
      hstyle.blank around level mark haround.before hmark
    · rw [List.reverse_singleton, hblank]
      exact hkind.ends_blank rfl hnext rfl hrest
    · rw [List.reverse_singleton, hempty]
      refine hkind.ends_touching rfl hnext (fun c hc => ?_) hrest
      obtain ⟨hsign, hstar, hslash⟩ := hnext.head_of_startsExpr hstarts c hc
      have hgrows : m.grows c = false := by
        refine Bool.eq_false_iff.2 fun hgrows => ?_
        obtain rfl | rfl := hsign (m.mem_growingSigns hkind hgrows)
        · obtain rfl := m.grows_plus hkind hgrows
          exact absurd (haround.not_wouldJoin htouching rfl hc) (by decide)
        · obtain rfl := m.grows_minus hkind hgrows
          exact absurd (haround.not_wouldJoin htouching rfl hc) (by decide)
      have hdiv : m = .binary .div → c ≠ '/' := by
        rintro rfl rfl
        obtain hspace | ⟨-, hne⟩ := hmarks
        · cases hspace
          obtain ⟨-, -, hclash, -⟩ := TokenKind.clashes_eq_false.1 (hclash rfl)
          have hcomment := (hclash (hminified rfl)).2
          rw [TokenKind.comments, hslash rfl] at hcomment
          cases hcomment
        · exact hne rfl
      by_cases hm : m = .binary .div
      · simp [TokenKind.stops, hgrows, hdot, hdiv hm, hstar]
      · simp [TokenKind.stops, hgrows, hdot, hm]
  | @word word _ _ hmarks hstarts =>
    obtain ⟨mark, rfl, hmark⟩ : ∃ mark, marks = [mark] ∧
        (mark = .space ∨ mark = .optionalSpace) := by
      obtain rfl | rfl := hmarks
      · exact ⟨_, rfl, .inl rfl⟩
      · exact ⟨_, rfl, .inr rfl⟩
    obtain hblank | ⟨hempty, htouching, -⟩ := hstyle.blank around level mark haround.before hmark
    · rw [List.reverse_singleton, hblank]
      exact hkind.ends_blank rfl hnext rfl hrest
    · rw [List.reverse_singleton, hempty]
      refine hkind.ends_touching rfl hnext (fun c hc => ?_) hrest
      have hall : ∀ word ∈ Keyword.all, word.text.toList.getLast?.any isWord := by decide +kernel
      obtain ⟨left, hleft, hword⟩ := (Option.any_eq_true _ _).1 (hall word hkind)
      have hjoin := haround.not_wouldJoin htouching hleft hc
      obtain ⟨cs, hcs⟩ := List.head?_eq_some_iff.1 hc
      simp only [wouldJoin, hword, Bool.true_and, Bool.or_eq_false_iff,
        beq_eq_false_iff_ne] at hjoin
      have hplain : isWord c = false ∧ c ≠ '$' := ⟨hjoin.1.1.1.1, hjoin.1.2⟩
      obtain ⟨hstart, hpart⟩ := stops_of_not_touching hnext hcs hplain
      simp [TokenKind.stops, hstart, hpart]

theorem not_mem_blank {text : String} (h : text = " " ∨ text = "") : '\n' ∉ text.toList := by
  obtain rfl | rfl := h <;> decide

/-- Where a line may end between two texts. -/
theorem Seam.lineEnd (hstyle : style.Careful minified) (h : Seam kind marks next)
    (hclash : marks.any (·.kind?.isSome) = false → kind.clashes minified next = false)
    (haround : around.Between kind next) (level : Nat) :
    '\n' ∉ (style.group around level marks.reverse).1.toList ∨ kind.isOpen = true ∨
      marks.any (·.kind?.isSome) = true ∧ Ready kind marks ∨
      next = .mark .rbrace ∧ kind.endsAtLine = false := by
  have hblank (m : LayoutMark) (hm : m = .space ∨ m = .optionalSpace) :
      '\n' ∉ (style.group around level [m]).1.toList :=
    not_mem_blank ((hstyle.blank around level m haround.before hm).imp_right And.left)
  have hempty : '\n' ∉ (style.group around level []).1.toList :=
    not_mem_blank (.inr (hstyle.empty around level))
  cases h with
  | alone hopen => exact .inr (.inl hopen)
  | group htoken hready => exact .inr (.inr (.inl ⟨htoken, hready⟩))
  | required | accessor => exact .inl (not_mem_blank (.inl (hstyle.requiredSpace around level)))
  | paren hmarks =>
    left
    obtain rfl | rfl | rfl := hmarks
    · exact hempty
    · exact hblank _ (.inl rfl)
    · exact not_mem_blank (hstyle.headBlank around level)
  | behind _ hmarks =>
    left
    obtain rfl | rfl | rfl := hmarks
    · exact hempty
    · exact hblank _ (.inl rfl)
    · exact hblank _ (.inr rfl)
  | close =>
    obtain ⟨-, hwritten⟩ | ⟨hpretty, -⟩ := hstyle.close around level
    · exact .inl (not_mem_blank (.inr hwritten))
    · obtain ⟨-, -, -, hjumps⟩ := TokenKind.clashes_eq_false.1 (hclash rfl)
      exact .inr (.inr (.inr ⟨rfl, by simpa [TokenKind.jumps] using hjumps hpretty⟩))
  | field => exact .inl hempty
  | operator => exact .inl (hblank _ (.inl rfl))
  | operand _ hmarks =>
    left
    obtain rfl | ⟨rfl, -⟩ := hmarks
    · exact hblank _ (.inl rfl)
    · exact hblank _ (.inr rfl)
  | word hmarks =>
    left
    obtain rfl | rfl := hmarks
    · exact hblank _ (.inl rfl)
    · exact hblank _ (.inr rfl)

/-- A group behind a jump begins with a semicolon. -/
theorem Ready.head_group (h : Ready kind marks) (hstyle : style.Careful minified)
    (hjump : kind.endsAtLine = true) :
    (style.group around level marks.reverse).1.toList.head? = some ';' := by
  have hlast := h.jump hjump
  rw [← List.head?_reverse] at hlast
  obtain ⟨more, hmarks⟩ := List.head?_eq_some_iff.1 hlast
  rw [hmarks]
  exact hstyle.jump around level more

theorem TokenKind.of_isOpen (h : kind.isOpen = true) :
    kind.endsAtLine = false ∧ kind ≠ .mark .rparen ∧ kind.opensHead = false := by
  cases kind with
  | mark m =>
    refine ⟨rfl, ?_, rfl⟩
    rintro ⟨⟩
    cases h
  | _ => cases h

end

/-! ## Streams -/

/-- The tokens that the marks since the last text write. The marks are in reverse. -/
def markKinds (marks : List LayoutMark) : List TokenKind :=
  marks.reverse.filterMap LayoutMark.kind?

/-- The text before ends like the token before. -/
structure Shows (shown : Option String) (before : Option TokenKind) : Prop where
  isSome : shown.isSome = before.isSome
  last : shown.bind (·.toList.getLast?) = before.bind (·.text.toList.getLast?)

section
variable {minified : Bool} {style : Style} {level : Nat} {kind next : TokenKind}
  {marks : List LayoutMark} {before : Option TokenKind} {shown : Option String} {after : String}
  {pieces : List Piece} {ks : List TokenKind} {f : LexState}

theorem markKinds_nil : markKinds [] = [] := rfl

theorem markKinds_cons (m : LayoutMark) (marks : List LayoutMark) :
    markKinds (m :: marks) = markKinds marks ++ m.kind?.toList := by
  rw [markKinds, markKinds, List.reverse_cons, List.filterMap_append]
  cases hkind : m.kind? <;> simp [hkind]

theorem markKinds_eq_nil_iff : markKinds marks = [] ↔ marks.any (·.kind?.isSome) = false := by
  simp [markKinds, List.filterMap_eq_nil_iff]

theorem LexState.legible_cons {s : LexState} : s.legible minified (kind :: ks) = true ↔
    (∀ b ∈ s.previous, b.clashes minified kind = false) ∧ s.takes kind = true ∧
      kind.isKept minified = true ∧ (s.after kind).legible minified ks = true := by
  rw [legible]
  cases s.previous <;> simp [and_assoc]

/-- Legible tokens do not clash with the token of the text before, if no other is between. -/
theorem not_clashes (hprevious : f.previous = before)
    (hlegible : (f.follow (markKinds marks)).legible minified (next :: ks) = true) :
    ∀ b ∈ before, marks.any (·.kind?.isSome) = false → b.clashes minified next = false := by
  intro b hb hmarks
  obtain ⟨hclash, -⟩ := LexState.legible_cons.1 hlegible
  rw [markKinds_eq_nil_iff.2 hmarks, LexState.follow, List.foldl_nil, hprevious] at hclash
  exact hclash b hb

theorem Shows.between (h : Shows shown (some kind))
    (hafter : after.toList.head? = next.text.toList.head?) :
    (⟨shown, some after⟩ : Around).Between kind next where
  before := h.isSome
  last := h.last
  first := hafter

theorem LayoutMark.of_kind? {m : LayoutMark} (h : m.kind? = some kind) :
    kind ≠ .mark .rparen ∧ kind.opensHead = false ∧ kind.Sound := by
  cases m with
  | openBlock | closeBlock | endStatement =>
    cases h
    exact ⟨nofun, rfl, (by decide : _ ∈ Mark.all)⟩
  | _ => cases h

theorem follow_concat (f : LexState) (ks : List TokenKind) (kind : TokenKind) :
    f.follow (ks ++ [kind]) = (f.follow ks).after kind := by
  rw [LexState.follow, List.foldl_append]
  rfl

/-- Behind tokens that marks write, a line end makes no difference. -/
theorem steady_follow (h : marks.any (·.kind?.isSome) = true) (next : TokenKind) :
    (f.follow (markKinds marks)).Steady next := by
  right
  intro b hb
  induction marks with
  | nil => cases h
  | cons m marks ih =>
    rw [markKinds_cons] at hb
    cases hkind : m.kind? with
    | none =>
      rw [hkind, Option.toList_none, List.append_nil] at hb
      rw [List.any_cons, hkind] at h
      exact ih h hb
    | some found =>
      rw [hkind, Option.toList_some, follow_concat, previous_after] at hb
      cases hb
      exact ⟨(LayoutMark.of_kind? hkind).1, (LayoutMark.of_kind? hkind).2.1⟩

/-- The lexer passes a group between two texts. -/
theorem Style.Careful.spells_group (hstyle : style.Careful minified)
    (hprevious : f.previous = before) (hshows : Shows shown before) (hseam : Fits before marks next)
    (hlegible : (f.follow (markKinds marks)).legible minified (next :: ks) = true)
    (hafter : after.toList.head? = next.text.toList.head?) {rest : List Char}
    {found : List TokenKind}
    (h : ∀ s : LexState, s.Behind (f.follow (markKinds marks)) →
      s = f.follow (markKinds marks) ∨ (f.follow (markKinds marks)).Steady next →
      Spells s.isAmbiguous (s.tokens rest) found) :
    Spells f.isAmbiguous (f.tokens
        ((style.group ⟨shown, some after⟩ level marks.reverse).1.toList ++ rest))
      (markKinds marks ++ found) := by
  have hkinds : _ = markKinds marks := hstyle.kinds ⟨shown, some after⟩ level marks.reverse
  have hclash := not_clashes hprevious hlegible
  rw [← hkinds] at h ⊢
  refine spells_glue (hstyle.glue _ _ _) ?_ fun s hs hsame => h s hs ?_
  · cases before with
    | none =>
      refine .inl fun hcalm => ?_
      rw [hprevious] at hcalm
      cases hcalm.2
    | some kind =>
      have hcalm (hline : kind.endsAtLine = false) : f.Calm := by
        intro hcalm
        rw [hprevious] at hcalm
        exact Bool.false_ne_true (hline.symm.trans hcalm.2)
      obtain hline | hopen | ⟨-, hready⟩ | ⟨-, hline⟩ :=
        (hseam kind rfl).lineEnd hstyle (hclash kind rfl) (hshows.between hafter) level
      · exact .inr (.inl hline)
      · exact .inl (hcalm (TokenKind.of_isOpen hopen).1)
      · cases hjump : kind.endsAtLine with
        | false => exact .inl (hcalm hjump)
        | true => exact .inr (.inr (hready.head_group hstyle hjump))
      · exact .inl (hcalm hline)
  · rw [hkinds] at hsame ⊢
    by_cases htoken : marks.any (·.kind?.isSome) = true
    · exact .inr (steady_follow htoken next)
    · have hnone := markKinds_eq_nil_iff.2 (Bool.eq_false_iff.2 htoken)
      rw [hnone] at hsame ⊢
      cases before with
      | none =>
        refine .inr (.inr fun b hb => ?_)
        have hb' : b ∈ f.previous := hb
        rw [hprevious] at hb'
        cases hb'
      | some kind =>
        obtain hline | hopen | ⟨htoken', -⟩ | ⟨hbrace, -⟩ :=
          (hseam kind rfl).lineEnd hstyle (hclash kind rfl) (hshows.between hafter) level
        · exact .inl (hsame hline)
        · refine .inr (.inr fun b hb => ?_)
          have hb' : b ∈ f.previous := hb
          rw [hprevious] at hb'
          cases hb'
          exact (TokenKind.of_isOpen hopen).2
        · exact absurd htoken' htoken
        · exact .inr (.inl hbrace)

/-- A token comes behind what the group before it writes. -/
theorem Style.Careful.toList_layOut_piece (hstyle : style.Careful minified)
    (hkept : kind.isKept minified = true) :
    (style.layOut level shown marks (kind.piece :: pieces)).toList
      = (style.group ⟨shown, some kind.text⟩ level marks.reverse).1.toList ++ (kind.text.toList
        ++ (style.layOut (style.group ⟨shown, some kind.text⟩ level marks.reverse).2
          (some kind.text) [] pieces).toList) := by
  cases kind with
  | string text =>
    have hliteral := hstyle.keeps text hkept
    rw [TokenKind.piece, Style.layOut]
    simp only [hliteral, TokenKind.text, String.toList_append, List.append_assoc]
  | _ => exact toList_layOut_text style level shown marks _ pieces

/-- The word before the variable of a loop over a collection, and the variable. -/
theorem Style.Careful.toList_layOut_declared (hstyle : style.Careful minified) (name : String) :
    ∃ level', (style.layOut level shown marks (.text "var " :: .text name :: pieces)).toList
      = (style.group ⟨shown, some "var "⟩ level marks.reverse).1.toList ++ ("var".toList
        ++ ' ' :: (name.toList ++ (style.layOut level' (some name) [] pieces).toList)) := by
  rw [toList_layOut_text, toList_layOut_text, List.reverse_nil, hstyle.empty]
  exact ⟨_, rfl⟩

/-- The token before a stream ends where the stream begins, whatever text is behind the stream. -/
theorem Laid.ends (hstyle : style.Careful minified) (h : Laid before marks pieces ks)
    (tail : List Char) :
    ∀ {shown : Option String}, Shows shown before → f.previous = before →
    (∀ kind ∈ before, kind.Sound) → (∀ kind ∈ ks, kind.Sound) →
    (f.follow (markKinds marks)).legible minified ks = true →
    ∀ kind ∈ before, kind.Ends ((style.layOut level shown marks pieces).toList ++ tail) := by
  induction h with
  | @nil before marks hcleared =>
    intro shown _ _ hbefore _ _ kind hkind
    obtain ⟨hready, hopen | htoken⟩ := hcleared kind hkind
    · exact kind.ends_of_isOpen hopen _
    · rw [← List.any_reverse] at htoken
      exact hstyle.ends_group (hbefore kind hkind) hready.plain htoken tail
  | @mark before marks m pieces ks hm _ ih =>
    intro shown hshows hprevious hbefore hks hlegible
    refine ih hshows hprevious hbefore hks ?_
    rw [markKinds_cons, hm]
    simpa using hlegible
  | @token before marks m kind pieces ks hm _ ih =>
    intro shown hshows hprevious hbefore hks hlegible
    refine ih hshows hprevious hbefore (List.forall_mem_cons.1 hks).2 ?_
    obtain ⟨-, -, -, hrest⟩ := LexState.legible_cons.1 hlegible
    rw [markKinds_cons, hm]
    simpa [LexState.follow] using hrest
  | @text before marks next piece pieces ks hpiece hseam _ _ =>
    intro shown hshows hprevious hbefore hks hlegible kind hkind
    subst hpiece
    obtain ⟨-, -, hkept, -⟩ := LexState.legible_cons.1 hlegible
    obtain rfl : before = some kind := hkind
    rw [hstyle.toList_layOut_piece hkept, List.append_assoc]
    obtain ⟨c, cs, hcs, -⟩ := (hks next (List.mem_cons_self ..)).head_cases
    exact (hseam kind rfl).ends hstyle (hbefore kind rfl) (hks next (List.mem_cons_self ..))
      (not_clashes hprevious hlegible kind rfl) (hshows.between rfl) (by rw [hcs]; rfl)
  | @commas before marks count pieces ks hseam _ _ =>
    intro shown hshows hprevious hbefore hks hlegible kind hkind
    obtain rfl : before = some kind := hkind
    rw [toList_layOut_text, List.append_assoc]
    exact (hseam kind rfl).ends hstyle (hbefore kind rfl) (hks _ (List.mem_cons_self ..))
      (not_clashes hprevious hlegible kind rfl)
      (hshows.between (by simp [List.replicate_succ, Mark.text, TokenKind.text]))
      (by simp [List.replicate_succ, Mark.text, TokenKind.text])
  | @declared before marks name pieces ks hseam _ _ =>
    intro shown hshows hprevious hbefore hks hlegible kind hkind
    obtain rfl : before = some kind := hkind
    rw [toList_layOut_text, List.append_assoc]
    exact (hseam kind rfl).ends hstyle (hbefore kind rfl) (hks _ (List.mem_cons_self ..))
      (not_clashes hprevious hlegible kind rfl) (hshows.between rfl) rfl

/-- A run of commas. -/
theorem spells_commas {rest : List Char} {count : Nat} : ∀ {s f : LexState}, s.Behind f → f.Fresh →
    s = f ∨ f.Steady (.mark .comma) →
    Spells (f.follow (List.replicate (count + 1) (.mark .comma))).isAmbiguous
      ((f.follow (List.replicate (count + 1) (.mark .comma))).tokens rest) ks →
    Spells s.isAmbiguous (s.tokens (List.replicate (count + 1) ',' ++ rest))
      (List.replicate (count + 1) (.mark .comma) ++ ks) := by
  have hsound : (TokenKind.mark .comma).Sound := (by decide : Mark.comma ∈ Mark.all)
  have hopen : (TokenKind.mark .comma).isOpen = true := rfl
  induction count with
  | zero =>
    intro s f hs hf hsteady hrest
    exact spells_text hs hf hsteady hsound rfl (TokenKind.ends_of_isOpen hopen _) hrest
  | succ count ih =>
    intro s f hs hf hsteady hrest
    have hmore := ih (.inl rfl) (fresh_after f (.mark .comma)) (.inl rfl) hrest
    exact spells_text hs hf hsteady hsound rfl (TokenKind.ends_of_isOpen hopen _) hmore

/-- The tokens of a stream that goes on behind the state `f`, and of the text behind the stream. -/
theorem Laid.spells_layOut (hstyle : style.Careful minified) (h : Laid before marks pieces ks)
    {tail : List Char} {more : List TokenKind} :
    ∀ {level : Nat} {shown : Option String} {f : LexState}, Shows shown before → f.Fresh →
    f.previous = before → (∀ kind ∈ before, kind.Sound) → (∀ kind ∈ ks, kind.Sound) →
    (f.follow (markKinds marks)).legible minified ks = true →
    (∀ s : LexState, s.Behind ((f.follow (markKinds marks)).follow ks) →
      Spells s.isAmbiguous (s.tokens tail) more) →
    Spells f.isAmbiguous (f.tokens ((style.layOut level shown marks pieces).toList ++ tail))
      (markKinds marks ++ (ks ++ more)) := by
  induction h with
  | @nil before marks hcleared =>
    intro level shown f _ _ hprevious _ _ _ hend
    have hkinds : _ = markKinds marks := hstyle.kinds ⟨shown, none⟩ level marks.reverse
    rw [← hkinds] at hend ⊢
    refine spells_glue (hstyle.glue _ _ _) ?_ fun s hs _ => hend s hs
    · cases hjump : f.previous.any (·.endsAtLine) with
      | false => exact .inl fun hcalm => Bool.false_ne_true (hjump.symm.trans hcalm.2)
      | true =>
        obtain ⟨kind, hkind, hends⟩ := (Option.any_eq_true _ _).1 hjump
        have hready := (hcleared kind (hprevious ▸ hkind)).1
        exact .inr (.inr (hready.head_group hstyle hends))
  | @mark before marks m pieces ks hm _ ih =>
    intro level shown f hshows hf hprevious hbefore hks hlegible hend
    have hsame : markKinds (m :: marks) = markKinds marks := by
      rw [markKinds_cons, hm, Option.toList_none, List.append_nil]
    rw [← hsame] at hlegible hend ⊢
    exact ih hshows hf hprevious hbefore hks hlegible hend
  | @token before marks m kind pieces ks hm _ ih =>
    intro level shown f hshows hf hprevious hbefore hks hlegible hend
    obtain ⟨-, -, -, hrest⟩ := LexState.legible_cons.1 hlegible
    have hmore : markKinds (m :: marks) = markKinds marks ++ [kind] := by
      rw [markKinds_cons, hm, Option.toList_some]
    have hfollow : f.follow (markKinds (m :: marks)) = (f.follow (markKinds marks)).after kind := by
      rw [hmore, follow_concat]
    have htokens : Spells _
        (f.tokens ((style.layOut level shown (m :: marks) pieces).toList ++ tail)) _ :=
      ih hshows hf hprevious hbefore (List.forall_mem_cons.1 hks).2 (hfollow ▸ hrest)
        (hfollow ▸ hend)
    rw [hmore, List.append_assoc] at htokens
    exact htokens
  | @text before marks kind piece pieces ks hpiece hseam hlaid ih =>
    intro level shown f hshows hf hprevious hbefore hks hlegible hend
    subst hpiece
    obtain ⟨hsound, hks⟩ := List.forall_mem_cons.1 hks
    obtain ⟨-, htakes, hkept, hrest⟩ := LexState.legible_cons.1 hlegible
    have hshown : Shows (some kind.text) (some kind) := ⟨rfl, rfl⟩
    have hafter : ∀ b ∈ some kind, TokenKind.Sound b := by
      rintro _ ⟨⟩
      exact hsound
    rw [hstyle.toList_layOut_piece hkept, List.append_assoc, List.append_assoc]
    refine hstyle.spells_group hprevious hshows hseam hlegible rfl fun s hs hsteady => ?_
    refine spells_text hs (hf.follow _) hsteady hsound htakes
      (hlaid.ends hstyle tail hshown (previous_after _ _) hafter hks hrest kind rfl) ?_
    exact ih hshown (fresh_after _ _) (previous_after _ _) hafter hks hrest hend
  | @commas before marks count pieces ks hseam _ ih =>
    intro level shown f hshows hf hprevious hbefore hks hlegible hend
    have hcommas : (TokenKind.mark .comma).Sound := hks _ (List.mem_cons_self ..)
    have hrest := hlegible
    rw [LexState.legible_append, Bool.and_eq_true] at hrest
    rw [LexState.follow_append] at hend
    rw [toList_layOut_text, List.append_assoc, List.append_assoc, List.append_assoc]
    refine hstyle.spells_group hprevious hshows hseam hlegible
      (by simp [List.replicate_succ, Mark.text, TokenKind.text]) fun s hs hsteady => ?_
    rw [String.toList_ofList]
    refine spells_commas hs (hf.follow _) hsteady
      (ih ?_ ((hf.follow _).follow _) ?_ ?_ ?_ hrest.2 hend)
    · exact ⟨rfl, by simp [List.replicate_succ', Mark.text, TokenKind.text]⟩
    · rw [List.replicate_succ', follow_concat, previous_after]
    · rintro _ ⟨⟩
      exact hcommas
    · exact fun kind hkind => hks kind (List.mem_append_right _ hkind)
  | @declared before marks name pieces ks hseam hlaid ih =>
    intro level shown f hshows hf hprevious hbefore hks hlegible hend
    obtain ⟨hvar, hks'⟩ := List.forall_mem_cons.1 hks
    obtain ⟨hname, hks⟩ := List.forall_mem_cons.1 hks'
    obtain ⟨-, htakes, -, hlater⟩ := LexState.legible_cons.1 hlegible
    obtain ⟨-, -, -, hrest⟩ := LexState.legible_cons.1 hlater
    have hshown : Shows (some name) (some (.name name)) := ⟨rfl, rfl⟩
    have hafter : ∀ b ∈ some (TokenKind.name name), TokenKind.Sound b := by
      rintro _ ⟨⟩
      exact hname
    obtain ⟨level', hchars⟩ := hstyle.toList_layOut_declared name
    rw [hchars, List.append_assoc, List.append_assoc, List.cons_append, List.append_assoc]
    have hhead : "var ".toList.head? = (TokenKind.keyword .var).text.toList.head? := by decide
    refine hstyle.spells_group hprevious hshows hseam hlegible hhead fun s hs hsteady => ?_
    have hends : (TokenKind.keyword .var).Ends (' ' :: (name.toList
        ++ ((style.layOut level' (some name) [] pieces).toList ++ tail))) := by
      refine hvar.ends_blank rfl hname rfl ?_
      obtain ⟨c, cs, hcs, -⟩ := hname.head_cases
      have htext : name.toList = c :: cs := hcs
      rw [hcs, htext]
      rfl
    refine spells_text hs (hf.follow _) hsteady hvar htakes hends ?_
    rw [tokens_skip (look_blank _ _)]
    refine spells_text (.inl rfl) (fresh_after _ _) (.inl rfl) hname rfl
      (hlaid.ends hstyle tail hshown (previous_after _ _) hafter hks hrest _ rfl) ?_
    exact ih hshown (fresh_after _ _) (previous_after _ _) hafter hks hrest hend

/-- The printed text of a legible stream stands for the tokens of the stream, and a text behind it
for those that are found there. -/
theorem Laid.spells (hstyle : style.Careful minified) (h : Laid none [] pieces ks)
    (hsound : ∀ kind ∈ ks, kind.Sound) (hlegible : ({} : LexState).legible minified ks = true)
    {tail : String} {more : List TokenKind}
    (htail : ∀ s : LexState, s.Behind (({} : LexState).follow ks) →
      Spells s.isAmbiguous (s.tokens tail.toList) more) :
    Spells false (tokenize (style.print pieces ++ tail)) (ks ++ more) := by
  rw [tokenize, String.toList_append]
  exact h.spells_layOut hstyle ⟨rfl, rfl⟩ ⟨rfl, rfl⟩ rfl (by rintro _ ⟨⟩) hsound hlegible htail

theorem LexState.isKept_of_legible {s : LexState} (h : s.legible minified ks = true) :
    ∀ kind ∈ ks, kind.isKept minified = true := by
  induction ks generalizing s with
  | nil => nofun
  | cons kind ks ih =>
    obtain ⟨-, -, hkept, hrest⟩ := legible_cons.1 h
    exact List.forall_mem_cons.2 ⟨hkept, ih hrest⟩

/-- A stream is written with at least one character for each of its tokens. -/
theorem Laid.length_layOut (hstyle : style.Careful minified) (h : Laid before marks pieces ks) :
    ∀ {level : Nat} {shown : Option String},
    (∀ kind ∈ ks, kind.Sound ∧ kind.isKept minified = true) →
    (markKinds marks).length + ks.length
      ≤ (style.layOut level shown marks pieces).toList.length := by
  induction h with
  | @nil before marks _ =>
    intro level shown _
    exact hstyle.length_group ⟨shown, none⟩ level marks.reverse
  | @mark before marks m pieces ks hm _ ih =>
    intro level shown hks
    have hrest : _ ≤ (style.layOut level shown (m :: marks) pieces).toList.length := ih hks
    rwa [markKinds_cons, hm, Option.toList_none, List.append_nil] at hrest
  | @token before marks m kind pieces ks hm _ ih =>
    intro level shown hks
    have hrest : _ ≤ (style.layOut level shown (m :: marks) pieces).toList.length :=
      ih (List.forall_mem_cons.1 hks).2
    rw [markKinds_cons, hm, Option.toList_some, List.length_append, List.length_singleton] at hrest
    rw [List.length_cons]
    exact Nat.le_trans (by omega) hrest
  | @text before marks kind piece pieces ks hpiece _ _ ih =>
    intro level shown hks
    subst hpiece
    obtain ⟨⟨hsound, hkept⟩, hks⟩ := List.forall_mem_cons.1 hks
    obtain ⟨c, cs, hcs, -⟩ := hsound.head_cases
    have hgroup : (markKinds marks).length ≤ _ :=
      hstyle.length_group ⟨shown, some kind.text⟩ level marks.reverse
    have hrest : _ ≤ (style.layOut (style.group ⟨shown, some kind.text⟩ level marks.reverse).2
      (some kind.text) [] pieces).toList.length := ih hks
    rw [hstyle.toList_layOut_piece hkept]
    simp only [markKinds_nil, List.length_nil, List.length_append, List.length_cons, hcs] at hrest ⊢
    omega
  | @commas before marks count pieces ks _ _ ih =>
    intro level shown hks
    have hgroup : (markKinds marks).length ≤ _ := hstyle.length_group
      ⟨shown, some (String.ofList (List.replicate (count + 1) ','))⟩ level marks.reverse
    have hrest (level' : Nat) (shown' : Option String) :
        0 + ks.length ≤ (style.layOut level' shown' [] pieces).toList.length :=
      ih fun kind hkind => hks kind (List.mem_append_right _ hkind)
    simp only [toList_layOut_text, List.length_append, String.toList_ofList, List.length_replicate]
    exact Nat.le_trans (by omega) (Nat.add_le_add hgroup (Nat.add_le_add_left (hrest _ _) _))
  | @declared before marks name pieces ks _ _ ih =>
    intro level shown hks
    obtain ⟨-, hks⟩ := List.forall_mem_cons.1 hks
    obtain ⟨⟨hname, -⟩, hks⟩ := List.forall_mem_cons.1 hks
    obtain ⟨c, cs, hcs, -⟩ := hname.head_cases
    have htext : name.toList = c :: cs := hcs
    have hgroup : (markKinds marks).length ≤ _ :=
      hstyle.length_group ⟨shown, some "var "⟩ level marks.reverse
    obtain ⟨level', hchars⟩ := hstyle.toList_layOut_declared name
    have hrest : _ ≤ (style.layOut level' (some name) [] pieces).toList.length := ih hks
    rw [hchars]
    simp only [markKinds_nil, List.length_nil, List.length_append, List.length_cons,
      htext] at hrest ⊢
    omega

/-- A printed stream has no more tokens than characters. -/
theorem Laid.length_print (hstyle : style.Careful minified) (h : Laid none [] pieces ks)
    (hsound : ∀ kind ∈ ks, kind.Sound) (hlegible : ({} : LexState).legible minified ks = true) :
    ks.length ≤ (style.print pieces).length := by
  have hkept := LexState.isKept_of_legible hlegible
  have hlength : _ ≤ (style.print pieces).toList.length :=
    h.length_layOut hstyle fun kind hkind => ⟨hsound kind hkind, hkept kind hkind⟩
  rw [String.length_toList] at hlength
  simpa [markKinds_nil] using hlength

end

/-! ## Careful styles -/

/-- A semicolon at the bottom of a stack of actions stays there. -/
theorem Pretty.getLast?_push (stack : List Action) (m : LayoutMark)
    (h : stack.getLast? = some (.mark .endStatement)) :
    (Pretty.push stack m).getLast? = some (.mark .endStatement) := by
  unfold Pretty.push
  split
  case h_5 => rw [List.getLast?_cons, h, Option.getD_some]
  all_goals
    rename_i rest
    simp only [List.getLast?_cons, Option.some.injEq] at h ⊢
    cases hrest : rest.getLast? <;> simp_all

theorem Minified.getLast?_push (stack : List Action) (m : LayoutMark)
    (h : stack.getLast? = some (.mark .endStatement)) :
    (Minified.push stack m).getLast? = some (.mark .endStatement) := by
  unfold Minified.push
  split
  case h_1 | h_2 | h_3 | h_4 => exact h
  case h_9 => rw [List.getLast?_cons, h, Option.getD_some]
  all_goals
    rename_i rest
    simp only [List.getLast?_cons, Option.some.injEq] at h ⊢
    cases hrest : rest.getLast? <;> simp_all

/-- A semicolon that comes first in a group is the first action. -/
theorem head_actions {push : List Action → LayoutMark → List Action}
    (hempty : push [] .endStatement = [.mark .endStatement])
    (hpush : ∀ stack m, stack.getLast? = some (.mark .endStatement) →
      (push stack m).getLast? = some (.mark .endStatement)) (marks : List LayoutMark) :
    ∃ more, ((LayoutMark.endStatement :: marks).foldl push []).reverse
      = .mark .endStatement :: more := by
  have hlast : ∀ (marks : List LayoutMark) (stack : List Action),
      stack.getLast? = some (.mark .endStatement) →
      (marks.foldl push stack).getLast? = some (.mark .endStatement) := by
    intro marks
    induction marks with
    | nil => exact fun _ h => h
    | cons m marks ih => exact fun stack h => ih _ (hpush stack m h)
  rw [List.foldl_cons, hempty]
  exact List.head?_eq_some_iff.1 (List.head?_reverse.trans (hlast marks _ rfl))

theorem careful_pretty (width : Nat) : (Style.pretty width).Careful false where
  toFaithful := faithful_pretty width
  keeps _ _ := rfl
  empty _ _ := rfl
  blank around level m hbefore hm := by
    obtain rfl | rfl := hm
    · exact .inl rfl
    · have hwritten : ((Style.pretty width).group around level [.optionalSpace]).1
          = Pretty.optionalBlank around := String.append_empty
      rw [hwritten, Pretty.optionalBlank, hbefore, Bool.true_and]
      by_cases htouching : around.touching = true
      · exact .inl (by simp [htouching])
      · split
        · exact .inl rfl
        · exact .inr ⟨rfl, Bool.eq_false_iff.2 htouching, nofun⟩
  headBlank around level := by
    have hwritten : ((Style.pretty width).group around level [.headSpace]).1
        = Pretty.headBlank around := String.append_empty
    rw [hwritten, Pretty.headBlank, Pretty.optionalBlank]
    split
    · split
      · split <;> simp
      · exact .inl rfl
    · exact .inr rfl
  close around level := by
    refine .inr ⟨rfl, (if width = 0 then 2 else width) * (level - 1), ?_⟩
    show ("" ++ ("\n" ++ Pretty.indentation _ _ ++ "")).toList = _
    simp [Pretty.indentation]
  jump around level marks := by
    obtain ⟨more, hactions⟩ := head_actions rfl Pretty.getLast?_push marks
    show (Pretty.run _ around level "" (Pretty.actions (.endStatement :: marks))).1.toList.head? = _
    rw [Pretty.actions, hactions, Pretty.run]
    simp [Pretty.act]

theorem careful_minified : Style.minified.Careful true where
  toFaithful := faithful_minified
  keeps text h := by
    have hsame : Minified.joinLines text.toList = text.toList := by
      simpa [TokenKind.isKept] using h
    show String.ofList (Minified.joinLines text.toList) = text
    rw [hsame, String.ofList_toList]
  empty _ _ := rfl
  blank around level m _ hm := by
    have hwritten :
        (Style.minified.group around level [m]).1 = if around.touching then " " else "" := by
      obtain rfl | rfl := hm <;> exact String.empty_append
    rw [hwritten]
    by_cases htouching : around.touching = true
    · exact .inl (if_pos htouching)
    · exact .inr ⟨if_neg htouching, Bool.eq_false_iff.2 htouching, fun _ => rfl⟩
  headBlank around level := by
    have hwritten : (Style.minified.group around level [.headSpace]).1
        = if around.touching then " " else "" := String.empty_append
    rw [hwritten]
    split <;> simp
  close _ _ := .inl ⟨rfl, rfl⟩
  jump around level marks := by
    obtain ⟨more, hactions⟩ := head_actions rfl Minified.getLast?_push marks
    show (String.join ((Minified.actions (.endStatement :: marks)).map
      (Minified.act around))).toList.head? = _
    rw [Minified.actions, hactions, List.map_cons, String.join_cons]
    simp [Minified.act]

end Espalier.Script
