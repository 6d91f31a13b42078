import Espalier.Proofs.Script.Roundtrip

/-!
# Text that is written by hand

Text that no printer wrote is compared with the tokens of statements. `transcribes` goes through
both at once: every token stands as it is spelled, with white space between tokens, and lines end
only where a statement may end. Main statement: `Trails.append`, by which a text that passes stands
for the statements behind any program.
-/

namespace Espalier.Script

/-! ## The comparison -/

/-- A line may end behind the token. -/
def TokenKind.endsLine : TokenKind → Bool
  | .mark .semi | .mark .lbrace | .mark .rbrace | .mark .colon => true
  | _ => false

/-- A text from its first token on. Line ends are passed if they are `allowed`. -/
def skipWhite (allowed : Bool) : List Char → List Char
  | ' ' :: cs => skipWhite allowed cs
  | '\n' :: cs => if allowed then skipWhite allowed cs else '\n' :: cs
  | cs => cs

/-- The token ends before the text, whatever follows the text. -/
def TokenKind.endsBefore (kind : TokenKind) : List Char → Bool
  | [] => kind == .mark .rbrace
  | c :: _ => kind.stops c && kind.text.toList != ['g', 'e', 't']
      && kind.text.toList != ['s', 'e', 't']

/-- The lexer takes the token for what it is: it has no slash in front, or is a regular expression
where an operand is `expected`. -/
def TokenKind.isPlainIf (expected : Bool) : TokenKind → Bool
  | .regex _ => expected
  | kind => !kind.isSlash

/-- The text is a transcript of the tokens. A line may end before it if that is `allowed`, and its
first token may be a regular expression if an operand is `expected`. -/
def transcribes (allowed expected : Bool) : List TokenKind → List Char → Bool
  | [], cs => cs.isEmpty
  | kind :: ks, cs =>
    match (skipWhite allowed cs).dropPrefix? kind.text.toList with
    | some rest => kind.isPlainIf expected && kind.endsBefore rest
        && transcribes kind.endsLine (!kind.endsOperand) ks rest
    | none => false

/-! ## Reading a transcript -/

/-- A line may end in the state. -/
def LexState.EndsLine (s : LexState) : Prop :=
  ∀ kind ∈ s.previous, kind.endsLine = true

section
variable {s f : LexState} {kind : TokenKind} {ks more : List TokenKind} {w : List Char}

theorem LexState.Closed.endsLine (h : s.Closed) : s.EndsLine := by
  intro kind hkind
  have hends := h kind hkind
  simp only [TokenKind.endsStatement, Bool.or_eq_true, beq_iff_eq] at hends
  obtain rfl | rfl := hends <;> rfl

theorem LexState.EndsLine.steady (h : s.EndsLine) (kind : TokenKind) : s.Steady kind := by
  refine .inr fun before hbefore => ?_
  have hends := h before hbefore
  unfold TokenKind.endsLine at hends
  split at hends
  all_goals first | exact ⟨by decide, rfl⟩ | cases hends

theorem LexState.EndsLine.calm (h : f.EndsLine) (hs : s.Behind f) : s.Calm := by
  rintro ⟨-, hjump⟩
  rw [hs.previous] at hjump
  obtain ⟨kind, hkind, hends⟩ := (Option.any_eq_true ..).1 hjump
  have hline := h kind hkind
  unfold TokenKind.endsLine at hline
  split at hline
  all_goals first | cases hends | cases hline

theorem endsLine_after (s : LexState) (h : kind.endsLine = true) : (s.after kind).EndsLine := by
  rw [LexState.EndsLine, previous_after]
  rintro _ ⟨⟩
  exact h

theorem endsOperand_after (s : LexState) (h : kind.endsOperand = false) :
    (s.after kind).endsOperand = false := by
  rw [LexState.endsOperand, previous_after]
  split
  case h_1 heq =>
    cases heq
    cases h
  case h_2 heq =>
    cases heq
    exact h
  case h_3 heq => cases heq

theorem LexState.Behind.withGap (h : s.Behind f) : (s.withGap .lineEnd).Behind f := by
  obtain rfl | rfl := h <;> exact .inr rfl

/-- White space before a token is passed. -/
theorem spells_skipWhite {allowed : Bool} (hallowed : allowed = true → f.EndsLine)
    {cs : List Char} : ∀ {s : LexState}, s.Behind f → (s = f ∨ f.EndsLine) →
    (∀ s' : LexState, s'.Behind f → (s' = f ∨ f.EndsLine) →
      Spells s'.isAmbiguous (s'.tokens (skipWhite allowed cs ++ w)) ks) →
    Spells s.isAmbiguous (s.tokens (cs ++ w)) ks := by
  induction cs using skipWhite.induct allowed with
  | case1 cs ih =>
    intro s hs hline hspells
    rw [List.cons_append, tokens_skip (look_blank s _)]
    exact ih hs hline hspells
  | case2 cs hyes ih =>
    intro s hs hline hspells
    have hends := hallowed hyes
    rw [skipWhite, if_pos hyes] at hspells
    rw [List.cons_append, tokens_skip (look_line s (hends.calm hs) _)]
    exact ih hs.withGap (.inr hends) hspells
  | case3 cs hno =>
    intro s hs hline hspells
    rw [skipWhite, if_neg hno] at hspells
    exact hspells s hs hline
  | case4 cs hblank hnewline =>
    intro s hs hline hspells
    rw [skipWhite.eq_3 allowed cs hblank hnewline] at hspells
    exact hspells s hs hline

theorem ends_of_endsBefore {rest : List Char} (h : kind.endsBefore rest = true) (w : List Char) :
    kind.Ends (rest ++ w) := by
  cases rest with
  | nil =>
    obtain rfl : kind = .mark .rbrace := eq_of_beq h
    cases w with
    | nil => rfl
    | cons c cs =>
      have hgrows : Mark.rbrace.grows c = false := Mark.grows_of_standsAlone rfl c
      refine ⟨?_, fun htext => absurd htext (by decide)⟩
      simp only [TokenKind.stops, hgrows]
      rfl
  | cons c rest =>
    simp only [TokenKind.endsBefore, Bool.and_eq_true, bne_iff_ne] at h
    refine ⟨h.1.1, ?_⟩
    rintro (htext | htext)
    · exact absurd (congrArg String.toList htext) h.1.2
    · exact absurd (congrArg String.toList htext) h.2

theorem takes_of_isPlainIf {expected : Bool} (h : kind.isPlainIf expected = true)
    (hexpected : expected = true → f.endsOperand = false) : f.takes kind = true := by
  cases kind with
  | regex text =>
    rw [LexState.takes, hexpected h]
    rfl
  | mark m =>
    cases m with
    | binary op =>
      cases op with
      | div => cases h
      | _ => rfl
    | assign op =>
      cases op with
      | div => cases h
      | _ => rfl
    | _ => rfl
  | _ => rfl

/-- The tokens of a transcript are read from it, and behind it whatever follows. -/
theorem spells_of_transcribes {allowed expected : Bool} {cs : List Char}
    (h : transcribes allowed expected ks cs = true) (hsound : SoundAll ks) (hs : s.Behind f)
    (hf : f.Fresh) (hline : s = f ∨ f.EndsLine) (hallowed : allowed = true → f.EndsLine)
    (hexpected : expected = true → f.endsOperand = false)
    (hmore : ∀ s' : LexState, s'.Behind (f.follow ks) →
      Spells s'.isAmbiguous (s'.tokens w) more) :
    Spells s.isAmbiguous (s.tokens (cs ++ w)) (ks ++ more) := by
  induction ks generalizing allowed expected cs s f with
  | nil =>
    rw [List.isEmpty_iff.1 h]
    exact hmore s hs
  | cons kind ks ih =>
    obtain ⟨hkind, hks⟩ := List.forall_mem_cons.1 hsound
    rw [transcribes] at h
    split at h
    case h_2 => cases h
    case h_1 rest hdrop =>
      simp only [Bool.and_eq_true] at h
      obtain ⟨⟨hplain, hends⟩, hrest⟩ := h
      obtain ⟨text, htext, heq⟩ := List.dropPrefix?_eq_some_iff.1 hdrop
      rw [beq_iff_eq.1 heq] at htext
      have hspells := ih hrest hks (.inl rfl) (fresh_after f kind) (.inl rfl)
        (fun hline => endsLine_after f hline)
        (fun hoperand => endsOperand_after f (by simpa using hoperand)) hmore
      refine spells_skipWhite hallowed hs hline fun s' hs' hline' => ?_
      rw [htext, List.append_assoc]
      exact spells_text hs' hf (hline'.imp_right (·.steady kind)) hkind
        (takes_of_isPlainIf hplain hexpected) (ends_of_endsBefore hends w) hspells

theorem TokenKind.Sound.length_text (h : kind.Sound) : 1 ≤ kind.text.toList.length := by
  obtain ⟨c, cs, htext, -⟩ := h.head_cases
  rw [htext]
  exact Nat.le_add_left 1 _

theorem length_skipWhite (allowed : Bool) (cs : List Char) :
    (skipWhite allowed cs).length ≤ cs.length := by
  induction cs using skipWhite.induct allowed with
  | case1 cs ih => exact Nat.le_succ_of_le ih
  | case2 cs hyes ih =>
    rw [skipWhite, if_pos hyes]
    exact Nat.le_succ_of_le ih
  | case3 cs hno => rw [skipWhite, if_neg hno]
  | case4 cs hblank hnewline => rw [skipWhite.eq_3 allowed cs hblank hnewline]

theorem length_of_transcribes {allowed expected : Bool} {cs : List Char}
    (h : transcribes allowed expected ks cs = true) (hsound : SoundAll ks) :
    ks.length ≤ cs.length := by
  induction ks generalizing allowed expected cs with
  | nil => exact Nat.zero_le _
  | cons kind ks ih =>
    obtain ⟨hkind, hks⟩ := List.forall_mem_cons.1 hsound
    rw [transcribes] at h
    split at h
    case h_2 => cases h
    case h_1 rest hdrop =>
      obtain ⟨text, htext, heq⟩ := List.dropPrefix?_eq_some_iff.1 hdrop
      rw [beq_iff_eq.1 heq] at htext
      have hrest := ih (Bool.and_eq_true_iff.1 h).2 hks
      have hlength := congrArg List.length htext
      have hskip := length_skipWhite allowed cs
      have hpositive := hkind.length_text
      rw [List.length_append] at hlength
      rw [List.length_cons]
      omega

end

/-! ## Behind a program -/

theorem startsPlain_append {a b : List Stmt} (ha : startsPlain a = true)
    (hb : startsPlain b = true) : startsPlain (a ++ b) = true := by
  cases a with
  | nil => exact hb
  | cons s a => exact ha

/-- A transcript of statements may stand between a program and what stands behind it. -/
theorem Trails.append {text tail : String} {ss more : List Stmt} (hformed : FormedAll ss)
    (hlinked : linkedAll ss = true) (hplain : startsPlain ss = true)
    (h : transcribes true false (stmtKinds ss) text.toList = true) (htail : Trails tail more) :
    Trails (text ++ tail) (ss ++ more) where
  formed := formedAll_append hformed htail.formed
  linked := linkedAll_append hlinked htail.linked htail.plain
  plain := startsPlain_append hplain htail.plain
  spells s f hs hf hclosed := by
    have hends := hclosed.endsLine
    rw [String.toList_append, stmtKinds_append, List.append_assoc]
    exact spells_of_transcribes h (soundAll_stmts hformed) hs hf (.inr hends) (fun _ => hends) nofun
      fun s' hs' => htail.spells s' _ hs' (hf.follow _) (hclosed.follow ss)
  length := by
    have hlength := length_of_transcribes h (soundAll_stmts hformed)
    rw [String.length_toList] at hlength
    rw [stmtKinds_append, List.length_append, String.length_append]
    exact Nat.add_le_add hlength htail.length

end Espalier.Script
