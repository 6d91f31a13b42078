import Espalier.Proofs.Script.Grammar

/-!
# Readers before a sequence of tokens

`Spells` relates tokens to the sequence of kinds they stand for: token by token, except that a
regular expression may stand there as a slash that was taken for division, where both are possible.
`Goes` says that a reader before one sequence does what another reader does before another one.
Readers are followed by its rules from token to token, with anything behind the tokens they take.
-/

namespace Espalier.Script

/-! ## Tokens and what they stand for -/

/-- The tokens stand for these kinds. `ambiguous` says that a slash may divide or begin a regular
expression at their start. -/
inductive Spells : (ambiguous : Bool) → List Token → List TokenKind → Prop
  | nil (ambiguous : Bool) : Spells ambiguous [] []
  | token {ambiguous : Bool} {ts : List Token} {ks : List TokenKind} (t : Token)
      (rest : Spells t.kind.isAmbiguous ts ks) : Spells ambiguous (t :: ts) (t.kind :: ks)
  | regex {t : Token} {ts more : List Token} {text : String} {ks : List TokenKind}
      (slash : t.kind = .mark (.binary .div))
      (retry : t.retry.bind Retry.regex? = some (text, more))
      (rest : Spells false more ks) : Spells true (t :: ts) (.regex text :: ks)

section
variable {ambiguous : Bool} {ts : List Token} {kind : TokenKind} {ks : List TokenKind}

/-- What is no regular expression stands there as itself. -/
theorem Spells.cons (h : Spells ambiguous ts (kind :: ks)) (hkind : kind.isRegex = false) :
    ∃ t rest, ts = t :: rest ∧ t.kind = kind ∧ Spells kind.isAmbiguous rest ks := by
  cases h with
  | token t rest => exact ⟨t, _, rfl, rfl, rest⟩
  | regex => cases hkind

/-- The next token is of the kind, or it is the slash of a regular expression. -/
theorem Spells.peek (h : Spells ambiguous ts (kind :: ks)) :
    ∃ found, Reader.peek.run ts = some (found, ts) ∧
      (found = kind ∨ found = .mark (.binary .div) ∧ kind.isRegex = true) := by
  cases h with
  | token t rest => exact ⟨t.kind, rfl, .inl rfl⟩
  | @regex t ts more text ks slash => exact ⟨t.kind, rfl, .inr ⟨slash, rfl⟩⟩

end

namespace Reader

/-! ## Steps -/

/-- Before tokens for `ks`, the reader `r` does what `r'` does before tokens for `ks'`. -/
def Goes {α : Type} (r : Reader α) (ks : List TokenKind) (r' : Reader α) (ks' : List TokenKind) :
    Prop :=
  ∀ ambiguous ts, Spells ambiguous ts ks →
    ∃ ambiguous' ts', Spells ambiguous' ts' ks' ∧ r.run ts = r'.run ts'

section
variable {α β : Type} {r r' r'' : Reader α} {f : β → Reader α} {ks ks' ks'' : List TokenKind}
  {kind : TokenKind}

theorem Goes.refl : Goes r ks r ks :=
  fun ambiguous ts h => ⟨ambiguous, ts, h, rfl⟩

theorem Goes.trans (h : Goes r ks r' ks') (h' : Goes r' ks' r'' ks'') : Goes r ks r'' ks'' := by
  intro ambiguous ts hts
  obtain ⟨_, ts', hts', hrun⟩ := h ambiguous ts hts
  obtain ⟨ambiguous'', ts'', hts'', hrun'⟩ := h' _ ts' hts'
  exact ⟨ambiguous'', ts'', hts'', hrun.trans hrun'⟩

/-- Go on with what the first reader does. -/
theorem Goes.bind {x x' : Reader β} (h : Goes x ks x' ks') : Goes (x >>= f) ks (x' >>= f) ks' := by
  intro ambiguous ts hts
  obtain ⟨ambiguous', ts', hts', hrun⟩ := h ambiguous ts hts
  refine ⟨ambiguous', ts', hts', ?_⟩
  rw [StateT.run_bind, StateT.run_bind, hrun]

/-- Go on with the result of the first reader. -/
theorem Goes.andThen {x : Reader β} {b : β} (h : Goes x ks (pure b) ks')
    (h' : Goes (f b) ks' r'' ks'') : Goes (x >>= f) ks r'' ks'' := by
  refine h.bind.trans ?_
  rwa [pure_bind]

/-- Look at the next token. -/
theorem Goes.peek {g : TokenKind → Reader α} (hkind : kind.isRegex = false)
    (h : Goes (g kind) (kind :: ks) r' ks') : Goes (peek >>= g) (kind :: ks) r' ks' := by
  intro ambiguous ts hts
  obtain ⟨found, hrun, rfl | ⟨-, hregex⟩⟩ := hts.peek
  · rw [run_bind_of_eq hrun]
    exact h ambiguous ts hts
  · rw [hkind] at hregex
    cases hregex

/-- Look at the next token where a regular expression may be a slash. -/
theorem Goes.peekAny {g : TokenKind → Reader α} (h : Goes (g kind) (kind :: ks) r' ks')
    (hslash : kind.isRegex = true → g (.mark (.binary .div)) = g kind) :
    Goes (Reader.peek >>= g) (kind :: ks) r' ks' := by
  intro ambiguous ts hts
  obtain ⟨found, hrun, rfl | ⟨rfl, hregex⟩⟩ := hts.peek
  · rw [run_bind_of_eq hrun]
    exact h ambiguous ts hts
  · rw [run_bind_of_eq hrun, hslash hregex]
    exact h ambiguous ts hts

theorem Goes.skip {f : Unit → Reader α} (hkind : kind.isRegex = false)
    (h : Goes (f ()) ks r' ks') : Goes (skip >>= f) (kind :: ks) r' ks' := by
  intro ambiguous ts hts
  obtain ⟨t, rest, rfl, -, hrest⟩ := hts.cons hkind
  rw [run_bind_of_eq run_skip]
  exact h _ rest hrest

/-- A token is passed if it is this one. -/
theorem Goes.accept {yes no : Reader α} (hkind : kind.isRegex = false) (h : Goes yes ks r' ks') :
    Goes (accept kind >>= fun found => if found = true then yes else no) (kind :: ks) r' ks' := by
  intro ambiguous ts hts
  obtain ⟨t, rest, rfl, ht, hrest⟩ := hts.cons hkind
  rw [run_bind_of_eq (run_accept ht)]
  exact h _ rest hrest

/-- Another token is not passed. -/
theorem Goes.acceptNot {found : TokenKind} {yes no : Reader α} (hne : found ≠ kind)
    (hslash : kind ≠ .mark (.binary .div)) (h : Goes no (found :: ks) r' ks') :
    Goes (Reader.accept kind >>= fun found => if found = true then yes else no) (found :: ks) r'
      ks' := by
  intro ambiguous ts hts
  have haccept : (Reader.accept kind).run ts = some (false, ts) := by
    obtain ⟨next, hrun, rfl | ⟨rfl, -⟩⟩ := hts.peek
    · rw [Reader.accept, run_bind_of_eq hrun, if_neg hne]
      rfl
    · rw [Reader.accept, run_bind_of_eq hrun, if_neg hslash.symm]
      rfl
  rw [run_bind_of_eq haccept]
  exact h ambiguous ts hts

theorem Goes.expect (hkind : kind.isRegex = false) :
    Goes (expect kind) (kind :: ks) (pure ()) ks := by
  intro ambiguous ts hts
  obtain ⟨t, rest, rfl, ht, hrest⟩ := hts.cons hkind
  exact ⟨_, rest, hrest, run_expect ht⟩

theorem Goes.expectMark {m : Mark} : Goes (expectMark m) (.mark m :: ks) (pure ()) ks :=
  Goes.expect rfl

theorem Goes.identifier {id : String} : Goes identifier (.name id :: ks) (pure id) ks :=
  .peek rfl (.skip rfl .refl)

theorem Goes.endStatement : Goes endStatement (.mark .semi :: ks) (pure ()) ks := by
  intro ambiguous ts hts
  obtain ⟨t, rest, rfl, ht, hrest⟩ := hts.cons rfl
  exact ⟨_, rest, hrest, run_endStatement ht⟩

/-- The spelling of the keyword of a word is the word. -/
theorem text_of_ofText? {word : String} {keyword : Keyword}
    (h : Keyword.ofText? word = some keyword) : keyword.text = word := by
  unfold Keyword.ofText? at h
  simpa using List.find?_some h

theorem isRegex_wordToken (word : String) : (wordToken word).isRegex = false := by
  unfold wordToken
  split <;> rfl

theorem Goes.fieldName {word : String} :
    Goes fieldName (wordToken word :: ks) (pure word) ks := by
  cases hword : Keyword.ofText? word with
  | none =>
    have hkind : wordToken word = .name word := by simp only [wordToken, hword]
    rw [hkind]
    exact .peek rfl (.skip rfl .refl)
  | some keyword =>
    have hkind : wordToken word = .keyword keyword := by simp only [wordToken, hword]
    rw [hkind]
    refine .peek rfl (.skip rfl ?_)
    rw [text_of_ofText? hword]
    exact .refl

theorem Goes.propertyKey {key : Key} : Goes propertyKey (key.kind :: ks) (pure key) ks := by
  cases key with
  | string | number => exact .peek rfl (.skip rfl .refl)
  | name id =>
    have hname : Goes (do return Key.name (← Reader.fieldName)) (wordToken id :: ks)
        (pure (Key.name id)) ks := Goes.fieldName.andThen .refl
    refine .peek (isRegex_wordToken id) ?_
    rw [Key.kind]
    unfold wordToken at hname ⊢
    split at hname
    all_goals exact hname

end

/-! ## Lists of names -/

section
variable {ks : List TokenKind} {kind : TokenKind}

theorem Goes.commas {count fuel : Nat} (hfuel : count < fuel) (hkind : kind ≠ .mark .comma) :
    Goes (commas fuel) (List.replicate count (.mark .comma) ++ kind :: ks) (pure count)
      (kind :: ks) := by
  induction count generalizing fuel with
  | zero =>
    match fuel, hfuel with
    | fuel + 1, _ =>
      rw [Reader.commas]
      exact .acceptNot hkind nofun .refl
  | succ count ih =>
    match fuel, hfuel with
    | fuel + 1, hfuel =>
      rw [Reader.commas]
      exact .accept rfl ((ih (Nat.lt_of_succ_lt_succ hfuel)).andThen .refl)

theorem Goes.moreNames {names : List String} {fuel : Nat} (hfuel : names.length < fuel)
    (hkind : kind ≠ .mark .comma) :
    Goes (moreNames fuel) (moreNameKinds names ++ kind :: ks) (pure names) (kind :: ks) := by
  induction names generalizing fuel with
  | nil =>
    obtain _ | fuel := fuel
    · cases hfuel
    rw [Reader.moreNames]
    exact .acceptNot hkind (by rintro ⟨⟩) .refl
  | cons name names ih =>
    obtain _ | fuel := fuel
    · cases hfuel
    rw [Reader.moreNames]
    refine .accept rfl (Goes.identifier.andThen ?_)
    exact (ih (Nat.lt_of_succ_lt_succ hfuel)).andThen .refl

theorem Goes.params {names : List String} {fuel : Nat} (hfuel : names.length < fuel) :
    Goes (params fuel) (paramKinds names ++ ks) (pure names) ks := by
  rw [Reader.params]
  cases names with
  | nil => exact Goes.expectMark.andThen (.accept rfl .refl)
  | cons first others =>
    simp only [paramKinds, List.cons_append, List.append_assoc, List.nil_append]
    refine Goes.expectMark.andThen
      (.acceptNot (by rintro ⟨⟩) (by rintro ⟨⟩) (Goes.identifier.andThen ?_))
    refine .andThen (.moreNames (Nat.lt_of_succ_lt hfuel) (by rintro ⟨⟩)) ?_
    exact Goes.expectMark.andThen .refl

end

end Reader

end Espalier.Script
