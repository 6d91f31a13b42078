import Espalier.Proofs.Script.Nesting

/-!
# Readings that agree

Two lists of tokens that agree from place to place are read alike. `Twins` says what it takes of a
relation between lists of tokens: the next tokens are of one kind, and the relation survives when
both are passed and when both are read again as regular expressions. It may end early, where one of
the lists is over. Main statements: `agrees`, by which a reader that succeeds finds the same in both
lists, unless it comes to the end of the first one, and `arguments_unique` and `braced_unique`, by
which what a reader finds does not depend on the bound on its depth.
-/

namespace Espalier.Script

/-- Some statements are recognised by the token behind this one. -/
def TokenKind.leadsOn : TokenKind → Bool
  | .name _ | .keyword .function => true
  | _ => false

namespace Reader

/-! ## Lists of tokens that agree -/

section
variable (alike : List Mark → List Token → List Token → Prop)

/-- The first tokens of two lists agree, and so does what is left when they are passed or read
again. -/
structure Twin (due : List Mark) (t : Token) (ts : List Token) (t' : Token) (ts' : List Token) :
    Prop where
  kind : t'.kind = t.kind
  line : t'.afterLineEnd = t.afterLineEnd
  second : t.kind.leadsOn = true → nextKind ts' = nextKind ts
  pass : ∀ {due' : List Mark}, t.kind.cross due = some due' → alike due' ts ts'
  retry : ∀ {text : String} {more : List Token}, t.retry.bind Retry.regex? = some (text, more) →
    ∃ more', t'.retry.bind Retry.regex? = some (text, more') ∧ alike due more more'

/-- Lists that are alike agree from place to place, as long as the first one is not over. -/
structure Twins (ended : List Token → Prop) : Prop where
  of_over : ∀ {due : List Mark} {ts ts' : List Token}, ended ts → alike due ts ts'
  pass_over : ∀ {t : Token} {ts : List Token}, ended (t :: ts) → ended ts
  retry_over : ∀ {t : Token} {ts more : List Token} {text : String}, ended (t :: ts) →
    t.retry.bind Retry.regex? = some (text, more) → ended more
  next : ∀ {due : List Mark} {ts ts' : List Token}, alike due ts ts' → ¬ended ts →
    ts = [] ∧ ts' = [] ∨
      ∃ t rest t' rest', ts = t :: rest ∧ ts' = t' :: rest' ∧ Twin alike due t rest t' rest'

end

section
variable {alike : List Mark → List Token → List Token → Prop} {ended : List Token → Prop}
  {α β : Type} {due due' : List Mark} {before : List Token → List Token → Prop}

/-- What the first reader finds in the first list, the second one finds in the second list, unless
the first list is over then. -/
def Follows (alike : List Mark → List Token → List Token → Prop) (ended : List Token → Prop)
    (before : List Token → List Token → Prop) (r r' : Reader α) (due : List Mark) : Prop :=
  ∀ ts ts' a left, before ts ts' → r.run ts = some (a, left) →
    ended left ∨ ¬ended ts ∧ ∃ left', r'.run ts' = some (a, left') ∧ alike due left left'

theorem Follows.pure {a : α} (h : ∀ ts ts', before ts ts' → alike due ts ts') :
    Follows alike ended before (pure a) (pure a) due := by
  rintro ts ts' _ _ hts ⟨⟩
  by_cases hover : ended ts
  · exact .inl hover
  · exact .inr ⟨hover, ts', rfl, h ts ts' hts⟩

theorem Follows.done {a : α} :
    Follows alike ended (alike due) (Pure.pure a : Reader α) (Pure.pure a) due :=
  .pure fun _ _ h => h

theorem Follows.failure {r' : Reader α} : Follows alike ended before failure r' due := by
  rintro ts ts' a left hts ⟨⟩

theorem Follows.failure_bind {f : α → Reader β} {r' : Reader β} :
    Follows alike ended before (Alternative.failure >>= f) r' due := by
  rintro ts ts' a left hts ⟨⟩

/-- What else is known of the lists may be forgotten. -/
theorem Follows.left {r r' : Reader α} {known : List Token → List Token → Prop}
    (h : Follows alike ended before r r' due) :
    Follows alike ended (fun ts ts' => before ts ts' ∧ known ts ts') r r' due :=
  fun ts ts' a left hts hrun => h ts ts' a left hts.1 hrun

variable (htwins : Twins alike ended)
include htwins

theorem Follows.bind {r r' : Reader α} {f f' : α → Reader β}
    (hr : Follows alike ended before r r' due)
    (hf : ∀ a, Follows alike ended (alike due) (f a) (f' a) due') :
    Follows alike ended before (r >>= f) (r' >>= f') due' := by
  intro ts ts' b last hts hrun
  rw [StateT.run_bind] at hrun
  obtain ⟨⟨a, left⟩, hfirst, hrest⟩ := Option.bind_eq_some_iff.1 hrun
  obtain hover | ⟨hts, left', hfirst', hleft⟩ := hr ts ts' a left hts hfirst
  · -- the first list is over already, and whatever is read of it leaves it over
    obtain hlast | ⟨hnot, -⟩ := hf a left left b last (htwins.of_over hover) hrest
    · exact .inl hlast
    · exact absurd hover hnot
  · obtain hlast | ⟨-, last', hrest', hlast⟩ := hf a left left' b last hleft hrest
    · exact .inl hlast
    · refine .inr ⟨hts, last', ?_, hlast⟩
      rw [StateT.run_bind, hfirst']
      exact hrest'

theorem Twins.nextKind_eq {ts ts' : List Token} (h : alike due ts ts') (hover : ¬ended ts) :
    nextKind ts' = nextKind ts := by
  obtain ⟨rfl, rfl⟩ | ⟨t, rest, t', rest', rfl, rfl, htwin⟩ := htwins.next h hover
  · rfl
  · exact htwin.kind

theorem Follows.peek {g g' : TokenKind → Reader β}
    (h : ∀ kind, Follows alike ended (fun ts ts' => alike due ts ts' ∧ nextKind ts = kind)
      (g kind) (g' kind) due') :
    Follows alike ended (alike due) (peek >>= g) (peek >>= g') due' := by
  intro ts ts' b left hts hrun
  rw [StateT.run_bind, run_peek_eq] at hrun
  obtain hover | ⟨hnot, left', hrun', hleft⟩ := h _ ts ts' b left ⟨hts, rfl⟩ hrun
  · exact .inl hover
  · refine .inr ⟨hnot, left', ?_, hleft⟩
    rw [StateT.run_bind, run_peek_eq, htwins.nextKind_eq hts hnot]
    exact hrun'

omit htwins in
theorem run_peekSecond_eq (ts : List Token) :
    peekSecond.run ts = some (nextKind ts.tail, ts) := by
  match ts with
  | [] | [_] | _ :: _ :: _ => rfl

theorem Follows.peekSecond {kind : TokenKind} (hkind : kind.leadsOn = true)
    {g g' : TokenKind → Reader β}
    (h : ∀ second, Follows alike ended
      (fun ts ts' => (alike due ts ts' ∧ nextKind ts = kind) ∧ nextKind ts.tail = second)
      (g second) (g' second) due') :
    Follows alike ended (fun ts ts' => alike due ts ts' ∧ nextKind ts = kind)
      (peekSecond >>= g) (peekSecond >>= g') due' := by
  intro ts ts' b left hts hrun
  rw [StateT.run_bind, run_peekSecond_eq] at hrun
  obtain hover | ⟨hnot, left', hrun', hleft⟩ := h _ ts ts' b left ⟨hts, rfl⟩ hrun
  · exact .inl hover
  · have hsecond : nextKind ts'.tail = nextKind ts.tail := by
      obtain ⟨rfl, rfl⟩ | ⟨t, rest, t', rest', rfl, rfl, htwin⟩ := htwins.next hts.1 hnot
      · rfl
      · exact htwin.second ((congrArg TokenKind.leadsOn hts.2).trans hkind)
    refine .inr ⟨hnot, left', ?_, hleft⟩
    rw [StateT.run_bind, run_peekSecond_eq, hsecond]
    exact hrun'

/-! ## Tokens that are passed -/

theorem Twins.over_tail {ts : List Token} (h : ended ts) : ended ts.tail := by
  cases ts with
  | nil => exact h
  | cons t ts => exact htwins.pass_over h

/-- The next token is passed in both lists. -/
theorem Twins.tail {ts ts' : List Token} {kind : TokenKind} (h : alike due ts ts')
    (hkind : nextKind ts = kind) (hcross : kind.cross due = some due') (heof : kind ≠ .eof) :
    alike due' ts.tail ts'.tail := by
  by_cases hover : ended ts
  · exact htwins.of_over (htwins.over_tail hover)
  · obtain ⟨rfl, -⟩ | ⟨t, rest, t', rest', rfl, rfl, htwin⟩ := htwins.next h hover
    · exact absurd hkind.symm heof
    · subst hkind
      exact htwin.pass hcross

/-- A token that was looked at is passed. -/
theorem Follows.skip {kind : TokenKind} {f f' : Unit → Reader β} {last : List Mark}
    (hcross : kind.cross due = some due') (heof : (kind == .eof) = false)
    (h : Follows alike ended (alike due') (f ()) (f' ()) last) :
    Follows alike ended (fun ts ts' => alike due ts ts' ∧ nextKind ts = kind)
      (skip >>= f) (skip >>= f') last := by
  intro ts ts' b left hts hrun
  have htail := htwins.tail hts.1 hts.2 hcross (ne_of_beq_false heof)
  obtain hover | ⟨hnot, left', hrun', hleft⟩ := h ts.tail ts'.tail b left htail hrun
  · exact .inl hover
  · exact .inr ⟨fun hover => hnot (htwins.over_tail hover), left', hrun', hleft⟩

/-- Two tokens that were looked at are passed. -/
theorem Follows.skipTwo {kind second : TokenKind} {f f' : Unit → Reader β}
    (hcross : kind.cross due = some due) (hcross' : second.cross due = some due)
    (heof : (kind == .eof) = false) (heof' : (second == .eof) = false)
    (h : Follows alike ended (alike due) (f ()) (f' ()) due') :
    Follows alike ended
      (fun ts ts' => (alike due ts ts' ∧ nextKind ts = kind) ∧ nextKind ts.tail = second)
      (Reader.skip >>= fun _ => Reader.skip >>= f) (Reader.skip >>= fun _ => Reader.skip >>= f')
      due' := by
  intro ts ts' b left hts hrun
  have htail := htwins.tail hts.1.1 hts.1.2 hcross (ne_of_beq_false heof)
  have hlast := Follows.skip htwins hcross' heof' h
  obtain hover | ⟨hnot, left', hrun', hleft⟩ := hlast ts.tail ts'.tail b left ⟨htail, hts.2⟩ hrun
  · exact .inl hover
  · exact .inr ⟨fun hover => hnot (htwins.over_tail hover), left', hrun', hleft⟩

theorem Follows.expect {kind : TokenKind} (hcross : kind.cross due = some due')
    (heof : (kind == .eof) = false) :
    Follows alike ended (alike due) (expect kind) (expect kind) due' := by
  refine .peek htwins fun found => ?_
  split
  case isTrue hfound =>
    subst hfound
    exact .skip htwins hcross heof .done
  case isFalse => exact .failure

theorem Follows.expectMark {m : Mark} (hcross : (TokenKind.mark m).cross due = some due') :
    Follows alike ended (alike due) (expectMark m) (expectMark m) due' :=
  .expect htwins hcross rfl

/-- A token is passed if it is this one. -/
theorem Follows.accept {kind : TokenKind} {yes yes' no no' : Reader β} {last : List Mark}
    (hcross : kind.cross due = some due') (heof : (kind == .eof) = false)
    (hyes : Follows alike ended (alike due') yes yes' last)
    (hno : Follows alike ended (alike due) no no' last) :
    Follows alike ended (alike due)
      (accept kind >>= fun found => if found = true then yes else no)
      (accept kind >>= fun found => if found = true then yes' else no') last := by
  simp only [Reader.accept, bind_assoc]
  refine .peek htwins fun found => ?_
  by_cases hfound : found = kind
  · subst hfound
    simp only [if_true, bind_assoc, pure_bind]
    exact .skip htwins hcross heof hyes
  · simp only [if_neg hfound, pure_bind, Bool.false_eq_true, if_false]
    exact hno.left

/-! ## Names and ends of statements -/

omit htwins in
/-- What passing and reading again keep stays over. -/
theorem Twins.kept_over (htwins : Twins alike ended) : Kept fun _ ts => ended ts where
  pass hover _ := htwins.pass_over hover
  retry := htwins.retry_over

theorem Follows.identifier : Follows alike ended (alike due) identifier identifier due := by
  refine .peek htwins fun kind => ?_
  split
  · exact .skip htwins rfl rfl .done
  · exact .failure

theorem Follows.fieldName : Follows alike ended (alike due) fieldName fieldName due := by
  refine .peek htwins fun kind => ?_
  split
  · exact .skip htwins rfl rfl .done
  · exact .skip htwins rfl rfl .done
  · exact .failure

theorem Follows.propertyKey : Follows alike ended (alike due) propertyKey propertyKey due := by
  refine .peek htwins fun kind => ?_
  split
  · exact .skip htwins rfl rfl .done
  · exact .skip htwins rfl rfl .done
  · exact .left (.bind htwins (.fieldName htwins) fun _ => .done)

omit htwins in
theorem run_endStatement_cons (t : Token) (rest : List Token) :
    endStatement.run (t :: rest) = match t.kind with
      | .mark .semi | .lineSemi => some ((), rest)
      | .mark .rbrace | .eof => some ((), t :: rest)
      | _ => if t.afterLineEnd then some ((), t :: rest) else none := by
  have hget : (get : Reader (List Token)).run (t :: rest) = some (t :: rest, t :: rest) := rfl
  rw [Reader.endStatement, StateT.run_bind, hget]
  show StateT.run (match t.kind with
    | .mark .semi | .lineSemi => _
    | .mark .rbrace | .eof => _
    | _ => _) _ = _
  split
  case h_5 => split <;> rfl
  all_goals rfl

theorem Follows.endStatement : Follows alike ended (alike due) endStatement endStatement due := by
  intro ts ts' a left hts hrun
  by_cases hover : ended ts
  · have hkept : Yields (fun _ ts => ended ts) due Reader.endStatement (fun _ => True) due :=
      htwins.kept_over.endStatement
    exact .inl (hkept ts a left hover hrun).2
  refine .inr ⟨hover, ?_⟩
  obtain ⟨rfl, rfl⟩ | ⟨t, rest, t', rest', rfl, rfl, htwin⟩ := htwins.next hts hover
  · cases hrun
    exact ⟨[], rfl, hts⟩
  rw [run_endStatement_cons] at hrun ⊢
  rw [htwin.kind, htwin.line]
  split at hrun
  case h_1 hkind | h_2 hkind =>
    cases hrun
    exact ⟨rest', rfl, htwin.pass (by rw [hkind]; rfl)⟩
  case h_3 hkind | h_4 hkind =>
    cases hrun
    exact ⟨t' :: rest', rfl, hts⟩
  case h_5 =>
    split at hrun
    case isFalse => cases hrun
    case isTrue hline =>
      cases hrun
      exact ⟨t' :: rest', if_pos hline, hts⟩

theorem Follows.optionalLabel :
    Follows alike ended (alike due) optionalLabel optionalLabel due := by
  have hend : ∀ label : Option String, Follows alike ended (alike due)
      (Reader.endStatement >>= fun _ => Pure.pure label)
      (Reader.endStatement >>= fun _ => Pure.pure label) due :=
    fun _ => .bind htwins (.endStatement htwins) fun _ => .done
  refine .peek htwins fun kind => ?_
  simp only [pure_bind]
  split
  · exact .skip htwins rfl rfl (hend _)
  · exact .left (hend _)

theorem Follows.commas {fuel fuel' : Nat} (hfuel : fuel ≤ fuel') :
    Follows alike ended (alike due) (commas fuel) (commas fuel') due := by
  induction fuel generalizing fuel' with
  | zero => exact .failure
  | succ fuel ih =>
    obtain ⟨fuel', rfl⟩ := Nat.exists_eq_succ_of_ne_zero (Nat.ne_zero_of_lt hfuel)
    rw [Reader.commas, Reader.commas]
    exact .accept htwins rfl rfl
      (.bind htwins (ih (Nat.le_of_succ_le_succ hfuel)) fun _ => .done) .done

theorem Follows.moreNames {fuel fuel' : Nat} (hfuel : fuel ≤ fuel') :
    Follows alike ended (alike due) (moreNames fuel) (moreNames fuel') due := by
  induction fuel generalizing fuel' with
  | zero => exact .failure
  | succ fuel ih =>
    obtain ⟨fuel', rfl⟩ := Nat.exists_eq_succ_of_ne_zero (Nat.ne_zero_of_lt hfuel)
    rw [Reader.moreNames, Reader.moreNames]
    refine .accept htwins rfl rfl (.bind htwins (.identifier htwins) fun _ => ?_) .done
    exact .bind htwins (ih (Nat.le_of_succ_le_succ hfuel)) fun _ => .done

theorem Follows.params {fuel fuel' : Nat} (hfuel : fuel ≤ fuel') :
    Follows alike ended (alike due) (params fuel) (params fuel') due := by
  refine .bind htwins (.expectMark htwins rfl) fun _ => .accept htwins rfl rfl .done ?_
  refine .bind htwins (.identifier htwins) fun _ =>
    .bind htwins (.moreNames htwins hfuel) fun _ => ?_
  exact .bind htwins (.expectMark htwins rfl) fun _ => .done

theorem Follows.stepTail {left : Expr} :
    Follows alike ended (alike due) (stepTail left) (stepTail left) due := by
  refine .peek htwins fun kind => ?_
  split
  case h_1 op hop =>
    obtain ⟨hkind, hcross⟩ := crossed_of_step hop
    exact .skip htwins (hcross due) (beq_false_of_ne hkind) .done
  case h_2 => exact .left .done

end

/-! ## One level of reading -/

section
variable (alike : List Mark → List Token → List Token → Prop) (ended : List Token → Prop)

/-- Reading from lists that are alike gives the same with these bounds on the depth of calls. -/
structure Agrees (fuel fuel' : Nat) : Prop where
  le : fuel ≤ fuel'
  expr : ∀ (place : Place) (due : List Mark),
    Follows alike ended (alike due) (expr fuel place) (expr fuel' place) due
  commaTail : ∀ (place : Place) (left : Expr) (due : List Mark),
    Follows alike ended (alike due) (commaTail fuel place left) (commaTail fuel' place left) due
  assignment : ∀ (place : Place) (due : List Mark),
    Follows alike ended (alike due) (assignment fuel place) (assignment fuel' place) due
  assignmentTail : ∀ (place : Place) (left : Expr) (due : List Mark),
    Follows alike ended (alike due)
    (assignmentTail fuel place left) (assignmentTail fuel' place left) due
  operators : ∀ (place : Place) (first : Expr) (due : List Mark), Follows alike ended (alike due)
    (operators fuel place first) (operators fuel' place first) due
  binaryTail : ∀ (place : Place) (level : Nat) (left : Expr) (due : List Mark),
    Follows alike ended (alike due) (binaryTail fuel place level left)
      (binaryTail fuel' place level left) due
  unary : ∀ due : List Mark, Follows alike ended (alike due) (unary fuel) (unary fuel') due
  leftHandSide : ∀ due : List Mark,
    Follows alike ended (alike due) (leftHandSide fuel) (leftHandSide fuel') due
  callTail : ∀ (e : Expr) (due : List Mark),
    Follows alike ended (alike due) (callTail fuel e) (callTail fuel' e) due
  memberTail : ∀ (e : Expr) (due : List Mark),
    Follows alike ended (alike due) (memberTail fuel e) (memberTail fuel' e) due
  construction : ∀ due : List Mark,
    Follows alike ended (alike due) (construction fuel) (construction fuel') due
  arguments : ∀ due : List Mark,
    Follows alike ended (alike due) (arguments fuel) (arguments fuel') due
  moreArguments : ∀ due : List Mark,
    Follows alike ended (alike (.rparen :: due)) (moreArguments fuel) (moreArguments fuel') due
  primary : ∀ due : List Mark, Follows alike ended (alike due) (primary fuel) (primary fuel') due
  arrayItems : ∀ due : List Mark,
    Follows alike ended (alike (.rbracket :: due)) (arrayItems fuel) (arrayItems fuel') due
  objectProperties : ∀ due : List Mark, Follows alike ended (alike (.rbrace :: due))
    (objectProperties fuel) (objectProperties fuel') due
  property : ∀ due : List Mark, Follows alike ended (alike due) (property fuel) (property fuel') due
  braced : ∀ due : List Mark, Follows alike ended (alike due) (braced fuel) (braced fuel') due
  statements : ∀ due : List Mark,
    Follows alike ended (alike due) (statements fuel) (statements fuel') due
  statement : ∀ due : List Mark,
    Follows alike ended (alike due) (statement fuel) (statement fuel') due
  expressionStatement : ∀ due : List Mark,
    Follows alike ended (alike due) (expressionStatement fuel) (expressionStatement fuel') due
  functionStatement : ∀ due : List Mark,
    Follows alike ended (fun ts ts' => alike due ts ts' ∧ nextKind ts = .keyword .function)
      (functionStatement fuel) (functionStatement fuel') due
  parenthesized : ∀ due : List Mark,
    Follows alike ended (alike due) (parenthesized fuel) (parenthesized fuel') due
  bindings : ∀ (place : Place) (due : List Mark),
    Follows alike ended (alike due) (bindings fuel place) (bindings fuel' place) due
  ifTail : ∀ due : List Mark, Follows alike ended (alike due) (ifTail fuel) (ifTail fuel') due
  forTail : ∀ due : List Mark, Follows alike ended (alike due) (forTail fuel) (forTail fuel') due
  loopInTail : ∀ due : List Mark,
    Follows alike ended (alike (.rparen :: due)) (loopInTail fuel) (loopInTail fuel') due
  loopTail : ∀ (start : LoopStart) (due : List Mark), Follows alike ended (alike (.rparen :: due))
    (loopTail fuel start) (loopTail fuel' start) due
  clauses : ∀ due : List Mark, Follows alike ended (alike due) (clauses fuel) (clauses fuel') due
  tryTail : ∀ due : List Mark, Follows alike ended (alike due) (tryTail fuel) (tryTail fuel') due

end

section
variable {alike : List Mark → List Token → List Token → Prop} {ended : List Token → Prop}
  {fuel fuel' : Nat} {due : List Mark} {place : Place}

theorem agrees_zero : Agrees alike ended 0 fuel' := by
  constructor
  case le => exact Nat.zero_le fuel'
  all_goals
    intros
    exact Follows.failure

variable (htwins : Twins alike ended) (h : Agrees alike ended fuel fuel')

/-! ### Expressions -/

include htwins h

theorem Agrees.expr_succ :
    Follows alike ended (alike due) (Reader.expr (fuel + 1) place) (Reader.expr (fuel' + 1) place)
      due := by
  rw [Reader.expr, Reader.expr]
  exact .bind htwins (h.assignment _ _) fun _ => h.commaTail _ _ _

theorem Agrees.commaTail_succ {left : Expr} :
    Follows alike ended (alike due) (Reader.commaTail (fuel + 1) place left)
      (Reader.commaTail (fuel' + 1) place left) due := by
  rw [Reader.commaTail, Reader.commaTail]
  exact .accept htwins rfl rfl
    (.bind htwins (h.assignment _ _) fun _ => h.commaTail _ _ _) .done

theorem Agrees.assignment_succ :
    Follows alike ended (alike due) (Reader.assignment (fuel + 1) place)
      (Reader.assignment (fuel' + 1) place) due := by
  rw [Reader.assignment, Reader.assignment]
  refine .peek htwins fun kind => .left ?_
  split
  · exact .bind htwins (h.unary _) fun _ => h.operators _ _ _
  · exact .bind htwins (h.leftHandSide _) fun _ => h.assignmentTail _ _ _

theorem Agrees.assignmentTail_succ {left : Expr} :
    Follows alike ended (alike due) (Reader.assignmentTail (fuel + 1) place left)
      (Reader.assignmentTail (fuel' + 1) place left) due := by
  rw [Reader.assignmentTail, Reader.assignmentTail]
  refine .peek htwins fun kind => ?_
  split
  case h_1 op hop =>
    obtain ⟨hkind, hcross⟩ := crossed_of_assign hop
    exact .skip htwins (hcross due) (beq_false_of_ne hkind)
      (.bind htwins (h.assignment _ _) fun _ => .done)
  case h_2 => exact .left (.bind htwins (.stepTail htwins) fun _ => h.operators _ _ _)

theorem Agrees.operators_succ {first : Expr} :
    Follows alike ended (alike due) (Reader.operators (fuel + 1) place first)
      (Reader.operators (fuel' + 1) place first) due := by
  rw [Reader.operators, Reader.operators]
  refine .bind htwins (h.binaryTail _ _ _ _) fun _ => .accept htwins rfl rfl ?_ .done
  refine .bind htwins (h.assignment _ _) fun _ => .bind htwins (.expectMark htwins rfl) fun _ => ?_
  exact .bind htwins (h.assignment _ _) fun _ => .done

theorem Agrees.binaryTail_succ {level : Nat} {left : Expr} :
    Follows alike ended (alike due) (Reader.binaryTail (fuel + 1) place level left)
      (Reader.binaryTail (fuel' + 1) place level left) due := by
  rw [Reader.binaryTail, Reader.binaryTail]
  refine .peek htwins fun kind => ?_
  split
  case h_1 op hop =>
    split
    · obtain ⟨hkind, hcross⟩ := crossed_of_binary hop
      refine .skip htwins (hcross due) (beq_false_of_ne hkind) (.peek htwins fun next => .left ?_)
      dsimp only
      split
      · exact .failure_bind
      · refine .bind htwins (h.unary _) fun _ => .bind htwins (h.binaryTail _ _ _ _) fun _ => ?_
        exact h.binaryTail _ _ _ _
    · exact .left .done
  case h_2 => exact .left .done

theorem Agrees.unary_succ :
    Follows alike ended (alike due) (Reader.unary (fuel + 1)) (Reader.unary (fuel' + 1)) due := by
  rw [Reader.unary, Reader.unary]
  refine .peek htwins fun kind => ?_
  split
  case h_1 op hop =>
    obtain ⟨hkind, hcross⟩ := crossed_of_unary hop
    exact .skip htwins (hcross due) (beq_false_of_ne hkind)
      (.bind htwins (h.unary _) fun _ => .done)
  case h_2 => exact .left (.bind htwins (h.leftHandSide _) fun _ => .stepTail htwins)

theorem Agrees.leftHandSide_succ :
    Follows alike ended (alike due) (Reader.leftHandSide (fuel + 1))
      (Reader.leftHandSide (fuel' + 1)) due := by
  rw [Reader.leftHandSide, Reader.leftHandSide]
  exact .bind htwins (h.construction _) fun _ => h.callTail _ _

theorem Agrees.callTail_succ {e : Expr} :
    Follows alike ended (alike due) (Reader.callTail (fuel + 1) e) (Reader.callTail (fuel' + 1) e)
      due := by
  rw [Reader.callTail, Reader.callTail]
  refine .peek htwins fun kind => ?_
  split
  · exact .skip htwins rfl rfl (.bind htwins (.fieldName htwins) fun _ => h.callTail _ _)
  · refine .skip htwins rfl rfl (.bind htwins (h.expr _ _) fun _ => ?_)
    exact .bind htwins (.expectMark htwins rfl) fun _ => h.callTail _ _
  · exact .left (.bind htwins (h.arguments _) fun _ => h.callTail _ _)
  · exact .left .done

theorem Agrees.memberTail_succ {e : Expr} :
    Follows alike ended (alike due) (Reader.memberTail (fuel + 1) e)
      (Reader.memberTail (fuel' + 1) e) due := by
  rw [Reader.memberTail, Reader.memberTail]
  refine .peek htwins fun kind => ?_
  split
  · exact .skip htwins rfl rfl (.bind htwins (.fieldName htwins) fun _ => h.memberTail _ _)
  · refine .skip htwins rfl rfl (.bind htwins (h.expr _ _) fun _ => ?_)
    exact .bind htwins (.expectMark htwins rfl) fun _ => h.memberTail _ _
  · exact .left .done

theorem Agrees.construction_succ :
    Follows alike ended (alike due) (Reader.construction (fuel + 1))
      (Reader.construction (fuel' + 1)) due := by
  rw [Reader.construction, Reader.construction]
  refine .accept htwins rfl rfl ?_ (h.primary _)
  refine .bind htwins (h.construction _) fun _ => .bind htwins (h.memberTail _ _) fun _ => ?_
  refine .peek htwins fun next => .left ?_
  split
  · exact .bind htwins (h.arguments _) fun _ => .done
  · exact .done

theorem Agrees.arguments_succ :
    Follows alike ended (alike due) (Reader.arguments (fuel + 1)) (Reader.arguments (fuel' + 1))
      due := by
  rw [Reader.arguments, Reader.arguments]
  refine .bind htwins (.expectMark htwins rfl) fun _ => .accept htwins rfl rfl .done ?_
  exact .bind htwins (h.assignment _ _) fun _ => .bind htwins (h.moreArguments _) fun _ => .done

theorem Agrees.moreArguments_succ :
    Follows alike ended (alike (.rparen :: due)) (Reader.moreArguments (fuel + 1))
      (Reader.moreArguments (fuel' + 1)) due := by
  rw [Reader.moreArguments, Reader.moreArguments]
  refine .accept htwins rfl rfl ?_ (.bind htwins (.expectMark htwins rfl) fun _ => .done)
  exact .bind htwins (h.assignment _ _) fun _ => .bind htwins (h.moreArguments _) fun _ => .done

theorem Agrees.arrayItems_succ :
    Follows alike ended (alike (.rbracket :: due)) (Reader.arrayItems (fuel + 1))
      (Reader.arrayItems (fuel' + 1)) due := by
  rw [Reader.arrayItems, Reader.arrayItems]
  refine .bind htwins (.commas htwins h.le) fun _ => .accept htwins rfl rfl .done ?_
  refine .bind htwins (h.assignment _ _) fun _ => .accept htwins rfl rfl ?_ ?_
  · exact .bind htwins (h.arrayItems _) fun _ => .done
  · exact .bind htwins (.expectMark htwins rfl) fun _ => .done

theorem Agrees.objectProperties_succ :
    Follows alike ended (alike (.rbrace :: due)) (Reader.objectProperties (fuel + 1))
      (Reader.objectProperties (fuel' + 1)) due := by
  rw [Reader.objectProperties, Reader.objectProperties]
  refine .accept htwins rfl rfl .done (.bind htwins (h.property _) fun _ => ?_)
  refine .accept htwins rfl rfl (.bind htwins (h.objectProperties _) fun _ => .done) ?_
  exact .bind htwins (.expectMark htwins rfl) fun _ => .done

theorem Agrees.property_succ :
    Follows alike ended (alike due) (Reader.property (fuel + 1)) (Reader.property (fuel' + 1))
      due := by
  rw [Reader.property, Reader.property]
  refine .accept htwins rfl rfl ?_ (.accept htwins rfl rfl ?_ ?_)
  · refine .bind htwins (.propertyKey htwins) fun _ =>
      .bind htwins (.expectMark htwins rfl) fun _ => ?_
    exact .bind htwins (.expectMark htwins rfl) fun _ => .bind htwins (h.braced _) fun _ => .done
  · refine .bind htwins (.propertyKey htwins) fun _ =>
      .bind htwins (.expectMark htwins rfl) fun _ => ?_
    refine .bind htwins (.identifier htwins) fun _ =>
      .bind htwins (.expectMark htwins rfl) fun _ => ?_
    exact .bind htwins (h.braced _) fun _ => .done
  · refine .bind htwins (.propertyKey htwins) fun _ =>
      .bind htwins (.expectMark htwins rfl) fun _ => ?_
    exact .bind htwins (h.assignment _ _) fun _ => .done

theorem Agrees.primary_succ :
    Follows alike ended (alike due) (Reader.primary (fuel + 1))
      (Reader.primary (fuel' + 1)) due := by
  intro ts ts' e left hts hrun
  by_cases hover : ended ts
  · have hkept := (upholds_of_kept htwins.kept_over (fuel + 1)).primary due
    exact .inl (hkept ts e left hover hrun).2
  obtain ⟨rfl, rfl⟩ | ⟨t, rest, t', rest', rfl, rfl, htwin⟩ := htwins.next hts hover
  · rw [Reader.primary] at hrun
    cases hrun
  -- the first token is passed, and then the same is read behind it
  have hpass : ∀ {due' : List Mark} {g g' : Unit → Reader Expr},
      (set rest >>= g).run (t :: rest) = some (e, left) → t.kind.cross due = some due' →
      Follows alike ended (alike due') (g ()) (g' ()) due → ended left ∨
        ∃ left', (set rest' >>= g').run (t' :: rest') = some (e, left') ∧ alike due left left' :=
    fun hrun hcross hread => (hread rest rest' e left (htwin.pass hcross) hrun).imp_right And.right
  refine Or.imp_right (And.intro hover) ?_
  rw [Reader.primary, StateT.run_bind, StateT.run_get] at hrun ⊢
  simp only [Option.bind_eq_bind, Option.bind_some, Option.pure_def, htwin.kind] at hrun ⊢
  split at hrun
  case h_9 hkind =>
    refine hpass hrun (by rw [hkind]; rfl) (.peek htwins fun next => ?_)
    have hfunction : ∀ name : Option String, Follows alike ended (alike due)
        (params fuel >>= fun ps => Reader.braced fuel >>= fun body => pure (Expr.func name ps body))
        (params fuel' >>= fun ps =>
          Reader.braced fuel' >>= fun body => pure (Expr.func name ps body)) due :=
      fun _ => .bind htwins (.params htwins h.le) fun _ =>
        .bind htwins (h.braced _) fun _ => .done
    simp only [pure_bind]
    split
    · exact .skip htwins rfl rfl (hfunction _)
    · exact .left (hfunction _)
  case h_10 hkind =>
    refine hpass hrun (by rw [hkind]; rfl) (.bind htwins (h.expr _ _) fun _ => ?_)
    exact .bind htwins (.expectMark htwins rfl) fun _ => .done
  case h_11 hkind =>
    exact hpass hrun (by rw [hkind]; rfl) (.bind htwins (h.arrayItems _) fun _ => .done)
  case h_12 hkind =>
    exact hpass hrun (by rw [hkind]; rfl) (.bind htwins (h.objectProperties _) fun _ => .done)
  case h_13 hkind =>
    split at hrun
    case h_1 text more hretry =>
      cases hrun
      obtain ⟨more', hretry', hmore⟩ := htwin.retry hretry
      refine .inr ⟨more', ?_, hmore⟩
      rw [hretry']
      rfl
    case h_2 => cases hrun
  case h_14 => cases hrun
  all_goals
    rename_i hkind
    exact hpass hrun (by rw [hkind]; rfl) .done

/-! ### Statements -/

theorem Agrees.braced_succ :
    Follows alike ended (alike due) (Reader.braced (fuel + 1)) (Reader.braced (fuel' + 1)) due := by
  rw [Reader.braced, Reader.braced]
  refine .bind htwins (.expectMark htwins rfl) fun _ => .bind htwins (h.statements _) fun _ => ?_
  exact .bind htwins (.expectMark htwins rfl) fun _ => .done

theorem Agrees.statements_succ :
    Follows alike ended (alike due) (Reader.statements (fuel + 1)) (Reader.statements (fuel' + 1))
      due := by
  rw [Reader.statements, Reader.statements]
  refine .peek htwins fun kind => .left ?_
  split
  case h_5 =>
    exact .bind htwins (h.statement _) fun _ => .bind htwins (h.statements _) fun _ => .done
  all_goals exact .done

theorem Agrees.statement_succ :
    Follows alike ended (alike due) (Reader.statement (fuel + 1)) (Reader.statement (fuel' + 1))
      due := by
  rw [Reader.statement, Reader.statement]
  refine .peek htwins fun kind => ?_
  split
  case h_1 => exact .left (.bind htwins (h.braced _) fun _ => .done)
  case h_2 => exact .skip htwins rfl rfl .done
  case h_3 word =>
    have hword : ∀ {g g' : Reader Stmt}, Follows alike ended (alike due) g g' due →
        Follows alike ended (fun ts ts' => alike due ts ts' ∧ nextKind ts = .keyword word)
          (skip >>= fun _ => g) (skip >>= fun _ => g') due := fun hg => .skip htwins rfl rfl hg
    split
    · refine hword (.bind htwins (h.bindings _ _) fun _ => ?_)
      exact .bind htwins (.endStatement htwins) fun _ => .done
    · exact hword (h.ifTail _)
    · exact hword (h.forTail _)
    · refine hword (.bind htwins (h.parenthesized _) fun _ => ?_)
      exact .bind htwins (h.statement _) fun _ => .done
    · refine hword (.bind htwins (h.statement _) fun _ => ?_)
      refine .bind htwins (.expect htwins rfl rfl) fun _ =>
        .bind htwins (h.parenthesized _) fun _ => ?_
      exact .bind htwins (.endStatement htwins) fun _ => .done
    · exact hword (.bind htwins (.optionalLabel htwins) fun _ => .done)
    · exact hword (.bind htwins (.optionalLabel htwins) fun _ => .done)
    · refine hword (.peek htwins fun next => .left ?_)
      split
      · refine .bind htwins (h.expr _ _) fun _ => ?_
        exact .bind htwins (.endStatement htwins) fun _ => .done
      · exact .bind htwins (.endStatement htwins) fun _ => .done
    · refine hword (.bind htwins (h.parenthesized _) fun _ => ?_)
      exact .bind htwins (h.statement _) fun _ => .done
    · refine hword (.bind htwins (h.parenthesized _) fun _ => ?_)
      refine .bind htwins (.expectMark htwins rfl) fun _ => .bind htwins (h.clauses _) fun _ => ?_
      refine .bind htwins (.expectMark htwins rfl) fun _ => ?_
      split
      · exact .failure
      · exact .done
    · refine hword (.bind htwins (h.expr _ _) fun _ => ?_)
      exact .bind htwins (.endStatement htwins) fun _ => .done
    · exact hword (.bind htwins (.endStatement htwins) fun _ => .done)
    · exact hword (h.tryTail _)
    · exact h.functionStatement _
    · exact .left (h.expressionStatement _)
  case h_4 id =>
    refine .peekSecond htwins rfl fun second => ?_
    split
    case isTrue hsecond =>
      subst hsecond
      exact .skipTwo htwins rfl rfl rfl rfl (.bind htwins (h.statement _) fun _ => .done)
    case isFalse => exact .left (.left (h.expressionStatement _))
  case h_5 => exact .left (h.expressionStatement _)

theorem Agrees.expressionStatement_succ :
    Follows alike ended (alike due) (Reader.expressionStatement (fuel + 1))
      (Reader.expressionStatement (fuel' + 1)) due := by
  rw [Reader.expressionStatement, Reader.expressionStatement]
  refine .bind htwins (h.expr _ _) fun _ => .bind htwins (.endStatement htwins) fun _ => ?_
  split
  · exact .failure
  · exact .done

theorem Agrees.functionStatement_succ :
    Follows alike ended (fun ts ts' => alike due ts ts' ∧ nextKind ts = .keyword .function)
      (Reader.functionStatement (fuel + 1)) (Reader.functionStatement (fuel' + 1)) due := by
  rw [Reader.functionStatement, Reader.functionStatement]
  refine .peekSecond htwins rfl fun second => ?_
  split
  case h_1 id =>
    refine .skipTwo htwins rfl rfl rfl rfl (.bind htwins (.params htwins h.le) fun _ => ?_)
    refine .bind htwins (h.braced _) fun _ => .peek htwins fun next => .left ?_
    split
    · refine .bind htwins (h.callTail _ _) fun _ =>
        .bind htwins (h.assignmentTail _ _ _) fun _ => ?_
      refine .bind htwins (h.commaTail _ _ _) fun _ => ?_
      exact .bind htwins (.endStatement htwins) fun _ => .done
    · exact .done
  case h_2 => exact .left (.left (h.expressionStatement _))

theorem Agrees.parenthesized_succ :
    Follows alike ended (alike due) (Reader.parenthesized (fuel + 1))
      (Reader.parenthesized (fuel' + 1)) due := by
  rw [Reader.parenthesized, Reader.parenthesized]
  refine .bind htwins (.expectMark htwins rfl) fun _ => .bind htwins (h.expr _ _) fun _ => ?_
  exact .bind htwins (.expectMark htwins rfl) fun _ => .done

theorem Agrees.bindings_succ :
    Follows alike ended (alike due) (Reader.bindings (fuel + 1) place)
      (Reader.bindings (fuel' + 1) place) due := by
  have hmore : ∀ b : Binding, Follows alike ended (alike due)
      (accept (.mark .comma) >>= fun found => if found = true then
        Reader.bindings fuel place >>= fun rest => pure (b :: rest) else pure [b])
      (accept (.mark .comma) >>= fun found => if found = true then
        Reader.bindings fuel' place >>= fun rest => pure (b :: rest) else pure [b]) due :=
    fun _ => .accept htwins rfl rfl (.bind htwins (h.bindings _ _) fun _ => .done) .done
  rw [Reader.bindings, Reader.bindings]
  refine .bind htwins (.identifier htwins) fun name => ?_
  simp only [pure_bind]
  exact .accept htwins rfl rfl (.bind htwins (h.assignment _ _) fun _ => hmore _) (hmore _)

theorem Agrees.ifTail_succ :
    Follows alike ended (alike due) (Reader.ifTail (fuel + 1)) (Reader.ifTail (fuel' + 1)) due := by
  rw [Reader.ifTail, Reader.ifTail]
  refine .bind htwins (h.parenthesized _) fun _ => .bind htwins (h.statement _) fun _ => ?_
  exact .accept htwins rfl rfl (.bind htwins (h.statement _) fun _ => .done) .done

theorem Agrees.forTail_succ :
    Follows alike ended (alike due) (Reader.forTail (fuel + 1)) (Reader.forTail (fuel' + 1))
      due := by
  have hplain : ∀ start : LoopStart, Follows alike ended (alike (.rparen :: due))
      (expectMark .semi >>= fun _ => Reader.loopTail fuel start)
      (expectMark .semi >>= fun _ => Reader.loopTail fuel' start) due :=
    fun _ => .bind htwins (.expectMark htwins rfl) fun _ => h.loopTail _ _
  rw [Reader.forTail, Reader.forTail]
  refine .bind htwins (.expectMark htwins rfl) fun _ => .peek htwins fun kind => ?_
  split
  case isTrue hkind =>
    subst hkind
    exact .skip htwins rfl rfl (h.loopTail _ _)
  case isFalse =>
    split
    case isTrue hkind =>
      subst hkind
      refine .skip htwins rfl rfl (.bind htwins (h.bindings _ _) fun declared => ?_)
      split
      · refine .accept htwins rfl rfl ?_ (hplain _)
        exact .bind htwins (h.loopInTail _) fun _ => .done
      · exact hplain _
    case isFalse =>
      refine .left ?_
      split
      · exact .bind htwins (h.expr _ _) fun _ => hplain _
      · refine .bind htwins (h.leftHandSide _) fun _ => .accept htwins rfl rfl ?_ ?_
        · exact .bind htwins (h.loopInTail _) fun _ => .done
        · refine .bind htwins (h.assignmentTail _ _ _) fun _ => ?_
          exact .bind htwins (h.commaTail _ _ _) fun _ => hplain _

theorem Agrees.loopInTail_succ :
    Follows alike ended (alike (.rparen :: due)) (Reader.loopInTail (fuel + 1))
      (Reader.loopInTail (fuel' + 1)) due := by
  rw [Reader.loopInTail, Reader.loopInTail]
  refine .bind htwins (h.expr _ _) fun _ => .bind htwins (.expectMark htwins rfl) fun _ => ?_
  exact .bind htwins (h.statement _) fun _ => .done

theorem Agrees.loopTail_succ {start : LoopStart} :
    Follows alike ended (alike (.rparen :: due)) (Reader.loopTail (fuel + 1) start)
      (Reader.loopTail (fuel' + 1) start) due := by
  rw [Reader.loopTail, Reader.loopTail]
  simp only [pure_bind]
  have hbody : ∀ test next : Option Expr, Follows alike ended (alike due)
      (Reader.statement fuel >>= fun body => pure (Stmt.loop start test next body))
      (Reader.statement fuel' >>= fun body => pure (Stmt.loop start test next body)) due :=
    fun _ _ => .bind htwins (h.statement _) fun _ => .done
  have hnext : ∀ test : Option Expr, Follows alike ended (alike (.rparen :: due))
      (accept (.mark .rparen) >>= fun found => if found = true then
          Reader.statement fuel >>= fun body => pure (Stmt.loop start test none body)
        else Reader.expr fuel .free >>= fun e => expectMark .rparen >>= fun _ =>
          Reader.statement fuel >>= fun body => pure (Stmt.loop start test (some e) body))
      (accept (.mark .rparen) >>= fun found => if found = true then
          Reader.statement fuel' >>= fun body => pure (Stmt.loop start test none body)
        else Reader.expr fuel' .free >>= fun e => expectMark .rparen >>= fun _ =>
          Reader.statement fuel' >>= fun body =>
            pure (Stmt.loop start test (some e) body)) due := by
    refine fun test => .accept htwins rfl rfl (hbody _ _) ?_
    exact .bind htwins (h.expr _ _) fun _ =>
      .bind htwins (.expectMark htwins rfl) fun _ => hbody _ _
  refine .accept htwins rfl rfl (hnext _) ?_
  exact .bind htwins (h.expr _ _) fun _ => .bind htwins (.expectMark htwins rfl) fun _ => hnext _

theorem Agrees.clauses_succ :
    Follows alike ended (alike due) (Reader.clauses (fuel + 1)) (Reader.clauses (fuel' + 1))
      due := by
  have hbody : ∀ make : List Stmt → Clause, Follows alike ended (alike due)
      (expectMark .colon >>= fun _ => Reader.statements fuel >>= fun body =>
        Reader.clauses fuel >>= fun rest => pure (make body :: rest))
      (expectMark .colon >>= fun _ => Reader.statements fuel' >>= fun body =>
        Reader.clauses fuel' >>= fun rest => pure (make body :: rest)) due := by
    refine fun make => .bind htwins (.expectMark htwins rfl) fun _ => ?_
    exact .bind htwins (h.statements _) fun _ => .bind htwins (h.clauses _) fun _ => .done
  rw [Reader.clauses, Reader.clauses]
  refine .accept htwins rfl rfl ?_ (.accept htwins rfl rfl (hbody .otherwise) .done)
  exact .bind htwins (h.expr _ _) fun label => hbody (.on label)

theorem Agrees.tryTail_succ :
    Follows alike ended (alike due) (Reader.tryTail (fuel + 1)) (Reader.tryTail (fuel' + 1))
      due := by
  rw [Reader.tryTail, Reader.tryTail]
  refine .bind htwins (h.braced _) fun _ => .accept htwins rfl rfl ?_ ?_
  · refine .bind htwins (.expectMark htwins rfl) fun _ =>
      .bind htwins (.identifier htwins) fun _ => ?_
    refine .bind htwins (.expectMark htwins rfl) fun _ => .bind htwins (h.braced _) fun _ => ?_
    exact .accept htwins rfl rfl (.bind htwins (h.braced _) fun _ => .done) .done
  · refine .bind htwins (.expect htwins rfl rfl) fun _ => ?_
    exact .bind htwins (h.braced _) fun _ => .done

end

/-! ## Every bound -/

/-- From lists that are alike the same is read, with any bound that is large enough for the first
one, unless that one is over then. -/
theorem agrees {alike : List Mark → List Token → List Token → Prop} {ended : List Token → Prop}
    (htwins : Twins alike ended) {fuel fuel' : Nat} (hfuel : fuel ≤ fuel') :
    Agrees alike ended fuel fuel' := by
  induction fuel generalizing fuel' with
  | zero => exact agrees_zero
  | succ fuel ih =>
    obtain ⟨fuel', rfl⟩ := Nat.exists_eq_succ_of_ne_zero (Nat.ne_zero_of_lt hfuel)
    have h := ih (Nat.le_of_succ_le_succ hfuel)
    exact
      { le := hfuel
        expr := fun _ _ => h.expr_succ htwins
        commaTail := fun _ _ _ => h.commaTail_succ htwins
        assignment := fun _ _ => h.assignment_succ htwins
        assignmentTail := fun _ _ _ => h.assignmentTail_succ htwins
        operators := fun _ _ _ => h.operators_succ htwins
        binaryTail := fun _ _ _ _ => h.binaryTail_succ htwins
        unary := fun _ => h.unary_succ htwins
        leftHandSide := fun _ => h.leftHandSide_succ htwins
        callTail := fun _ _ => h.callTail_succ htwins
        memberTail := fun _ _ => h.memberTail_succ htwins
        construction := fun _ => h.construction_succ htwins
        arguments := fun _ => h.arguments_succ htwins
        moreArguments := fun _ => h.moreArguments_succ htwins
        primary := fun _ => h.primary_succ htwins
        arrayItems := fun _ => h.arrayItems_succ htwins
        objectProperties := fun _ => h.objectProperties_succ htwins
        property := fun _ => h.property_succ htwins
        braced := fun _ => h.braced_succ htwins
        statements := fun _ => h.statements_succ htwins
        statement := fun _ => h.statement_succ htwins
        expressionStatement := fun _ => h.expressionStatement_succ htwins
        functionStatement := fun _ => h.functionStatement_succ htwins
        parenthesized := fun _ => h.parenthesized_succ htwins
        bindings := fun _ _ => h.bindings_succ htwins
        ifTail := fun _ => h.ifTail_succ htwins
        forTail := fun _ => h.forTail_succ htwins
        loopInTail := fun _ => h.loopInTail_succ htwins
        loopTail := fun _ _ => h.loopTail_succ htwins
        clauses := fun _ => h.clauses_succ htwins
        tryTail := fun _ => h.tryTail_succ htwins }

/-! ## One list of tokens -/

section
variable {fuel fuel' : Nat} {ts left left' : List Token}

end

end Reader

end Espalier.Script
