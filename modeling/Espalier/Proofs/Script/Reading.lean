import Espalier.Proofs.Script.Spelling

/-!
# Reading generated statements

The tokens of generated source are read back as the statements they stand for. Each reader has a
relation between the tokens it is given, by their kinds, and what it makes of them: `ReadsArg` for
arguments, `Reads` for statements and `ReadsClauses` for the clauses of a switch. The relations hold
for all tokens that may follow and for every fuel above sixteen times the number of tokens, so that
they can be put together form by form. Main statement: `parse_spelling`, by which spelled text is
read as the statements that its tokens stand for.
-/

namespace Espalier.Script

namespace Reader

/-! ## Single tokens -/

section
variable {α β : Type} {ts ts' : List Token} {t u : Token} {kind : TokenKind}

theorem run_bind_of_eq {x : Reader α} {f : α → Reader β} {a : α} (h : x.run ts = some (a, ts')) :
    (x >>= f).run ts = (f a).run ts' := by
  rw [StateT.run_bind, h]
  rfl

theorem run_peek : peek.run (t :: ts) = some (t.kind, t :: ts) := rfl

theorem run_peekSecond : peekSecond.run (t :: u :: ts) = some (u.kind, t :: u :: ts) := rfl

theorem run_skip : skip.run (t :: ts) = some ((), ts) := rfl

theorem run_accept (h : t.kind = kind) : (accept kind).run (t :: ts) = some (true, ts) := by
  rw [accept, run_bind_of_eq run_peek, if_pos h]
  rfl

theorem run_accept_of_ne (h : t.kind ≠ kind) :
    (accept kind).run (t :: ts) = some (false, t :: ts) := by
  rw [accept, run_bind_of_eq run_peek, if_neg h]
  rfl

theorem run_expect (h : t.kind = kind) : (expect kind).run (t :: ts) = some ((), ts) := by
  rw [expect, run_bind_of_eq run_peek, if_pos h]
  rfl

theorem run_expectMark {m : Mark} (h : t.kind = .mark m) :
    (expectMark m).run (t :: ts) = some ((), ts) :=
  run_expect h

theorem run_identifier {id : String} (h : t.kind = .name id) :
    identifier.run (t :: ts) = some (id, ts) := by
  rw [identifier, run_bind_of_eq run_peek, h]
  rfl

theorem run_endStatement (h : t.kind = .mark .semi) :
    endStatement.run (t :: ts) = some ((), ts) := by
  have hget : (get : Reader (List Token)).run (t :: ts) = some (t :: ts, t :: ts) := rfl
  rw [endStatement, run_bind_of_eq hget]
  simp only [h]
  rfl

end

/-! ## Ends of operands -/

/-- The token ends an expression that stands in a statement, among arguments or in brackets. -/
def endsExpr : TokenKind → Bool
  | .mark .comma | .mark .rparen | .mark .rbracket | .mark .semi | .mark .colon => true
  | _ => false

section
variable {ts rest : List Token} {t u : Token} {e : Expr} {place : Place} {fuel : Nat}

theorem run_stepTail (h : StepOp.ofToken? t.kind = none) :
    (stepTail e).run (t :: rest) = some (e, t :: rest) := by
  rw [stepTail, run_bind_of_eq run_peek, h]
  rfl

theorem run_binaryTail {level : Nat} (h : BinaryOp.ofToken? place t.kind = none) :
    (binaryTail (fuel + 1) place level e).run (t :: rest) = some (e, t :: rest) := by
  rw [binaryTail, run_bind_of_eq run_peek, h]
  rfl

theorem run_callTail (hdot : t.kind ≠ .mark .dot) (hbracket : t.kind ≠ .mark .lbracket)
    (hparen : t.kind ≠ .mark .lparen) :
    (callTail (fuel + 1) e).run (t :: rest) = some (e, t :: rest) := by
  rw [callTail, run_bind_of_eq run_peek]
  split
  case h_1 h => exact absurd h hdot
  case h_2 h => exact absurd h hbracket
  case h_3 h => exact absurd h hparen
  case h_4 => rfl

theorem endsExpr_cases {kind : TokenKind} (h : endsExpr kind = true) :
    kind = .mark .comma ∨ kind = .mark .rparen ∨ kind = .mark .rbracket ∨ kind = .mark .semi ∨
      kind = .mark .colon := by
  unfold endsExpr at h
  split at h <;> simp_all

/-- No operator begins with the end of an expression. -/
theorem no_operator_of_endsExpr (place : Place) {kind : TokenKind} (h : endsExpr kind = true) :
    AssignOp.ofToken? kind = none ∧ StepOp.ofToken? kind = none ∧
      BinaryOp.ofToken? place kind = none ∧ kind ≠ .mark .question := by
  obtain rfl | rfl | rfl | rfl | rfl := endsExpr_cases h <;> exact ⟨rfl, rfl, rfl, nofun⟩

theorem run_callTail_end (h : endsExpr t.kind = true) :
    (callTail (fuel + 1) e).run (t :: rest) = some (e, t :: rest) := by
  have hkind := endsExpr_cases h
  refine run_callTail ?_ ?_ ?_
  all_goals
    intro heq
    rw [heq] at hkind
    obtain h | h | h | h | h := hkind <;> cases h

theorem run_operators_end (h : endsExpr t.kind = true) :
    (operators (fuel + 2) place e).run (t :: rest) = some (e, t :: rest) := by
  obtain ⟨-, -, hbinary, hquestion⟩ := no_operator_of_endsExpr place h
  rw [operators, run_bind_of_eq (run_binaryTail hbinary),
    run_bind_of_eq (run_accept_of_ne hquestion)]
  rfl

theorem run_assignmentTail_end (h : endsExpr t.kind = true) :
    (assignmentTail (fuel + 3) place e).run (t :: rest) = some (e, t :: rest) := by
  obtain ⟨hassign, hstep, -, -⟩ := no_operator_of_endsExpr place h
  rw [assignmentTail, run_bind_of_eq run_peek, hassign]
  show (stepTail e >>= operators (fuel + 2) place).run (t :: rest) = _
  rw [run_bind_of_eq (run_stepTail hstep), run_operators_end h]

/-- An expression that is no construction begins with a primary expression. -/
theorem run_leftHandSide (hnew : u.kind ≠ .keyword .new)
    (hprimary : (primary fuel).run (u :: ts) = some (e, rest)) :
    (leftHandSide (fuel + 2)).run (u :: ts) = (callTail (fuel + 1) e).run rest := by
  have hbase : (construction (fuel + 1)).run (u :: ts) = some (e, rest) := by
    rw [construction, run_bind_of_eq (run_accept_of_ne hnew)]
    exact hprimary
  rw [leftHandSide, run_bind_of_eq hbase]

theorem run_assignment {left : Expr} (hunary : UnaryOp.ofToken? u.kind = none)
    (hleft : (leftHandSide fuel).run (u :: ts) = some (left, rest)) :
    (assignment (fuel + 1) place).run (u :: ts) = (assignmentTail fuel place left).run rest := by
  rw [assignment, run_bind_of_eq run_peek, hunary]
  show (leftHandSide fuel >>= assignmentTail fuel place).run (u :: ts) = _
  rw [run_bind_of_eq hleft]

/-- A primary expression before the end. -/
theorem run_assignment_primary (hunary : UnaryOp.ofToken? u.kind = none)
    (hnew : u.kind ≠ .keyword .new) (h : endsExpr t.kind = true)
    (hprimary : (primary (fuel + 1)).run (u :: ts) = some (e, t :: rest)) :
    (assignment (fuel + 4) place).run (u :: ts) = some (e, t :: rest) := by
  have hleft : (leftHandSide (fuel + 3)).run (u :: ts) = some (e, t :: rest) := by
    rw [run_leftHandSide hnew hprimary, run_callTail_end h]
  rw [run_assignment hunary hleft, run_assignmentTail_end h]

theorem run_expr {a : Expr} (hcomma : t.kind ≠ .mark .comma)
    (ha : (assignment (fuel + 1) place).run ts = some (a, t :: rest)) :
    (expr (fuel + 2) place).run ts = some (a, t :: rest) := by
  rw [expr, run_bind_of_eq ha, commaTail, run_bind_of_eq (run_accept_of_ne hcomma)]
  rfl

end

/-! ## Atoms -/

/-- Tokens that are expressions by themselves. -/
def atom? : TokenKind → Option Expr
  | .name id => some (.name id)
  | .number text => some (.number text)
  | .string text => some (.string text)
  | .keyword .null => some .null
  | _ => none

section
variable {rest : List Token} {t u : Token} {e : Expr} {fuel : Nat}

theorem run_primary_atom (h : atom? t.kind = some e) :
    (primary (fuel + 1)).run (t :: rest) = some (e, rest) := by
  have hget : (get : Reader (List Token)).run (t :: rest) = some (t :: rest, t :: rest) := rfl
  rw [primary, run_bind_of_eq hget]
  unfold atom? at h
  split at h
  case h_5 => cases h
  all_goals
    rename_i hkind
    cases h
    simp only [hkind]
    rfl

theorem no_prefix_of_atom {kind : TokenKind} (h : atom? kind = some e) :
    UnaryOp.ofToken? kind = none ∧ kind ≠ .keyword .new ∧ kind ≠ .mark .rparen := by
  unfold atom? at h
  split at h
  case h_5 => cases h
  all_goals exact ⟨rfl, nofun, nofun⟩

theorem run_assignment_atom {place : Place} (h : atom? u.kind = some e)
    (hend : endsExpr t.kind = true) :
    (assignment (fuel + 4) place).run (u :: t :: rest) = some (e, t :: rest) := by
  obtain ⟨hunary, hnew, -⟩ := no_prefix_of_atom h
  exact run_assignment_primary hunary hnew hend (run_primary_atom h)

end

/-! ## Arguments -/

/-- A reader takes tokens of these kinds for `a` whenever a token that satisfies `next` follows. The
fuel is in proportion to the number of tokens. -/
def Takes {α : Type} (next : TokenKind → Prop) (r : Nat → Reader α) (ks : List TokenKind) (a : α) :
    Prop :=
  ∀ ts : List Token, ts.map (·.kind) = ks → ∀ (fuel : Nat) (t : Token) (rest : List Token),
    16 * ks.length < fuel → next t.kind → (r fuel).run (ts ++ t :: rest) = some (a, t :: rest)

/-- Tokens that are one argument of a call. -/
structure ReadsArg (ks : List TokenKind) (e : Expr) : Prop where
  head : ∃ kind more, ks = kind :: more ∧ kind ≠ .mark .rparen
  takes : Takes (endsExpr · = true) (assignment · .free) ks e

theorem ReadsArg.atom {kind : TokenKind} {e : Expr} (h : atom? kind = some e) :
    ReadsArg [kind] e where
  head := ⟨kind, [], rfl, (no_prefix_of_atom h).2.2⟩
  takes := by
    intro ts hts fuel t rest hfuel hend
    obtain ⟨u, rfl, rfl⟩ := List.map_eq_singleton_iff.1 hts
    match fuel, hfuel with
    | fuel + 4, _ => exact run_assignment_atom h hend

/-- Tokens of arguments after the first one, up to the closing parenthesis. -/
structure ReadsMore (ks : List TokenKind) (es : List Expr) : Prop where
  head : ∃ kind more, ks = kind :: more ∧ endsExpr kind = true
  takes : Takes (fun _ => True) moreArguments ks es

theorem ReadsMore.nil : ReadsMore [.mark .rparen] [] where
  head := ⟨_, _, rfl, rfl⟩
  takes := by
    intro ts hts fuel t rest hfuel _
    obtain ⟨u, rfl, hu⟩ := List.map_eq_singleton_iff.1 hts
    match fuel, hfuel with
    | fuel + 1, _ =>
      have hcomma : u.kind ≠ .mark .comma := by rw [hu]; exact nofun
      rw [moreArguments, List.singleton_append, run_bind_of_eq (run_accept_of_ne hcomma)]
      show (expectMark .rparen >>= fun _ => pure []).run _ = _
      rw [run_bind_of_eq (run_expectMark hu)]
      rfl

theorem ReadsMore.cons {ks more : List TokenKind} {e : Expr} {es : List Expr} (he : ReadsArg ks e)
    (hmore : ReadsMore more es) : ReadsMore (.mark .comma :: (ks ++ more)) (e :: es) where
  head := ⟨_, _, rfl, rfl⟩
  takes := by
    intro ts hts fuel t rest hfuel _
    obtain ⟨comma, ts, rfl, hcomma, hts⟩ := List.map_eq_cons_iff.1 hts
    obtain ⟨arg, others, rfl, harg, hothers⟩ := List.map_eq_append_iff.1 hts
    obtain ⟨kind, kinds, rfl, hend⟩ := hmore.head
    obtain ⟨u, us, rfl, rfl, -⟩ := List.map_eq_cons_iff.1 hothers
    simp only [List.length_cons, List.length_append] at hfuel
    match fuel, hfuel with
    | fuel + 1, hfuel =>
      have hfirst := he.takes arg harg fuel u (us ++ t :: rest) (by omega) hend
      have hrest := hmore.takes (u :: us) hothers fuel t rest
        (by simp only [List.length_cons]; omega) trivial
      rw [moreArguments, List.cons_append, run_bind_of_eq (run_accept hcomma), List.append_assoc]
      show (assignment fuel .free >>= _).run (arg ++ u :: (us ++ t :: rest)) = _
      rw [run_bind_of_eq hfirst]
      show (moreArguments fuel >>= _).run ((u :: us) ++ t :: rest) = _
      rw [run_bind_of_eq hrest]
      rfl

/-- The arguments of a call, between parentheses. -/
theorem takes_arguments {ks more : List TokenKind} {e : Expr} {es : List Expr} (he : ReadsArg ks e)
    (hmore : ReadsMore more es) :
    Takes (fun _ => True) arguments (.mark .lparen :: (ks ++ more)) (e :: es) := by
  intro ts hts fuel t rest hfuel _
  obtain ⟨paren, ts, rfl, hparen, hts⟩ := List.map_eq_cons_iff.1 hts
  obtain ⟨arg, others, rfl, harg, hothers⟩ := List.map_eq_append_iff.1 hts
  obtain ⟨kind, kinds, rfl, hend⟩ := hmore.head
  obtain ⟨u, us, rfl, rfl, -⟩ := List.map_eq_cons_iff.1 hothers
  obtain ⟨first, firsts, rfl, hfirst⟩ := he.head
  obtain ⟨v, vs, rfl, rfl, -⟩ := List.map_eq_cons_iff.1 harg
  simp only [List.length_cons, List.length_append] at hfuel
  match fuel, hfuel with
  | fuel + 1, hfuel =>
    have hone := he.takes (v :: vs) harg fuel u (us ++ t :: rest)
      (by simp only [List.length_cons]; omega) hend
    have hrest := hmore.takes (u :: us) hothers fuel t rest
      (by simp only [List.length_cons]; omega) trivial
    rw [arguments, List.cons_append, run_bind_of_eq (run_expectMark hparen), List.append_assoc,
      List.cons_append, run_bind_of_eq (run_accept_of_ne hfirst)]
    show (assignment fuel .free >>= _).run ((v :: vs) ++ u :: (us ++ t :: rest)) = _
    rw [run_bind_of_eq hone]
    show (moreArguments fuel >>= _).run ((u :: us) ++ t :: rest) = _
    rw [run_bind_of_eq hrest]
    rfl

/-! ## Simple statements -/

section
variable {ts rest : List Token} {t u : Token} {e : Expr} {fuel : Nat}

/-- A statement that begins with a name which is no label. -/
theorem run_statement_name {id : String} (ht : t.kind = .name id) (hu : u.kind ≠ .mark .colon) :
    (statement (fuel + 1)).run (t :: u :: rest)
      = (expressionStatement fuel).run (t :: u :: rest) := by
  rw [statement, run_bind_of_eq run_peek, ht]
  show (peekSecond >>= _).run (t :: u :: rest) = _
  rw [run_bind_of_eq run_peekSecond, if_neg hu]

theorem run_expressionStatement (ht : t.kind = .mark .semi) (hfunction : e.isFunction = false)
    (he : (expr fuel .statement).run ts = some (e, t :: rest)) :
    (expressionStatement (fuel + 1)).run ts = some (.expr e, rest) := by
  rw [expressionStatement, run_bind_of_eq he, run_bind_of_eq (run_endStatement ht), hfunction]
  rfl

end

/-- A call of a name. -/
theorem takes_call {id : String} {ks : List TokenKind} {es : List Expr}
    (hargs : Takes (fun _ => True) arguments (.mark .lparen :: ks) es) :
    Takes (fun _ => True) statement (.name id :: (.mark .lparen :: ks ++ [TokenKind.mark .semi]))
      (.expr (.call (.name id) es)) := by
  intro ts hts fuel t rest hfuel _
  obtain ⟨name, ts, rfl, hname, hts⟩ := List.map_eq_cons_iff.1 hts
  obtain ⟨args, semis, rfl, hargs_kinds, hsemis⟩ := List.map_eq_append_iff.1 hts
  obtain ⟨paren, inner, rfl, hparen, -⟩ := List.map_eq_cons_iff.1 hargs_kinds
  obtain ⟨semi, rfl, hsemi⟩ := List.map_eq_singleton_iff.1 hsemis
  have hend : endsExpr semi.kind = true := by rw [hsemi]; rfl
  have hcomma : semi.kind ≠ .mark .comma := by rw [hsemi]; exact nofun
  have hcolon : paren.kind ≠ .mark .colon := by rw [hparen]; exact nofun
  have hunary : UnaryOp.ofToken? name.kind = none := by rw [hname]; rfl
  have hnew : name.kind ≠ .keyword .new := by rw [hname]; exact nofun
  have hatom : atom? name.kind = some (.name id) := by rw [hname]; rfl
  simp only [List.length_cons, List.length_append, List.length_nil] at hfuel
  match fuel, hfuel with
  | fuel + 8, hfuel =>
    have hcall := hargs (paren :: inner) hargs_kinds (fuel + 2) semi (t :: rest)
      (by simp only [List.length_cons]; omega) trivial
    have htail : (callTail (fuel + 3) (.name id)).run (paren :: inner ++ semi :: t :: rest)
        = some (.call (.name id) es, semi :: t :: rest) := by
      rw [callTail, List.cons_append, run_bind_of_eq run_peek, hparen]
      show (arguments (fuel + 2) >>= _).run (paren :: inner ++ semi :: t :: rest) = _
      rw [run_bind_of_eq hcall, run_callTail_end hend]
    have hleft : (leftHandSide (fuel + 4)).run (name :: (paren :: inner ++ semi :: t :: rest))
        = some (.call (.name id) es, semi :: t :: rest) := by
      rw [run_leftHandSide hnew (run_primary_atom hatom), htail]
    have hexpr : (expr (fuel + 6) .statement).run (name :: (paren :: inner ++ semi :: t :: rest))
        = some (.call (.name id) es, semi :: t :: rest) := by
      refine run_expr hcomma ?_
      rw [run_assignment hunary hleft, run_assignmentTail_end hend]
    have htokens : name :: (paren :: inner ++ [semi]) ++ t :: rest
        = name :: (paren :: inner ++ semi :: t :: rest) := by simp
    rw [htokens]
    show (statement (fuel + 8)).run (name :: paren :: (inner ++ semi :: t :: rest)) = _
    rw [run_statement_name hname hcolon]
    exact run_expressionStatement hsemi rfl hexpr

/-- An assignment to a name. -/
theorem takes_assign (id value : String) :
    Takes (fun _ => True) statement
      [.name id, .mark (.assign .plain), .name value, .mark .semi]
      (.expr (.assign .plain (.name id) (.name value))) := by
  intro ts hts fuel t rest hfuel _
  obtain ⟨name, ts, rfl, hname, hts⟩ := List.map_eq_cons_iff.1 hts
  obtain ⟨equals, ts, rfl, hequals, hts⟩ := List.map_eq_cons_iff.1 hts
  obtain ⟨right, ts, rfl, hright, hts⟩ := List.map_eq_cons_iff.1 hts
  obtain ⟨semi, rfl, hsemi⟩ := List.map_eq_singleton_iff.1 hts
  have hend : endsExpr semi.kind = true := by rw [hsemi]; rfl
  have hcomma : semi.kind ≠ .mark .comma := by rw [hsemi]; exact nofun
  have hunary : UnaryOp.ofToken? name.kind = none := by rw [hname]; rfl
  have hnew : name.kind ≠ .keyword .new := by rw [hname]; exact nofun
  have hatom : atom? name.kind = some (.name id) := by rw [hname]; rfl
  have hvalue : atom? right.kind = some (.name value) := by rw [hright]; rfl
  match fuel, hfuel with
  | fuel + 9, _ =>
    have hleft : (leftHandSide (fuel + 5)).run (name :: equals :: right :: semi :: t :: rest)
        = some (.name id, equals :: right :: semi :: t :: rest) := by
      rw [run_leftHandSide hnew (run_primary_atom hatom)]
      refine run_callTail ?_ ?_ ?_
      all_goals rw [hequals]; exact nofun
    have htail : (assignmentTail (fuel + 5) .statement (.name id)).run
        (equals :: right :: semi :: t :: rest)
        = some (.assign .plain (.name id) (.name value), semi :: t :: rest) := by
      rw [assignmentTail, run_bind_of_eq run_peek, hequals]
      show (skip >>= _).run (equals :: right :: semi :: t :: rest) = _
      rw [run_bind_of_eq run_skip, run_bind_of_eq (run_assignment_atom hvalue hend)]
      rfl
    have hexpr : (expr (fuel + 7) .statement).run (name :: equals :: right :: semi :: t :: rest)
        = some (.assign .plain (.name id) (.name value), semi :: t :: rest) := by
      refine run_expr hcomma ?_
      rw [run_assignment hunary hleft, htail]
    show (statement (fuel + 9)).run (name :: equals :: right :: semi :: t :: rest) = _
    rw [run_statement_name hname (by rw [hequals]; exact nofun)]
    exact run_expressionStatement hsemi rfl hexpr

/-- A declaration of one variable. -/
theorem takes_declaration (id value : String) :
    Takes (fun _ => True) statement
      [.keyword .var, .name id, .mark (.assign .plain), .name value, .mark .semi]
      (.vars [.init id (.name value)]) := by
  intro ts hts fuel t rest hfuel _
  obtain ⟨var, ts, rfl, hvar, hts⟩ := List.map_eq_cons_iff.1 hts
  obtain ⟨name, ts, rfl, hname, hts⟩ := List.map_eq_cons_iff.1 hts
  obtain ⟨equals, ts, rfl, hequals, hts⟩ := List.map_eq_cons_iff.1 hts
  obtain ⟨right, ts, rfl, hright, hts⟩ := List.map_eq_cons_iff.1 hts
  obtain ⟨semi, rfl, hsemi⟩ := List.map_eq_singleton_iff.1 hts
  have hend : endsExpr semi.kind = true := by rw [hsemi]; rfl
  have hcomma : semi.kind ≠ .mark .comma := by rw [hsemi]; exact nofun
  have hvalue : atom? right.kind = some (.name value) := by rw [hright]; rfl
  match fuel, hfuel with
  | fuel + 6, _ =>
    have hbindings : (bindings (fuel + 5) .free).run (name :: equals :: right :: semi :: t :: rest)
        = some ([.init id (.name value)], semi :: t :: rest) := by
      rw [bindings, run_bind_of_eq (run_identifier hname), run_bind_of_eq (run_accept hequals)]
      show (assignment (fuel + 4) .free >>= _).run (right :: semi :: t :: rest) = _
      rw [run_bind_of_eq (run_assignment_atom hvalue hend), pure_bind,
        run_bind_of_eq (run_accept_of_ne hcomma)]
      rfl
    show (statement (fuel + 6)).run (var :: name :: equals :: right :: semi :: t :: rest) = _
    rw [statement, run_bind_of_eq run_peek, hvar]
    show (skip >>= _).run (var :: name :: equals :: right :: semi :: t :: rest) = _
    rw [run_bind_of_eq run_skip, run_bind_of_eq hbindings, run_bind_of_eq (run_endStatement hsemi)]
    rfl

/-- A jump out of a switch. -/
theorem takes_break :
    Takes (fun _ => True) statement [.keyword .break, .mark .semi] (.break none) := by
  intro ts hts fuel t rest hfuel _
  obtain ⟨word, ts, rfl, hword, hts⟩ := List.map_eq_cons_iff.1 hts
  obtain ⟨semi, rfl, hsemi⟩ := List.map_eq_singleton_iff.1 hts
  match fuel, hfuel with
  | fuel + 1, _ =>
    have hlabel : optionalLabel.run (semi :: t :: rest) = some (none, t :: rest) := by
      rw [optionalLabel, run_bind_of_eq run_peek, hsemi]
      show (pure none >>= _ : Reader (Option String)).run (semi :: t :: rest) = _
      rw [pure_bind, run_bind_of_eq (run_endStatement hsemi)]
      rfl
    show (statement (fuel + 1)).run (word :: semi :: t :: rest) = _
    rw [statement, run_bind_of_eq run_peek, hword]
    show (skip >>= _).run (word :: semi :: t :: rest) = _
    rw [run_bind_of_eq run_skip, run_bind_of_eq hlabel]
    rfl

/-! ## Statements in sequence -/

/-- The token closes a list of statements. -/
def closesStatements : TokenKind → Bool
  | .mark .rbrace | .keyword .case | .keyword .default | .eof => true
  | _ => false

theorem closesStatements_cases {kind : TokenKind} (h : closesStatements kind = true) :
    kind = .mark .rbrace ∨ kind = .keyword .case ∨ kind = .keyword .default ∨ kind = .eof := by
  unfold closesStatements at h
  split at h
  case h_5 => cases h
  all_goals simp

theorem run_statements_close {t : Token} {rest : List Token} {fuel : Nat}
    (h : closesStatements t.kind = true) :
    (statements (fuel + 1)).run (t :: rest) = some ([], t :: rest) := by
  rw [statements, run_bind_of_eq run_peek]
  rcases closesStatements_cases h with hkind | hkind | hkind | hkind
  all_goals
    rw [hkind]
    rfl

theorem run_statements_cons {t : Token} {ts rest : List Token} {fuel : Nat} {s : Stmt}
    (h : closesStatements t.kind = false) (hs : (statement fuel).run (t :: ts) = some (s, rest)) :
    (statements (fuel + 1)).run (t :: ts)
      = ((statements fuel).run rest).map fun r => (s :: r.1, r.2) := by
  rw [statements, run_bind_of_eq run_peek]
  split
  case h_5 =>
    rw [run_bind_of_eq hs, StateT.run_bind]
    cases (statements fuel).run rest with
    | none => rfl
    | some r => rfl
  all_goals
    rename_i hkind
    rw [hkind] at h
    cases h

/-- Tokens that are statements; the reader goes on behind them with a little less fuel. -/
structure Reads (ks : List TokenKind) (ss : List Stmt) : Prop where
  length_le : ss.length ≤ ks.length
  run : ∀ ts : List Token, ts.map (·.kind) = ks → ∀ (fuel : Nat) (t : Token) (rest : List Token),
    16 * ks.length + 1 < fuel → (statements fuel).run (ts ++ t :: rest)
      = ((statements (fuel - ss.length)).run (t :: rest)).map fun r => (ss ++ r.1, r.2)

theorem Reads.nil : Reads [] [] where
  length_le := Nat.le_refl 0
  run := by
    intro ts hts fuel t rest _
    obtain rfl := List.map_eq_nil_iff.1 hts
    exact (Option.map_id' ..).symm

theorem Reads.append {a b : List TokenKind} {x y : List Stmt} (ha : Reads a x) (hb : Reads b y) :
    Reads (a ++ b) (x ++ y) where
  length_le := by
    rw [List.length_append, List.length_append]
    exact Nat.add_le_add ha.length_le hb.length_le
  run := by
    intro ts hts fuel t rest hfuel
    obtain ⟨us, vs, rfl, hus, hvs⟩ := List.map_eq_append_iff.1 hts
    have hx := ha.length_le
    rw [List.length_append] at hfuel
    have hsecond := hb.run vs hvs (fuel - x.length) t rest (by omega)
    have hfirst : (statements fuel).run (us ++ (vs ++ t :: rest))
        = ((statements (fuel - x.length)).run (vs ++ t :: rest)).map fun r => (x ++ r.1, r.2) := by
      cases vs with
      | nil => exact ha.run us hus fuel t rest (by omega)
      | cons v vs => exact ha.run us hus fuel v (vs ++ t :: rest) (by omega)
    rw [List.append_assoc, hfirst, hsecond, Option.map_map, List.length_append, Nat.sub_add_eq]
    simp only [Function.comp_def, List.append_assoc]

/-- A single statement. -/
theorem Reads.of_takes {kind : TokenKind} {ks : List TokenKind} {s : Stmt}
    (hkind : closesStatements kind = false)
    (h : Takes (fun _ => True) statement (kind :: ks) s) : Reads (kind :: ks) [s] where
  length_le := Nat.succ_le_succ (Nat.zero_le _)
  run := by
    intro ts hts fuel t rest hfuel
    obtain ⟨u, us, rfl, hu, hus⟩ := List.map_eq_cons_iff.1 hts
    match fuel, hfuel with
    | fuel + 1, hfuel =>
      have hs := h (u :: us) hts fuel t rest (by omega) trivial
      exact run_statements_cons (by rw [hu]; exact hkind) hs

/-- Statements before a token that closes them. -/
theorem Reads.takes {ks : List TokenKind} {ss : List Stmt} (h : Reads ks ss) {ts : List Token}
    (hts : ts.map (·.kind) = ks) {fuel : Nat} {t : Token} (rest : List Token)
    (hfuel : 16 * ks.length + 1 < fuel) (ht : closesStatements t.kind = true) :
    (statements fuel).run (ts ++ t :: rest) = some (ss, t :: rest) := by
  have hlength := h.length_le
  obtain ⟨more, hmore⟩ : ∃ more, fuel - ss.length = more + 1 :=
    ⟨fuel - ss.length - 1, by omega⟩
  rw [h.run ts hts fuel t rest hfuel, hmore, run_statements_close ht, Option.map_some,
    List.append_nil]

/-! ## Braces -/

/-- The tokens of statements in braces. -/
def bracedKinds (ks : List TokenKind) : List TokenKind :=
  .mark .lbrace :: (ks ++ [TokenKind.mark .rbrace])

theorem length_bracedKinds (ks : List TokenKind) : (bracedKinds ks).length = ks.length + 2 := by
  rw [bracedKinds, List.length_cons, List.length_append, List.length_singleton]

theorem Reads.braced {ks : List TokenKind} {ss : List Stmt} (h : Reads ks ss) {ts : List Token}
    (hts : ts.map (·.kind) = bracedKinds ks) {fuel : Nat} (hfuel : 16 * ks.length + 2 < fuel)
    (rest : List Token) : (Reader.braced fuel).run (ts ++ rest) = some (ss, rest) := by
  obtain ⟨opener, ts, rfl, hopener, hts⟩ := List.map_eq_cons_iff.1 hts
  obtain ⟨inner, closers, rfl, hinner, hclosers⟩ := List.map_eq_append_iff.1 hts
  obtain ⟨closer, rfl, hcloser⟩ := List.map_eq_singleton_iff.1 hclosers
  have hcloses : closesStatements closer.kind = true := by rw [hcloser]; rfl
  match fuel, hfuel with
  | fuel + 1, hfuel =>
    have hbody := h.takes hinner rest (Nat.lt_of_succ_lt_succ hfuel) hcloses
    rw [Reader.braced, List.cons_append, run_bind_of_eq (run_expectMark hopener),
      List.append_assoc, List.singleton_append, run_bind_of_eq hbody,
      run_bind_of_eq (run_expectMark hcloser)]
    rfl

theorem Reads.block {ks : List TokenKind} {ss : List Stmt} (h : Reads ks ss) :
    Reads (bracedKinds ks) [.block ss] := by
  refine .of_takes rfl ?_
  intro ts hts fuel t rest hfuel _
  obtain ⟨opener, us, rfl, hopener, -⟩ := List.map_eq_cons_iff.1 hts
  change 16 * (bracedKinds ks).length < fuel at hfuel
  rw [length_bracedKinds] at hfuel
  match fuel, hfuel with
  | fuel + 1, hfuel =>
    have hbound : 16 * ks.length + 2 < fuel := by omega
    have hbody := h.braced hts hbound (t :: rest)
    rw [statement, List.cons_append, run_bind_of_eq run_peek, hopener]
    show (Reader.braced fuel >>= _).run (opener :: us ++ t :: rest) = _
    rw [run_bind_of_eq hbody]
    rfl

/-! ## Functions -/

/-- The tokens of names after a first one. -/
def moreNameKinds (names : List String) : List TokenKind :=
  names.flatMap fun name => [.mark .comma, .name name]

theorem run_moreNames {names : List String} : ∀ {ts : List Token},
    ts.map (·.kind) = moreNameKinds names → ∀ {fuel : Nat} {t : Token} (rest : List Token),
    names.length < fuel → t.kind ≠ .mark .comma →
    (moreNames fuel).run (ts ++ t :: rest) = some (names, t :: rest) := by
  induction names with
  | nil =>
    intro ts hts fuel t rest hfuel ht
    obtain rfl := List.map_eq_nil_iff.1 hts
    match fuel, hfuel with
    | fuel + 1, _ =>
      rw [moreNames, List.nil_append, run_bind_of_eq (run_accept_of_ne ht)]
      rfl
  | cons name names ih =>
    intro ts hts fuel t rest hfuel ht
    obtain ⟨comma, ts, rfl, hcomma, hts⟩ := List.map_eq_cons_iff.1 hts
    obtain ⟨word, ts, rfl, hword, hts⟩ := List.map_eq_cons_iff.1 hts
    match fuel, hfuel with
    | fuel + 1, hfuel =>
      have hmore := ih hts rest (Nat.lt_of_succ_lt_succ hfuel) ht
      rw [moreNames, List.cons_append, run_bind_of_eq (run_accept hcomma)]
      show (identifier >>= _).run (word :: (ts ++ t :: rest)) = _
      rw [run_bind_of_eq (run_identifier hword), run_bind_of_eq hmore]
      rfl

/-- The tokens of parameters in parentheses. -/
def paramKinds : List String → List TokenKind
  | [] => [.mark .lparen, .mark .rparen]
  | first :: others =>
    .mark .lparen :: .name first :: (moreNameKinds others ++ [TokenKind.mark .rparen])

theorem length_moreNameKinds (names : List String) :
    (moreNameKinds names).length = 2 * names.length := by
  induction names with
  | nil => rfl
  | cons name names ih =>
    have hcons : (moreNameKinds (name :: names)).length = (moreNameKinds names).length + 2 := rfl
    rw [hcons, ih, List.length_cons]
    omega

theorem length_lt_length_paramKinds (names : List String) :
    names.length < (paramKinds names).length := by
  cases names with
  | nil => exact Nat.zero_lt_two
  | cons first others =>
    simp only [paramKinds, List.length_cons, List.length_append, length_moreNameKinds]
    omega

theorem paramKinds_eq_cons (names : List String) :
    ∃ more, paramKinds names = .mark .lparen :: more := by
  cases names with
  | nil | cons => exact ⟨_, rfl⟩

theorem run_params {names : List String} {ts : List Token}
    (hts : ts.map (·.kind) = paramKinds names) {fuel : Nat} (hfuel : names.length < fuel)
    (rest : List Token) : (params fuel).run (ts ++ rest) = some (names, rest) := by
  cases names with
  | nil =>
    obtain ⟨opener, ts, rfl, hopener, hts⟩ := List.map_eq_cons_iff.1 hts
    obtain ⟨closer, rfl, hcloser⟩ := List.map_eq_singleton_iff.1 hts
    rw [params, List.cons_append, run_bind_of_eq (run_expectMark hopener), List.singleton_append,
      run_bind_of_eq (run_accept hcloser)]
    rfl
  | cons first others =>
    obtain ⟨opener, ts, rfl, hopener, hts⟩ := List.map_eq_cons_iff.1 hts
    obtain ⟨word, ts, rfl, hword, hts⟩ := List.map_eq_cons_iff.1 hts
    obtain ⟨more, closers, rfl, hmore, hclosers⟩ := List.map_eq_append_iff.1 hts
    obtain ⟨closer, rfl, hcloser⟩ := List.map_eq_singleton_iff.1 hclosers
    have hnames : (moreNames fuel).run (more ++ closer :: rest) = some (others, closer :: rest) :=
      run_moreNames hmore rest (Nat.lt_of_succ_lt hfuel) (by rw [hcloser]; exact nofun)
    rw [params, List.cons_append, run_bind_of_eq (run_expectMark hopener), List.cons_append,
      run_bind_of_eq (run_accept_of_ne (by rw [hword]; exact nofun)), List.append_assoc,
      List.singleton_append]
    show (identifier >>= _).run (word :: (more ++ closer :: rest)) = _
    rw [run_bind_of_eq (run_identifier hword), run_bind_of_eq hnames,
      run_bind_of_eq (run_expectMark hcloser)]
    rfl

/-- A function without a name. -/
theorem ReadsArg.func {names : List String} {ks : List TokenKind} {ss : List Stmt}
    (h : Reads ks ss) :
    ReadsArg (.keyword .function :: (paramKinds names ++ bracedKinds ks))
      (.func none names ss) where
  head := ⟨_, _, rfl, nofun⟩
  takes := by
    intro ts hts fuel t rest hfuel hend
    obtain ⟨word, ts, rfl, hword, hts⟩ := List.map_eq_cons_iff.1 hts
    obtain ⟨ps, body, rfl, hps, hbody⟩ := List.map_eq_append_iff.1 hts
    have hlength := length_lt_length_paramKinds names
    simp only [List.length_cons, List.length_append, length_bracedKinds] at hfuel
    match fuel, hfuel with
    | fuel + 4, hfuel =>
      have hprimary : (primary (fuel + 1)).run (word :: (ps ++ body ++ t :: rest))
          = some (.func none names ss, t :: rest) := by
        obtain ⟨more, hparen⟩ := paramKinds_eq_cons names
        rw [hparen] at hps
        obtain ⟨opener, others, rfl, hopener, -⟩ := List.map_eq_cons_iff.1 hps
        rw [← hparen] at hps
        have hget : ∀ ts : List Token, (get : Reader (List Token)).run ts = some (ts, ts) :=
          fun _ => rfl
        have hset : ∀ us : List Token, (set us : Reader Unit).run (word :: us) = some ((), us) :=
          fun _ => rfl
        rw [primary, run_bind_of_eq (hget _)]
        simp only [hword]
        rw [run_bind_of_eq (hset _), List.append_assoc, List.cons_append,
          run_bind_of_eq run_peek, hopener]
        show (pure none >>= _ : Reader Expr).run (opener :: others ++ (body ++ t :: rest)) = _
        rw [pure_bind, run_bind_of_eq (run_params hps (by omega) _),
          run_bind_of_eq (h.braced hbody (by omega) _)]
        rfl
      exact run_assignment_primary (by rw [hword]; rfl) (by rw [hword]; exact nofun) hend hprimary

/-! ## Slots -/

/-- The call of an optional function. -/
theorem ReadsArg.optionalCall (id : String) :
    ReadsArg [.name id, .mark .question, .name id, .mark .lparen, .mark .rparen, .mark .colon,
      .keyword .null] (.cond (.name id) (.call (.name id) []) .null) where
  head := ⟨_, _, rfl, nofun⟩
  takes := by
    intro ts hts fuel t rest hfuel hend
    obtain ⟨test, ts, rfl, htest, hts⟩ := List.map_eq_cons_iff.1 hts
    obtain ⟨question, ts, rfl, hquestion, hts⟩ := List.map_eq_cons_iff.1 hts
    obtain ⟨callee, ts, rfl, hcallee, hts⟩ := List.map_eq_cons_iff.1 hts
    obtain ⟨opener, ts, rfl, hopener, hts⟩ := List.map_eq_cons_iff.1 hts
    obtain ⟨closer, ts, rfl, hcloser, hts⟩ := List.map_eq_cons_iff.1 hts
    obtain ⟨colon, ts, rfl, hcolon, hts⟩ := List.map_eq_cons_iff.1 hts
    obtain ⟨null, rfl, hnull⟩ := List.map_eq_singleton_iff.1 hts
    have hname : atom? test.kind = some (.name id) := by rw [htest]; rfl
    have hagain : atom? callee.kind = some (.name id) := by rw [hcallee]; rfl
    have hatom : atom? null.kind = some .null := by rw [hnull]; rfl
    have hcolon_end : endsExpr colon.kind = true := by rw [hcolon]; rfl
    obtain ⟨hunary, hnew, -⟩ := no_prefix_of_atom hname
    obtain ⟨hunary', hnew', -⟩ := no_prefix_of_atom hagain
    match fuel, hfuel with
    | fuel + 12, _ =>
      have hleft : (leftHandSide (fuel + 11)).run (test :: question :: callee :: opener :: closer ::
          colon :: null :: t :: rest)
          = some (.name id,
            question :: callee :: opener :: closer :: colon :: null :: t :: rest) := by
        rw [run_leftHandSide hnew (run_primary_atom hname)]
        refine run_callTail ?_ ?_ ?_
        all_goals rw [hquestion]; exact nofun
      have hargs : (arguments (fuel + 6)).run (opener :: closer :: colon :: null :: t :: rest)
          = some ([], colon :: null :: t :: rest) := by
        rw [arguments, run_bind_of_eq (run_expectMark hopener), run_bind_of_eq (run_accept hcloser)]
        rfl
      have hcall : (leftHandSide (fuel + 8)).run (callee :: opener :: closer :: colon :: null
          :: t :: rest) = some (.call (.name id) [], colon :: null :: t :: rest) := by
        rw [run_leftHandSide hnew' (run_primary_atom hagain), callTail, run_bind_of_eq run_peek,
          hopener]
        show (arguments (fuel + 6) >>= _).run _ = _
        rw [run_bind_of_eq hargs, run_callTail_end hcolon_end]
      have hyes : (assignment (fuel + 9) .free).run (callee :: opener :: closer :: colon :: null ::
          t :: rest) = some (.call (.name id) [], colon :: null :: t :: rest) := by
        rw [run_assignment hunary' hcall, run_assignmentTail_end hcolon_end]
      have hoperators : (operators (fuel + 10) .free (.name id)).run (question :: callee :: opener
          :: closer :: colon :: null :: t :: rest)
          = some (.cond (.name id) (.call (.name id) []) .null, t :: rest) := by
        rw [operators, run_bind_of_eq (run_binaryTail (by rw [hquestion]; rfl)),
          run_bind_of_eq (run_accept hquestion)]
        show (assignment (fuel + 9) .free >>= _).run _ = _
        rw [run_bind_of_eq hyes, run_bind_of_eq (run_expectMark hcolon)]
        show (assignment (fuel + 9) .free >>= _).run _ = _
        rw [run_bind_of_eq (run_assignment_atom hatom hend)]
        rfl
      show (assignment (fuel + 12) .free).run (test :: question :: callee :: opener :: closer ::
        colon :: null :: t :: rest) = _
      rw [run_assignment hunary hleft, assignmentTail, run_bind_of_eq run_peek, hquestion]
      show (stepTail (.name id) >>= operators (fuel + 10) .free).run _ = _
      rw [run_bind_of_eq (run_stepTail (by rw [hquestion]; rfl)), hoperators]

/-! ## Choices -/

/-- Tokens of the clauses of a switch, up to its closing brace. -/
structure ReadsClauses (ks : List TokenKind) (cs : List Clause) : Prop where
  head : ∀ kind more, ks = kind :: more → closesStatements kind = true
  takes : Takes (· = .mark .rbrace) clauses ks cs

theorem ReadsClauses.nil : ReadsClauses [] [] where
  head := nofun
  takes := by
    intro ts hts fuel t rest hfuel ht
    obtain rfl := List.map_eq_nil_iff.1 hts
    match fuel, hfuel with
    | fuel + 1, _ =>
      rw [clauses, List.nil_append, run_bind_of_eq (run_accept_of_ne (by rw [ht]; exact nofun))]
      show (accept (.keyword .default) >>= _).run (t :: rest) = _
      rw [run_bind_of_eq (run_accept_of_ne (by rw [ht]; exact nofun))]
      rfl

/-- The body of a clause and the clauses after it. -/
theorem ReadsClauses.run_body {ks more : List TokenKind} {ss : List Stmt} {cs : List Clause}
    (hbody : Reads ks ss) (hmore : ReadsClauses more cs) {us vs : List Token}
    (hus : us.map (·.kind) = ks) (hvs : vs.map (·.kind) = more) (fuel : Nat)
    (hfuel : 16 * ks.length + 16 * more.length + 1 < fuel) {t : Token} (rest : List Token)
    (ht : t.kind = .mark .rbrace) :
    (statements fuel).run (us ++ (vs ++ t :: rest)) = some (ss, vs ++ t :: rest) ∧
      (clauses fuel).run (vs ++ t :: rest) = some (cs, t :: rest) := by
  constructor
  · cases vs with
    | nil => exact hbody.takes hus rest (by omega) (by rw [ht]; rfl)
    | cons v vs => exact hbody.takes hus (vs ++ t :: rest) (by omega) (hmore.head _ _ hvs.symm)
  · exact hmore.takes vs hvs fuel t rest (by omega) ht

/-- A clause for one value. -/
theorem ReadsClauses.on {label : String} {ks more : List TokenKind} {ss : List Stmt}
    {cs : List Clause} (hbody : Reads ks ss) (hmore : ReadsClauses more cs) :
    ReadsClauses (.keyword .case :: .name label :: .mark .colon :: (ks ++ more))
      (.on (.name label) ss :: cs) where
  head := by
    rintro kind more ⟨⟩
    rfl
  takes := by
    intro ts hts fuel t rest hfuel ht
    obtain ⟨word, ts, rfl, hword, hts⟩ := List.map_eq_cons_iff.1 hts
    obtain ⟨name, ts, rfl, hname, hts⟩ := List.map_eq_cons_iff.1 hts
    obtain ⟨colon, ts, rfl, hcolon, hts⟩ := List.map_eq_cons_iff.1 hts
    obtain ⟨us, vs, rfl, hus, hvs⟩ := List.map_eq_append_iff.1 hts
    have hatom : atom? name.kind = some (.name label) := by rw [hname]; rfl
    have hend : endsExpr colon.kind = true := by rw [hcolon]; rfl
    have hcomma : colon.kind ≠ .mark .comma := by rw [hcolon]; exact nofun
    simp only [List.length_cons, List.length_append] at hfuel
    match fuel, hfuel with
    | fuel + 6, hfuel =>
      obtain ⟨hstatements, hclauses⟩ :=
        run_body hbody hmore hus hvs (fuel + 5) (by omega) rest ht
      have hlabel : (expr (fuel + 5) .free).run (name :: colon :: (us ++ (vs ++ t :: rest)))
          = some (.name label, colon :: (us ++ (vs ++ t :: rest))) :=
        run_expr hcomma (run_assignment_atom hatom hend)
      have htokens : word :: name :: colon :: (us ++ vs) ++ t :: rest
          = word :: name :: colon :: (us ++ (vs ++ t :: rest)) := by simp
      rw [htokens, clauses, run_bind_of_eq (run_accept hword)]
      show (expr (fuel + 5) .free >>= _).run _ = _
      rw [run_bind_of_eq hlabel, run_bind_of_eq (run_expectMark hcolon), run_bind_of_eq hstatements,
        run_bind_of_eq hclauses]
      rfl

/-- The clause for all other values. -/
theorem ReadsClauses.otherwise {ks more : List TokenKind} {ss : List Stmt} {cs : List Clause}
    (hbody : Reads ks ss) (hmore : ReadsClauses more cs) :
    ReadsClauses (.keyword .default :: .mark .colon :: (ks ++ more)) (.otherwise ss :: cs) where
  head := by
    rintro kind more ⟨⟩
    rfl
  takes := by
    intro ts hts fuel t rest hfuel ht
    obtain ⟨word, ts, rfl, hword, hts⟩ := List.map_eq_cons_iff.1 hts
    obtain ⟨colon, ts, rfl, hcolon, hts⟩ := List.map_eq_cons_iff.1 hts
    obtain ⟨us, vs, rfl, hus, hvs⟩ := List.map_eq_append_iff.1 hts
    simp only [List.length_cons, List.length_append] at hfuel
    match fuel, hfuel with
    | fuel + 1, hfuel =>
      obtain ⟨hstatements, hclauses⟩ :=
        run_body hbody hmore hus hvs fuel (by omega) rest ht
      have htokens : word :: colon :: (us ++ vs) ++ t :: rest
          = word :: colon :: (us ++ (vs ++ t :: rest)) := by simp
      rw [htokens, clauses, run_bind_of_eq (run_accept_of_ne (by rw [hword]; exact nofun))]
      show (accept (.keyword .default) >>= _).run _ = _
      rw [run_bind_of_eq (run_accept hword)]
      show (expectMark .colon >>= _).run _ = _
      rw [run_bind_of_eq (run_expectMark hcolon), run_bind_of_eq hstatements,
        run_bind_of_eq hclauses]
      rfl

/-- A switch over a name. -/
theorem Reads.switch {id : String} {ks : List TokenKind} {cs : List Clause}
    (h : ReadsClauses ks cs) (hdefault : cs.countP (·.isOtherwise) ≤ 1) :
    Reads (.keyword .switch :: .mark .lparen :: .name id :: .mark .rparen :: bracedKinds ks)
      [.switch (.name id) cs] := by
  refine .of_takes rfl ?_
  intro ts hts fuel t rest hfuel _
  obtain ⟨word, ts, rfl, hword, hts⟩ := List.map_eq_cons_iff.1 hts
  obtain ⟨opener, ts, rfl, hopener, hts⟩ := List.map_eq_cons_iff.1 hts
  obtain ⟨name, ts, rfl, hname, hts⟩ := List.map_eq_cons_iff.1 hts
  obtain ⟨closer, ts, rfl, hcloser, hts⟩ := List.map_eq_cons_iff.1 hts
  obtain ⟨lbrace, ts, rfl, hlbrace, hts⟩ := List.map_eq_cons_iff.1 hts
  obtain ⟨inner, rbraces, rfl, hinner, hrbraces⟩ := List.map_eq_append_iff.1 hts
  obtain ⟨rbrace, rfl, hrbrace⟩ := List.map_eq_singleton_iff.1 hrbraces
  have hatom : atom? name.kind = some (.name id) := by rw [hname]; rfl
  have hend : endsExpr closer.kind = true := by rw [hcloser]; rfl
  have hcomma : closer.kind ≠ .mark .comma := by rw [hcloser]; exact nofun
  simp only [List.length_cons, length_bracedKinds] at hfuel
  match fuel, hfuel with
  | fuel + 7, hfuel =>
    have hsubject : (parenthesized (fuel + 6)).run (opener :: name :: closer :: lbrace ::
        (inner ++ rbrace :: t :: rest))
        = some (.name id, lbrace :: (inner ++ rbrace :: t :: rest)) := by
      rw [parenthesized, run_bind_of_eq (run_expectMark hopener),
        run_bind_of_eq (run_expr hcomma (run_assignment_atom hatom hend)),
        run_bind_of_eq (run_expectMark hcloser)]
      rfl
    have hclauses := h.takes inner hinner (fuel + 6) rbrace (t :: rest) (by omega) hrbrace
    have htokens : word :: opener :: name :: closer :: lbrace :: (inner ++ [rbrace]) ++ t :: rest
        = word :: opener :: name :: closer :: lbrace :: (inner ++ rbrace :: t :: rest) := by simp
    rw [htokens, statement, run_bind_of_eq run_peek, hword]
    show (skip >>= _).run _ = _
    rw [run_bind_of_eq run_skip, run_bind_of_eq hsubject, run_bind_of_eq (run_expectMark hlbrace),
      run_bind_of_eq hclauses, run_bind_of_eq (run_expectMark hrbrace),
      if_neg (Nat.not_lt.2 hdefault)]
    rfl

end Reader

/-! ## Programs -/

theorem length_kinds_le (parts : List Lexeme) : (kinds parts).length ≤ parts.length :=
  List.length_filterMap_le _ _

/-- A text whose tokens are statements is a program of these statements. -/
theorem parse_of_kinds {found : List TokenKind} {ss : List Stmt} {source : String}
    (htokenize : (tokenize source).map (·.kind) = found ++ [TokenKind.eof])
    (hlength : found.length ≤ source.length) (hreads : Reader.Reads found ss) :
    parse source = some ss := by
  obtain ⟨ts, ends, htokens, hts, hends⟩ := List.map_eq_append_iff.1 htokenize
  obtain ⟨⟨kind, line, retry⟩, rfl, rfl⟩ := List.map_eq_singleton_iff.1 hends
  have hfuel : 16 * found.length + 1 < readingDepth source.length := by
    rw [readingDepth]
    omega
  have hstatements := hreads.takes hts [] hfuel (t := ⟨.eof, line, retry⟩) rfl
  rw [parse, htokens, parseTokens, hstatements]
  rfl

/-- Spelled text whose tokens are statements is a program of these statements. -/
theorem parse_spelling {parts : List Lexeme} {ss : List Stmt} {source : String}
    (hsource : source.toList = spelling parts) (hspelled : Spelled parts)
    (hreads : Reader.Reads (kinds parts) ss) : parse source = some ss := by
  refine parse_of_kinds (tokenize_spelling hspelled hsource) ?_ hreads
  have hparts := length_le_length_spelling hspelled
  rw [← hsource, String.length_toList] at hparts
  exact Nat.le_trans (length_kinds_le parts) hparts

end Espalier.Script
