import Espalier.Proofs.Script.Reading
import Mathlib.Data.List.Forall2

/-!
# Reading the statements of render functions

A render function declares arrays, adds to them and returns them. These are the readers' answers to
the tokens of such statements: `ReadsLeft` is the relation for fields and calls after a name, which
group to the left, and the statements are put together from it and from `ReadsArg`.
-/

namespace Espalier.Script

namespace Reader

/-! ## Fields and calls -/

/-- Tokens of a left-hand side: the reader goes on behind them with what may follow it. Every token
costs at most one unit of fuel, and some fuel is left for what follows. -/
structure ReadsLeft (ks : List TokenKind) (e : Expr) : Prop where
  head : ∃ kind more, ks = kind :: more ∧ UnaryOp.ofToken? kind = none ∧ kind ≠ .mark .rparen
  run : ∀ ts : List Token, ts.map (·.kind) = ks → ∀ (fuel : Nat) (t : Token) (rest : List Token),
    16 * ks.length ≤ fuel + 8 → ∃ left, fuel ≤ left + ks.length ∧
      (leftHandSide fuel).run (ts ++ t :: rest) = (callTail left e).run (t :: rest)

theorem ReadsLeft.atom {kind : TokenKind} {e : Expr} (h : atom? kind = some e) :
    ReadsLeft [kind] e where
  head := by
    obtain ⟨hunary, -, hparen⟩ := no_prefix_of_atom h
    exact ⟨kind, [], rfl, hunary, hparen⟩
  run := by
    intro ts hts fuel t rest hfuel
    obtain ⟨u, rfl, rfl⟩ := List.map_eq_singleton_iff.1 hts
    rw [List.length_singleton] at hfuel
    match fuel, hfuel with
    | fuel + 3, _ =>
      refine ⟨fuel + 2, Nat.le_refl _, ?_⟩
      exact run_leftHandSide (no_prefix_of_atom h).2.1 (run_primary_atom h)

theorem ReadsLeft.dot {ks : List TokenKind} {e : Expr} (h : ReadsLeft ks e) (field : String) :
    ReadsLeft (ks ++ [.mark .dot, .name field]) (.dot e field) where
  head := by
    obtain ⟨kind, more, rfl, hkind⟩ := h.head
    exact ⟨kind, _, rfl, hkind⟩
  run := by
    intro ts hts fuel t rest hfuel
    obtain ⟨owner, ts, rfl, howner, hts⟩ := List.map_eq_append_iff.1 hts
    obtain ⟨dot, ts, rfl, hdot, hts⟩ := List.map_eq_cons_iff.1 hts
    obtain ⟨name, rfl, hname⟩ := List.map_eq_singleton_iff.1 hts
    simp only [List.length_append, List.length_cons, List.length_nil] at hfuel
    obtain ⟨left, hleft, hrun⟩ := h.run owner howner fuel dot (name :: t :: rest) (by omega)
    obtain ⟨left, rfl⟩ : ∃ more, left = more + 1 := ⟨left - 1, by omega⟩
    refine ⟨left, by simp only [List.length_append, List.length_cons]; omega, ?_⟩
    have hfield : fieldName.run (name :: t :: rest) = some (field, t :: rest) := by
      rw [fieldName, run_bind_of_eq run_peek, hname]
      rfl
    rw [List.append_assoc]
    show (leftHandSide fuel).run (owner ++ dot :: name :: t :: rest) = _
    rw [hrun, callTail, run_bind_of_eq run_peek, hdot]
    show (skip >>= _).run (dot :: name :: t :: rest) = _
    rw [run_bind_of_eq run_skip, run_bind_of_eq hfield]

theorem ReadsLeft.call {ks args : List TokenKind} {e : Expr} {es : List Expr} (h : ReadsLeft ks e)
    (hargs : Takes (fun _ => True) arguments (.mark .lparen :: args) es) :
    ReadsLeft (ks ++ .mark .lparen :: args) (.call e es) where
  head := by
    obtain ⟨kind, more, rfl, hkind⟩ := h.head
    exact ⟨kind, _, rfl, hkind⟩
  run := by
    intro ts hts fuel t rest hfuel
    obtain ⟨callee, ts, rfl, hcallee, hts⟩ := List.map_eq_append_iff.1 hts
    have hlist := hts
    obtain ⟨paren, inner, rfl, hparen, -⟩ := List.map_eq_cons_iff.1 hlist
    obtain ⟨kind, more, hks, -⟩ := h.head
    have hpos : 1 ≤ ks.length := by rw [hks]; exact Nat.succ_le_succ (Nat.zero_le _)
    simp only [List.length_append, List.length_cons] at hfuel
    obtain ⟨left, hleft, hrun⟩ := h.run callee hcallee fuel paren (inner ++ t :: rest) (by omega)
    obtain ⟨left, rfl⟩ : ∃ more, left = more + 1 := ⟨left - 1, by omega⟩
    refine ⟨left, by simp only [List.length_append, List.length_cons]; omega, ?_⟩
    have hread := hargs (paren :: inner) hts left t rest
      (by simp only [List.length_cons]; omega) trivial
    rw [List.append_assoc]
    show (leftHandSide fuel).run (callee ++ paren :: (inner ++ t :: rest)) = _
    rw [hrun, callTail, run_bind_of_eq run_peek, hparen]
    show (arguments left >>= _).run (paren :: inner ++ t :: rest) = _
    rw [run_bind_of_eq hread]

/-- An expression in brackets. -/
theorem ReadsLeft.index {ks position : List TokenKind} {e p : Expr} (h : ReadsLeft ks e)
    (hposition : ReadsArg position p) :
    ReadsLeft (ks ++ .mark .lbracket :: (position ++ [.mark .rbracket])) (.index e p) where
  head := by
    obtain ⟨kind, more, rfl, hkind⟩ := h.head
    exact ⟨kind, _, rfl, hkind⟩
  run := by
    intro ts hts fuel t rest hfuel
    obtain ⟨owner, ts, rfl, howner, hts⟩ := List.map_eq_append_iff.1 hts
    obtain ⟨opener, ts, rfl, hopener, hts⟩ := List.map_eq_cons_iff.1 hts
    obtain ⟨inner, closers, rfl, hinner, hclosers⟩ := List.map_eq_append_iff.1 hts
    obtain ⟨closer, rfl, hcloser⟩ := List.map_eq_singleton_iff.1 hclosers
    simp only [List.length_append, List.length_cons, List.length_nil] at hfuel
    obtain ⟨left, hleft, hrun⟩ :=
      h.run owner howner fuel opener (inner ++ closer :: t :: rest) (by omega)
    obtain ⟨left, rfl⟩ : ∃ more, left = more + 3 := ⟨left - 3, by omega⟩
    refine ⟨left + 2, by simp only [List.length_append, List.length_cons]; omega, ?_⟩
    have hread : (expr (left + 2) .free).run (inner ++ closer :: t :: rest)
        = some (p, closer :: t :: rest) :=
      run_expr (by rw [hcloser]; exact nofun)
        (hposition.takes inner hinner (left + 1) closer (t :: rest) (by omega)
          (by rw [hcloser]; rfl))
    have htokens : owner ++ opener :: (inner ++ [closer]) ++ t :: rest
        = owner ++ opener :: (inner ++ closer :: t :: rest) := by simp
    rw [htokens, hrun, callTail, run_bind_of_eq run_peek, hopener]
    show (skip >>= _).run (opener :: (inner ++ closer :: t :: rest)) = _
    rw [run_bind_of_eq run_skip, run_bind_of_eq hread, run_bind_of_eq (run_expectMark hcloser)]

/-- A left-hand side before the end of an expression. -/
theorem ReadsLeft.run_end {ks : List TokenKind} {e : Expr} (h : ReadsLeft ks e) {ts : List Token}
    (hts : ts.map (·.kind) = ks) {fuel : Nat} {t : Token} (rest : List Token)
    (hfuel : 16 * ks.length ≤ fuel + 8) (ht : endsExpr t.kind = true) :
    (leftHandSide fuel).run (ts ++ t :: rest) = some (e, t :: rest) := by
  obtain ⟨kind, more, hks, -⟩ := h.head
  have hpos : 1 ≤ ks.length := by rw [hks]; exact Nat.succ_le_succ (Nat.zero_le _)
  obtain ⟨left, hleft, hrun⟩ := h.run ts hts fuel t rest hfuel
  obtain ⟨left, rfl⟩ : ∃ more, left = more + 1 := ⟨left - 1, by omega⟩
  rw [hrun, run_callTail_end ht]

/-- A left-hand side is an expression by itself. -/
theorem ReadsLeft.run_assignment {ks : List TokenKind} {e : Expr} (h : ReadsLeft ks e)
    {ts : List Token} (hts : ts.map (·.kind) = ks) {place : Place} {fuel : Nat} {t : Token}
    (rest : List Token) (hfuel : 16 * ks.length ≤ fuel + 11) (ht : endsExpr t.kind = true) :
    (assignment (fuel + 4) place).run (ts ++ t :: rest) = some (e, t :: rest) := by
  obtain ⟨kind, more, rfl, hunary, -⟩ := h.head
  have hleft : (leftHandSide (fuel + 3)).run (ts ++ t :: rest) = some (e, t :: rest) :=
    h.run_end hts rest (by omega) ht
  obtain ⟨u, us, rfl, rfl, -⟩ := List.map_eq_cons_iff.1 hts
  rw [List.cons_append] at hleft ⊢
  rw [Reader.run_assignment hunary hleft, run_assignmentTail_end ht]

theorem ReadsLeft.readsArg {ks : List TokenKind} {e : Expr} (h : ReadsLeft ks e) :
    ReadsArg ks e where
  head := by
    obtain ⟨kind, more, hks, -, hparen⟩ := h.head
    exact ⟨kind, more, hks, hparen⟩
  takes := by
    intro ts hts fuel t rest hfuel ht
    obtain ⟨kind, more, hks, -⟩ := h.head
    have hpos : 1 ≤ ks.length := by rw [hks]; exact Nat.succ_le_succ (Nat.zero_le _)
    obtain ⟨fuel, rfl⟩ : ∃ more, fuel = more + 4 := ⟨fuel - 4, by omega⟩
    exact h.run_assignment hts rest (by omega) ht

/-! ## Arrays -/

/-- Tokens with commas between them. -/
def commaKinds : List TokenKind → List TokenKind
  | [] => []
  | [kind] => [kind]
  | kind :: more => kind :: .mark .comma :: commaKinds more

theorem run_commas {t : Token} {rest : List Token} {fuel : Nat} (h : t.kind ≠ .mark .comma) :
    (commas (fuel + 1)).run (t :: rest) = some (0, t :: rest) := by
  rw [commas, run_bind_of_eq (run_accept_of_ne h)]
  rfl

theorem ne_of_atom {kind : TokenKind} {e : Expr} (h : atom? kind = some e) :
    kind ≠ .mark .comma ∧ kind ≠ .mark .rbracket := by
  unfold atom? at h
  split at h
  case h_5 => cases h
  all_goals exact ⟨nofun, nofun⟩

/-- The items of an array of atoms, up to its bracket. -/
theorem run_arrayItems {kinds : List TokenKind} {es : List Expr}
    (h : List.Forall₂ (fun kind e => atom? kind = some e) kinds es) :
    ∀ {ts : List Token}, ts.map (·.kind) = commaKinds kinds ++ [.mark .rbracket] →
    ∀ {fuel : Nat}, es.length + 5 ≤ fuel → ∀ rest : List Token,
      (arrayItems fuel).run (ts ++ rest) = some (es.map .value, rest) := by
  induction h with
  | nil =>
    intro ts hts fuel hfuel rest
    obtain ⟨closer, rfl, hcloser⟩ := List.map_eq_singleton_iff.1 hts
    match fuel, hfuel with
    | fuel + 2, _ =>
      rw [arrayItems, List.singleton_append,
        run_bind_of_eq (run_commas (by rw [hcloser]; exact nofun))]
      show (accept (.mark .rbracket) >>= _).run (closer :: rest) = _
      rw [run_bind_of_eq (run_accept hcloser)]
      rfl
  | @cons kind e kinds es hatom hrest ih =>
    intro ts hts fuel hfuel rest
    rw [List.length_cons] at hfuel
    obtain ⟨hcomma, hbracket⟩ := ne_of_atom hatom
    cases hrest with
    | nil =>
      obtain ⟨item, ts, rfl, hitem, hts⟩ := List.map_eq_cons_iff.1 hts
      obtain ⟨closer, rfl, hcloser⟩ := List.map_eq_singleton_iff.1 hts
      subst hitem
      match fuel, hfuel with
      | fuel + 5, _ =>
        have hvalue : (assignment (fuel + 4) .free).run (item :: closer :: rest)
            = some (e, closer :: rest) :=
          run_assignment_atom hatom (by rw [hcloser]; rfl)
        show (arrayItems (fuel + 5)).run (item :: closer :: rest) = _
        rw [arrayItems, run_bind_of_eq (run_commas hcomma)]
        show (accept (.mark .rbracket) >>= _).run (item :: closer :: rest) = _
        rw [run_bind_of_eq (run_accept_of_ne hbracket)]
        show (assignment (fuel + 4) .free >>= _).run (item :: closer :: rest) = _
        rw [run_bind_of_eq hvalue,
          run_bind_of_eq (run_accept_of_ne (by rw [hcloser]; exact nofun))]
        show (expectMark .rbracket >>= _).run (closer :: rest) = _
        rw [run_bind_of_eq (run_expectMark hcloser)]
        rfl
    | @cons next f kinds es hnext hmore =>
      obtain ⟨item, ts, rfl, hitem, hmarks⟩ := List.map_eq_cons_iff.1 hts
      obtain ⟨comma, ts, rfl, hcomma_kind, hothers⟩ := List.map_eq_cons_iff.1 hmarks
      subst hitem
      match fuel, hfuel with
      | fuel + 5, hfuel =>
        have hvalue : (assignment (fuel + 4) .free).run (item :: comma :: (ts ++ rest))
            = some (e, comma :: (ts ++ rest)) :=
          run_assignment_atom hatom (by rw [hcomma_kind]; rfl)
        have hrun : (arrayItems (fuel + 4)).run (ts ++ rest)
            = some ((f :: es).map .value, rest) := ih hothers (by omega) rest
        show (arrayItems (fuel + 5)).run (item :: comma :: (ts ++ rest)) = _
        rw [arrayItems, run_bind_of_eq (run_commas hcomma)]
        show (accept (.mark .rbracket) >>= _).run (item :: comma :: (ts ++ rest)) = _
        rw [run_bind_of_eq (run_accept_of_ne hbracket)]
        show (assignment (fuel + 4) .free >>= _).run (item :: comma :: (ts ++ rest)) = _
        rw [run_bind_of_eq hvalue, run_bind_of_eq (run_accept hcomma_kind)]
        show (arrayItems (fuel + 4) >>= _).run (ts ++ rest) = _
        rw [run_bind_of_eq hrun]
        rfl

theorem length_le_length_commaKinds (kinds : List TokenKind) :
    kinds.length ≤ (commaKinds kinds).length := by
  induction kinds with
  | nil => exact Nat.le_refl 0
  | cons kind kinds ih =>
    cases kinds with
    | nil => exact Nat.le_refl 1
    | cons next kinds =>
      have hcons : commaKinds (kind :: next :: kinds)
          = kind :: .mark .comma :: commaKinds (next :: kinds) := rfl
      rw [hcons]
      simp only [List.length_cons] at ih ⊢
      omega

/-- An array of atoms. -/
theorem ReadsArg.array {kinds : List TokenKind} {es : List Expr}
    (h : List.Forall₂ (fun kind e => atom? kind = some e) kinds es) :
    ReadsArg (.mark .lbracket :: (commaKinds kinds ++ [.mark .rbracket]))
      (.array (es.map .value)) where
  head := ⟨_, _, rfl, by rintro ⟨⟩⟩
  takes := by
    intro ts hts fuel t rest hfuel hend
    obtain ⟨opener, ts, rfl, hopener, hts⟩ := List.map_eq_cons_iff.1 hts
    have hlength := length_le_length_commaKinds kinds
    rw [h.length_eq] at hlength
    simp only [List.length_cons, List.length_append] at hfuel
    obtain ⟨fuel, rfl⟩ : ∃ less, fuel = less + 4 := ⟨fuel - 4, by omega⟩
    have hprimary : (primary (fuel + 1)).run (opener :: (ts ++ t :: rest))
        = some (.array (es.map .value), t :: rest) := by
      have hget : ∀ ts : List Token, (get : Reader (List Token)).run ts = some (ts, ts) :=
        fun _ => rfl
      have hset : ∀ us : List Token, (set us : Reader Unit).run (opener :: us) = some ((), us) :=
        fun _ => rfl
      rw [primary, run_bind_of_eq (hget _)]
      simp only [hopener]
      rw [run_bind_of_eq (hset _), run_bind_of_eq (run_arrayItems h hts (by omega) (t :: rest))]
      rfl
    exact run_assignment_primary (by rw [hopener]; rfl) (by rw [hopener]; rintro ⟨⟩) hend hprimary

/-! ## Statements -/

/-- A statement that begins with a name and is a left-hand side. -/
theorem takes_left {id : String} {kind : TokenKind} {ks : List TokenKind} {e : Expr}
    (h : ReadsLeft (.name id :: kind :: ks) e) (hkind : kind ≠ .mark .colon)
    (hfunction : e.isFunction = false) :
    Takes (fun _ => True) statement (.name id :: (kind :: ks ++ [TokenKind.mark .semi]))
      (.expr e) := by
  intro ts hts fuel t rest hfuel _
  obtain ⟨left, semis, rfl, hleft, hsemis⟩ :
      ∃ left semis, ts = left ++ semis ∧ left.map (·.kind) = .name id :: kind :: ks ∧
        semis.map (·.kind) = [TokenKind.mark .semi] := List.map_eq_append_iff.1 hts
  obtain ⟨semi, rfl, hsemi⟩ := List.map_eq_singleton_iff.1 hsemis
  simp only [List.length_cons, List.length_append, List.length_nil] at hfuel
  obtain ⟨fuel, rfl⟩ : ∃ more, fuel = more + 8 := ⟨fuel - 8, by omega⟩
  have hexpr : (expr (fuel + 6) .statement).run (left ++ semi :: t :: rest)
      = some (e, semi :: t :: rest) :=
    run_expr (by rw [hsemi]; exact nofun)
      (h.run_assignment hleft (t :: rest) (by simp only [List.length_cons]; omega)
        (by rw [hsemi]; rfl))
  have hstatement := run_expressionStatement hsemi hfunction hexpr
  obtain ⟨name, more, rfl, hname, hmore⟩ := List.map_eq_cons_iff.1 hleft
  obtain ⟨second, more, rfl, rfl, -⟩ := List.map_eq_cons_iff.1 hmore
  have htokens : name :: second :: more ++ [semi] ++ t :: rest
      = name :: second :: (more ++ semi :: t :: rest) := by simp
  rw [htokens, run_statement_name hname hkind]
  exact hstatement

/-- An assignment of a value to a name. -/
theorem takes_assigned {id : String} {ks : List TokenKind} {e : Expr} (h : ReadsArg ks e) :
    Takes (fun _ => True) statement
      (.name id :: .mark (.assign .plain) :: (ks ++ [TokenKind.mark .semi]))
      (.expr (.assign .plain (.name id) e)) := by
  intro ts hts fuel t rest hfuel _
  obtain ⟨name, ts, rfl, hname, hts⟩ := List.map_eq_cons_iff.1 hts
  obtain ⟨equals, ts, rfl, hequals, hts⟩ := List.map_eq_cons_iff.1 hts
  obtain ⟨value, semis, rfl, hvalue, hsemis⟩ := List.map_eq_append_iff.1 hts
  obtain ⟨semi, rfl, hsemi⟩ := List.map_eq_singleton_iff.1 hsemis
  have hend : endsExpr semi.kind = true := by rw [hsemi]; rfl
  have hatom : atom? name.kind = some (.name id) := by rw [hname]; rfl
  obtain ⟨hunary, hnew, -⟩ := no_prefix_of_atom hatom
  simp only [List.length_cons, List.length_append, List.length_nil] at hfuel
  obtain ⟨fuel, rfl⟩ : ∃ more, fuel = more + 9 := ⟨fuel - 9, by omega⟩
  have hright := h.takes value hvalue (fuel + 4) semi (t :: rest) (by omega) hend
  have hleft : (leftHandSide (fuel + 5)).run (name :: equals :: (value ++ semi :: t :: rest))
      = some (.name id, equals :: (value ++ semi :: t :: rest)) := by
    rw [run_leftHandSide hnew (run_primary_atom hatom)]
    refine run_callTail ?_ ?_ ?_
    all_goals rw [hequals]; rintro ⟨⟩
  have htail : (assignmentTail (fuel + 5) .statement (.name id)).run
      (equals :: (value ++ semi :: t :: rest))
      = some (.assign .plain (.name id) e, semi :: t :: rest) := by
    rw [assignmentTail, run_bind_of_eq run_peek, hequals]
    show (skip >>= _).run (equals :: (value ++ semi :: t :: rest)) = _
    rw [run_bind_of_eq run_skip]
    show (assignment (fuel + 4) .free >>= _).run (value ++ semi :: t :: rest) = _
    rw [run_bind_of_eq hright]
    rfl
  have hexpr : (expr (fuel + 7) .statement).run (name :: equals :: (value ++ semi :: t :: rest))
      = some (.assign .plain (.name id) e, semi :: t :: rest) := by
    refine run_expr (by rw [hsemi]; rintro ⟨⟩) ?_
    rw [run_assignment hunary hleft, htail]
  have htokens : name :: equals :: (value ++ [semi]) ++ t :: rest
      = name :: equals :: (value ++ semi :: t :: rest) := by simp
  rw [htokens, run_statement_name hname (by rw [hequals]; rintro ⟨⟩)]
  exact run_expressionStatement hsemi rfl hexpr

/-- A declaration, by what the reader makes of its variables. -/
theorem run_statement_vars {var semi : Token} {ts rest : List Token} {bs : List Binding}
    {fuel : Nat} (hvar : var.kind = .keyword .var) (hsemi : semi.kind = .mark .semi)
    (hbindings : (bindings fuel .free).run ts = some (bs, semi :: rest)) :
    (statement (fuel + 1)).run (var :: ts) = some (.vars bs, rest) := by
  rw [statement, run_bind_of_eq run_peek, hvar]
  show (skip >>= _).run (var :: ts) = _
  rw [run_bind_of_eq run_skip, run_bind_of_eq hbindings, run_bind_of_eq (run_endStatement hsemi)]
  rfl

/-- A declaration of one variable with its value. -/
theorem takes_declared {id : String} {ks : List TokenKind} {e : Expr} (h : ReadsArg ks e) :
    Takes (fun _ => True) statement
      (.keyword .var :: .name id :: .mark (.assign .plain) :: (ks ++ [TokenKind.mark .semi]))
      (.vars [.init id e]) := by
  intro ts hts fuel t rest hfuel _
  obtain ⟨var, ts, rfl, hvar, hts⟩ := List.map_eq_cons_iff.1 hts
  obtain ⟨name, ts, rfl, hname, hts⟩ := List.map_eq_cons_iff.1 hts
  obtain ⟨equals, ts, rfl, hequals, hts⟩ := List.map_eq_cons_iff.1 hts
  obtain ⟨value, semis, rfl, hvalue, hsemis⟩ := List.map_eq_append_iff.1 hts
  obtain ⟨semi, rfl, hsemi⟩ := List.map_eq_singleton_iff.1 hsemis
  simp only [List.length_cons, List.length_append, List.length_nil] at hfuel
  obtain ⟨fuel, rfl⟩ : ∃ more, fuel = more + 2 := ⟨fuel - 2, by omega⟩
  have hright := h.takes value hvalue fuel semi (t :: rest) (by omega) (by rw [hsemi]; rfl)
  have htokens : var :: name :: equals :: (value ++ [semi]) ++ t :: rest
      = var :: name :: equals :: (value ++ semi :: t :: rest) := by simp
  rw [htokens]
  refine run_statement_vars hvar hsemi ?_
  rw [bindings, run_bind_of_eq (run_identifier hname), run_bind_of_eq (run_accept hequals)]
  show (assignment fuel .free >>= _).run (value ++ semi :: t :: rest) = _
  rw [run_bind_of_eq hright, pure_bind,
    run_bind_of_eq (run_accept_of_ne (by rw [hsemi]; rintro ⟨⟩))]
  rfl

/-- The variables of a declaration without values. -/
theorem run_bindings_bare (names : List String) : ∀ (first : String) {ts : List Token},
    ts.map (·.kind) = .name first :: moreNameKinds names → ∀ {fuel : Nat}, names.length < fuel →
    ∀ {t : Token} (rest : List Token), t.kind ≠ .mark .comma → t.kind ≠ .mark (.assign .plain) →
    (bindings fuel .free).run (ts ++ t :: rest)
      = some ((first :: names).map .bare, t :: rest) := by
  induction names with
  | nil =>
    intro first ts hts fuel hfuel t rest hcomma hassign
    obtain ⟨name, rfl, hname⟩ := List.map_eq_singleton_iff.1 hts
    obtain _ | fuel := fuel
    · cases hfuel
    rw [bindings, List.singleton_append, run_bind_of_eq (run_identifier hname),
      run_bind_of_eq (run_accept_of_ne hassign)]
    show (pure (Binding.bare first) >>= _ : Reader (List Binding)).run (t :: rest) = _
    rw [pure_bind, run_bind_of_eq (run_accept_of_ne hcomma)]
    rfl
  | cons next names ih =>
    intro first ts hts fuel hfuel t rest hcomma hassign
    obtain ⟨name, ts, rfl, hname, hts⟩ := List.map_eq_cons_iff.1 hts
    obtain ⟨comma, ts, rfl, hcomma_kind, hts⟩ := List.map_eq_cons_iff.1 hts
    obtain _ | fuel := fuel
    · cases hfuel
    have hmore := ih next hts (Nat.lt_of_succ_lt_succ hfuel) rest hcomma hassign
    rw [bindings, List.cons_append, run_bind_of_eq (run_identifier hname), List.cons_append,
      run_bind_of_eq (run_accept_of_ne (by rw [hcomma_kind]; rintro ⟨⟩))]
    show (pure (Binding.bare first) >>= _ : Reader (List Binding)).run
      (comma :: (ts ++ t :: rest)) = _
    rw [pure_bind, run_bind_of_eq (run_accept hcomma_kind)]
    show (bindings fuel .free >>= _).run (ts ++ t :: rest) = _
    rw [run_bind_of_eq hmore]
    rfl

/-- A declaration of variables without values. -/
theorem takes_declaredAll (first : String) (names : List String) :
    Takes (fun _ => True) statement
      (.keyword .var :: .name first :: (moreNameKinds names ++ [TokenKind.mark .semi]))
      (.vars ((first :: names).map .bare)) := by
  intro ts hts fuel t rest hfuel _
  obtain ⟨var, ts, rfl, hvar, hts⟩ := List.map_eq_cons_iff.1 hts
  obtain ⟨bound, semis, rfl, hbound, hsemis⟩ :
      ∃ bound semis, ts = bound ++ semis ∧ bound.map (·.kind) = .name first :: moreNameKinds names ∧
        semis.map (·.kind) = [TokenKind.mark .semi] := List.map_eq_append_iff.1 hts
  obtain ⟨semi, rfl, hsemi⟩ := List.map_eq_singleton_iff.1 hsemis
  have hlength := length_moreNameKinds names
  simp only [List.length_cons, List.length_append, List.length_nil] at hfuel
  obtain ⟨fuel, rfl⟩ : ∃ more, fuel = more + 1 := ⟨fuel - 1, by omega⟩
  rw [List.cons_append, List.append_assoc, List.singleton_append]
  refine run_statement_vars hvar hsemi (run_bindings_bare names first hbound (by omega) _ ?_ ?_)
  all_goals rw [hsemi]; exact nofun

/-- A choice between two values by a strict comparison with an atom. -/
theorem ReadsArg.choice {left yes no : List TokenKind} {kind : TokenKind} {l r y n : Expr}
    (hleft : ReadsLeft left l) (hright : atom? kind = some r) (hyes : ReadsArg yes y)
    (hno : ReadsArg no n) :
    ReadsArg (left ++ .mark (.binary .eqStrict) :: kind :: .mark .question ::
      (yes ++ .mark .colon :: no)) (.cond (.binary .eqStrict l r) y n) where
  head := by
    obtain ⟨first, more, rfl, -, hparen⟩ := hleft.head
    exact ⟨first, _, rfl, hparen⟩
  takes := by
    intro ts hts fuel t rest hfuel hend
    obtain ⟨lefts, ts, rfl, hlefts, hts⟩ := List.map_eq_append_iff.1 hts
    obtain ⟨equals, ts, rfl, hequals, hts⟩ := List.map_eq_cons_iff.1 hts
    obtain ⟨right, ts, rfl, hright_kind, hts⟩ := List.map_eq_cons_iff.1 hts
    obtain ⟨question, ts, rfl, hquestion, hts⟩ := List.map_eq_cons_iff.1 hts
    obtain ⟨yeses, ts, rfl, hyeses, hts⟩ := List.map_eq_append_iff.1 hts
    obtain ⟨colon, nos, rfl, hcolon, hnos⟩ := List.map_eq_cons_iff.1 hts
    rw [← hright_kind] at hright
    obtain ⟨hunary, hnew, -⟩ := no_prefix_of_atom hright
    simp only [List.length_cons, List.length_append] at hfuel
    obtain ⟨fuel, rfl⟩ : ∃ more, fuel = more + 9 := ⟨fuel - 9, by omega⟩
    -- what follows the comparison
    let after := yeses ++ colon :: (nos ++ t :: rest)
    have hnot_dot : ∀ m, m = .dot ∨ m = .lbracket ∨ m = .lparen → question.kind ≠ .mark m := by
      rintro m (rfl | rfl | rfl) <;> rw [hquestion] <;> exact nofun
    obtain ⟨head, more, hhead, hfirst, -⟩ := hleft.head
    have hpos : 1 ≤ left.length := by rw [hhead]; exact Nat.succ_le_succ (Nat.zero_le _)
    obtain ⟨more, hmore, hrun⟩ := hleft.run lefts hlefts (fuel + 8) equals
      (right :: question :: after) (by omega)
    obtain ⟨more, rfl⟩ : ∃ less, more = less + 1 := ⟨more - 1, by omega⟩
    have hlefthand : (leftHandSide (fuel + 8)).run (lefts ++ equals :: right :: question :: after)
        = some (l, equals :: right :: question :: after) := by
      rw [hrun]
      refine run_callTail ?_ ?_ ?_
      all_goals rw [hequals]; exact nofun
    have hoperand : (unary (fuel + 5)).run (right :: question :: after)
        = some (r, question :: after) := by
      have hname : (leftHandSide (fuel + 4)).run (right :: question :: after)
          = some (r, question :: after) := by
        rw [run_leftHandSide hnew (run_primary_atom hright)]
        exact run_callTail (hnot_dot _ (.inl rfl)) (hnot_dot _ (.inr (.inl rfl)))
          (hnot_dot _ (.inr (.inr rfl)))
      rw [unary, run_bind_of_eq run_peek, hunary]
      show (leftHandSide (fuel + 4) >>= _).run (right :: question :: after) = _
      rw [run_bind_of_eq hname, run_stepTail (by rw [hquestion]; rfl)]
    have hbinary : (binaryTail (fuel + 6) .free 0 l).run (equals :: right :: question :: after)
        = some (.binary .eqStrict l r, question :: after) := by
      have hlbrace : right.kind ≠ .mark .lbrace := by
        intro heq
        rw [heq] at hright
        cases hright
      rw [binaryTail, run_bind_of_eq run_peek, hequals]
      show (skip >>= _).run (equals :: right :: question :: after) = _
      rw [run_bind_of_eq run_skip, run_bind_of_eq run_peek, if_neg fun h => hlbrace h.1]
      show (unary (fuel + 5) >>= _).run (right :: question :: after) = _
      rw [run_bind_of_eq hoperand, run_bind_of_eq (run_binaryTail (by rw [hquestion]; rfl)),
        run_binaryTail (by rw [hquestion]; rfl)]
    have hyes_run := hyes.takes yeses hyeses (fuel + 6) colon (nos ++ t :: rest) (by omega)
      (by rw [hcolon]; rfl)
    have hno_run := hno.takes nos hnos (fuel + 6) t rest (by omega) hend
    have hoperators : (operators (fuel + 7) .free l).run (equals :: right :: question :: after)
        = some (.cond (.binary .eqStrict l r) y n, t :: rest) := by
      rw [operators, run_bind_of_eq hbinary, run_bind_of_eq (run_accept hquestion)]
      show (assignment (fuel + 6) .free >>= _).run after = _
      rw [run_bind_of_eq hyes_run, run_bind_of_eq (run_expectMark hcolon)]
      show (assignment (fuel + 6) .free >>= _).run (nos ++ t :: rest) = _
      rw [run_bind_of_eq hno_run]
      rfl
    have htokens : lefts ++ equals :: right :: question :: (yeses ++ colon :: nos) ++ t :: rest
        = lefts ++ equals :: right :: question :: after := by simp [after]
    rw [hhead] at hlefts
    obtain ⟨u, us, rfl, rfl, -⟩ := List.map_eq_cons_iff.1 hlefts
    show (assignment (fuel + 9) .free).run _ = _
    rw [List.cons_append] at hlefthand
    rw [htokens, List.cons_append, run_assignment hfirst hlefthand, assignmentTail,
      run_bind_of_eq run_peek, hequals]
    show (stepTail l >>= operators (fuel + 7) .free).run _ = _
    rw [run_bind_of_eq (run_stepTail (by rw [hequals]; rfl)), hoperators]

/-- A function's result. -/
theorem takes_return {kind : TokenKind} {ks : List TokenKind} {e : Expr}
    (h : ReadsArg (kind :: ks) e) (hkind : kind.startsExpr = true) :
    Takes (fun _ => True) statement
      (.keyword .return :: (kind :: ks ++ [TokenKind.mark .semi])) (.ret (some e)) := by
  intro ts hts fuel t rest hfuel _
  obtain ⟨word, ts, rfl, hword, hts⟩ := List.map_eq_cons_iff.1 hts
  obtain ⟨value, semis, rfl, hvalue, hsemis⟩ := List.map_eq_append_iff.1 hts
  obtain ⟨semi, rfl, hsemi⟩ := List.map_eq_singleton_iff.1 hsemis
  simp only [List.length_cons, List.length_append, List.length_nil] at hfuel
  obtain ⟨fuel, rfl⟩ : ∃ more, fuel = more + 3 := ⟨fuel - 3, by omega⟩
  have hexpr : (expr (fuel + 2) .free).run (value ++ semi :: t :: rest)
      = some (e, semi :: t :: rest) :=
    run_expr (by rw [hsemi]; exact nofun) (h.takes value hvalue (fuel + 1) semi (t :: rest)
      (by simp only [List.length_cons]; omega) (by rw [hsemi]; rfl))
  obtain ⟨u, us, rfl, rfl, -⟩ := List.map_eq_cons_iff.1 hvalue
  have htokens : word :: (u :: us ++ [semi]) ++ t :: rest
      = word :: u :: (us ++ semi :: t :: rest) := by simp
  rw [htokens, statement, run_bind_of_eq run_peek, hword]
  show (skip >>= _).run (word :: u :: (us ++ semi :: t :: rest)) = _
  rw [run_bind_of_eq run_skip, run_bind_of_eq run_peek, if_pos hkind]
  show (expr (fuel + 2) .free >>= _).run (u :: us ++ semi :: t :: rest) = _
  rw [run_bind_of_eq hexpr, run_bind_of_eq (run_endStatement hsemi)]
  rfl

/-- The declaration of a function at the end of a program. -/
theorem takes_function {id : String} {names : List String} {ks : List TokenKind} {ss : List Stmt}
    (h : Reads ks ss) :
    Takes (· = .eof) statement
      (.keyword .function :: .name id :: (paramKinds names ++ bracedKinds ks))
      (.func id names ss) := by
  intro ts hts fuel t rest hfuel ht
  obtain ⟨word, ts, rfl, hword, hts⟩ := List.map_eq_cons_iff.1 hts
  obtain ⟨name, ts, rfl, hname, hts⟩ := List.map_eq_cons_iff.1 hts
  obtain ⟨ps, body, rfl, hps, hbody⟩ := List.map_eq_append_iff.1 hts
  have hlength := length_lt_length_paramKinds names
  simp only [List.length_cons, List.length_append, length_bracedKinds] at hfuel
  obtain ⟨fuel, rfl⟩ : ∃ more, fuel = more + 2 := ⟨fuel - 2, by omega⟩
  have htokens : word :: name :: (ps ++ body) ++ t :: rest
      = word :: name :: (ps ++ (body ++ t :: rest)) := by simp
  rw [htokens, statement, run_bind_of_eq run_peek, hword]
  show (functionStatement (fuel + 1)).run _ = _
  rw [functionStatement, run_bind_of_eq run_peekSecond, hname]
  show (skip >>= _).run _ = _
  rw [run_bind_of_eq run_skip, run_bind_of_eq run_skip,
    run_bind_of_eq (run_params hps (by omega) _),
    run_bind_of_eq (h.braced hbody (by omega) _), run_bind_of_eq run_peek, ht]
  rfl

end Reader

/-- A text whose tokens are one statement is a program of this statement. -/
theorem parse_of_takes {kind : TokenKind} {ks : List TokenKind} {s : Stmt} {source : String}
    (htokenize : (tokenize source).map (·.kind) = kind :: ks ++ [TokenKind.eof])
    (hlength : (kind :: ks).length ≤ source.length)
    (hkind : Reader.closesStatements kind = false)
    (h : Reader.Takes (· = .eof) Reader.statement (kind :: ks) s) : parse source = some [s] := by
  obtain ⟨ts, ends, htokens, hts, hends⟩ := List.map_eq_append_iff.1 htokenize
  obtain ⟨⟨last, line, retry⟩, rfl, rfl⟩ := List.map_eq_singleton_iff.1 hends
  obtain ⟨depth, hdepth⟩ : ∃ depth, readingDepth source.length = depth + 2 :=
    ⟨16 * (source.length + 2) - 2, by rw [readingDepth]; omega⟩
  have hfuel : 16 * (kind :: ks).length < depth + 1 := by
    rw [readingDepth] at hdepth
    omega
  have hs := h ts hts (depth + 1) ⟨.eof, line, retry⟩ [] hfuel rfl
  obtain ⟨u, us, rfl, rfl, -⟩ := List.map_eq_cons_iff.1 hts
  rw [List.cons_append] at hs htokens
  have hend : (Reader.statements (depth + 1)).run [⟨.eof, line, retry⟩]
      = some ([], [⟨.eof, line, retry⟩]) := Reader.run_statements_close rfl
  have hrun := Reader.run_statements_cons hkind hs
  rw [hend] at hrun
  rw [parse, htokens, parseTokens, hdepth, hrun]
  rfl

end Espalier.Script
