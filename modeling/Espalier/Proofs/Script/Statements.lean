import Espalier.Proofs.Script.Expressions

/-!
# Reading statements

Every statement of the grammar is found in its tokens (`ReadsStatement`), whatever follows it that
does not go on with it: an `else` would belong to an open `if`, and behind the declaration of a
function a token may go on with the function as an operand. There is one lemma for each form.
-/

namespace Espalier.Script

namespace Reader

/-! ## Further steps -/

section
variable {α : Type} {r' : Reader α} {kind next : TokenKind} {ks ks' : List TokenKind}

/-- Behind a token that is not ambiguous, the next token stands as itself. -/
theorem Spells.second {ambiguous : Bool} {ts : List Token}
    (h : Spells ambiguous ts (kind :: next :: ks)) (hkind : kind.isRegex = false)
    (hclear : kind.isAmbiguous = false) :
    ∃ t u rest, ts = t :: u :: rest ∧ u.kind = next := by
  obtain ⟨t, rest, rfl, -, hrest⟩ := h.cons hkind
  rw [hclear] at hrest
  cases hrest with
  | token u rest => exact ⟨t, u, _, rfl, rfl⟩

theorem Goes.peekSecond {g : TokenKind → Reader α} (hkind : kind.isRegex = false)
    (hclear : kind.isAmbiguous = false) (h : Goes (g next) (kind :: next :: ks) r' ks') :
    Goes (peekSecond >>= g) (kind :: next :: ks) r' ks' := by
  intro ambiguous ts hts
  obtain ⟨t, u, rest, rfl, rfl⟩ := Spells.second hts hkind hclear
  rw [run_bind_of_eq run_peekSecond]
  exact h ambiguous _ hts

/-- Pass a token that is not ambiguous and look at the next one. -/
theorem Goes.skipPeek {g : TokenKind → Reader α} (hkind : kind.isRegex = false)
    (hclear : kind.isAmbiguous = false) (h : Goes (g next) (next :: ks) r' ks') :
    Goes (do
      Reader.skip
      let found ← Reader.peek
      g found) (kind :: next :: ks) r' ks' := by
  intro ambiguous ts hts
  obtain ⟨t, u, rest, rfl, rfl⟩ := Spells.second hts hkind hclear
  obtain ⟨t', rest', heq, -, hrest⟩ := hts.cons hkind
  cases heq
  rw [run_bind_of_eq run_skip, run_bind_of_eq run_peek]
  exact h _ _ hrest

end

/-! ## Expression statements -/

section
variable {fuel : Nat} {kind : TokenKind} {ks ks' : List TokenKind} {r : Reader Stmt}

/-- A statement whose first token begins no other statement is an expression. -/
theorem Goes.statement_expr (hstarts : kind.startsExpr = true) (hbrace : kind ≠ .mark .lbrace)
    (hfunction : kind ≠ .keyword .function)
    (hlabel : ∀ id, kind = .name id → ∃ next more, ks = next :: more ∧ next ≠ .mark .colon)
    (h : Goes (expressionStatement fuel) (kind :: ks) r ks') :
    Goes (statement (fuel + 1)) (kind :: ks) r ks' := by
  rw [statement]
  cases kind with
  | name id =>
    obtain ⟨next, more, rfl, hnext⟩ := hlabel id rfl
    refine .peek rfl (.peekSecond rfl rfl ?_)
    rw [if_neg hnext]
    exact h
  | keyword word =>
    refine .peek rfl ?_
    cases word with
    | function => exact absurd rfl hfunction
    | _ =>
      first
      | exact h
      | cases hstarts
  | mark m =>
    refine .peek rfl ?_
    cases m with
    | lbrace => exact absurd rfl hbrace
    | _ =>
      first
      | exact h
      | cases hstarts
  | number | string => exact .peek rfl h
  | regex text => exact .peekAny h fun _ => rfl
  | _ => cases hstarts

theorem head?_tail_append {kinds rest : List TokenKind} {next : TokenKind} (hne : kinds ≠ [])
    (h : kinds.tail.head? ≠ some kind) (hnext : next ≠ kind) :
    (kinds ++ next :: rest).tail.head? ≠ some kind := by
  match kinds, hne with
  | [_], _ => simpa using hnext
  | _ :: _ :: _, _ => exact h

/-- A label has a colon behind its name; an expression has none there. -/
theorem second_ne_colon (e : Expr) {id : String} (h : e.head = .name id) :
    e.kinds.tail.head? ≠ some (.mark .colon) := by
  have hne : ∀ l : Expr, l.kinds ≠ [] := by
    intro l hnil
    have hpos := l.one_le_length_kinds
    rw [hnil] at hpos
    exact absurd hpos (by decide)
  match e with
  | .name _ => rintro ⟨⟩
  | .this | .null | .number _ | .string _ | .regex _ | .array _ | .object _ | .group _ | .func ..
  | .new .. | .newBare _ => cases h
  | .bool value => cases value <;> cases h
  | .unary op _ => cases op <;> cases h
  | .dot l _ | .index l _ | .call l _ | .assign _ l _ | .cond l _ _ | .comma l _ =>
    rw [Expr.kinds]
    exact head?_tail_append (hne l) (second_ne_colon l h) (by rintro ⟨⟩)
  | .step l op =>
    rw [Expr.kinds]
    exact head?_tail_append (hne l) (second_ne_colon l h) (by cases op <;> rintro ⟨⟩)
  | .binary op l _ =>
    rw [Expr.kinds]
    exact head?_tail_append (hne l) (second_ne_colon l h) (by cases op <;> rintro ⟨⟩)

/-- What may stand at the start of a statement does not begin with a brace. -/
theorem head_ne_lbrace {e : Expr} {continued : Bool} (h : e.leads continued = true) :
    e.head ≠ .mark .lbrace := by
  match e with
  | .object _ => cases h
  | .name _ | .this | .null | .number _ | .string _ | .regex _ | .array _ | .group _ | .func ..
  | .new .. | .newBare _ => exact nofun
  | .bool value => cases value <;> exact nofun
  | .unary op _ => cases op <;> exact nofun
  | .dot l _ | .index l _ | .call l _ | .step l _ | .binary _ l _ | .assign _ l _ | .cond l _ _
  | .comma l _ =>
    rw [Expr.leads] at h
    have hl : l.head ≠ .mark .lbrace := head_ne_lbrace h
    exact hl

theorem goes_expressionStatement {e : Expr} (h : ReadsWhole .statement e)
    (hfunction : e.isFunction = false) (hfuel : 16 * e.kinds.length ≤ fuel + 2) :
    Goes (expressionStatement fuel) (e.kinds ++ .mark .semi :: ks) (pure (.expr e)) ks := by
  have hpos := e.one_le_length_kinds
  obtain ⟨fuel, rfl⟩ : ∃ more, fuel = more + 1 := ⟨fuel - 1, by omega⟩
  rw [expressionStatement]
  refine .andThen (h.read (by omega) (.separator rfl rfl fun _ => rfl) (by rintro ⟨⟩)) ?_
  refine Goes.endStatement.andThen ?_
  rw [hfunction]
  exact .refl

end

end Reader

/-! ## Statements that begin with a function -/

/-- What an expression begins with. -/
def Expr.leftmost : Expr → Expr
  | .dot e _ | .index e _ | .call e _ | .step e _ | .binary _ e _ | .assign _ e _ | .cond e _ _
  | .comma e _ => e.leftmost
  | e => e

namespace Expr

theorem base_eq_leftmost : ∀ {e : Expr} {place : Place}, e.Formed place → 13 ≤ e.rank →
    e.base = e.leftmost
  | .dot o _, _, hformed, _ | .index o _, _, hformed, _ | .call o _, _, hformed, _ => by
    have hrank : 13 ≤ o.rank := Nat.le_of_succ_le hformed.2.1
    rw [base, leftmost, base_eq_leftmost hformed.1 hrank]
  | .binary op _ _, _, _, hrank => by
    have hlevel : op.level ≤ 10 := by cases op <;> decide
    rw [rank] at hrank
    omega
  | .step .., _, _, hrank | .assign .., _, _, hrank | .cond .., _, _, hrank
  | .comma .., _, _, hrank => absurd hrank (by simp [rank])
  | .name _, _, _, _ | .this, _, _, _ | .null, _, _, _ | .bool _, _, _, _ | .number _, _, _, _
  | .string _, _, _, _ | .regex _, _, _, _ | .array _, _, _, _ | .object _, _, _, _
  | .group _, _, _, _ | .func .., _, _, _ | .new .., _, _, _ | .newBare _, _, _, _
  | .unary .., _, _, _ => rfl

/-- The left-hand side at the start of an expression begins with what the expression begins with. -/
theorem base_left : ∀ {e : Expr} {place : Place}, e.Formed place → e.left.base = e.leftmost
  | .binary _ l _, _, hformed | .cond l _ _, _, hformed | .comma l _, _, hformed => by
    rw [left, leftmost, base_left hformed.1]
  | .step o _, _, hformed => base_eq_leftmost hformed.1 hformed.2
  | .assign _ o _, _, hformed => base_eq_leftmost hformed.1 hformed.2.1
  | .dot o _, _, hformed | .index o _, _, hformed | .call o _, _, hformed => by
    have ho : o.base = o.leftmost := base_eq_leftmost hformed.1 (Nat.le_of_succ_le hformed.2.1)
    exact ho
  | .name _, _, _ | .this, _, _ | .null, _, _ | .bool _, _, _ | .number _, _, _ | .string _, _, _
  | .regex _, _, _ | .array _, _, _ | .object _, _, _ | .group _, _, _ | .func .., _, _
  | .new .., _, _ | .newBare _, _, _ | .unary .., _, _ => rfl

/-- Only what begins with a function has the word as its first token. -/
theorem leftmost_of_head {e : Expr} (h : e.head = .keyword .function) :
    ∃ id params body, e.leftmost = .func id params body := by
  match e with
  | .func id params body => exact ⟨id, params, body, rfl⟩
  | .name _ | .this | .null | .number _ | .string _ | .regex _ | .array _ | .object _ | .group _
  | .new .. | .newBare _ => cases h
  | .bool value => cases value <;> cases h
  | .unary op _ => cases op <;> cases h
  | .dot l _ | .index l _ | .call l _ | .step l _ | .binary _ l _ | .assign _ l _ | .cond l _ _
  | .comma l _ =>
    have hl : ∃ id params body, l.leftmost = .func id params body := leftmost_of_head h
    exact hl

theorem isSigned_of_head {e : Expr} (h : e.head = .keyword .function) : e.isSigned = false := by
  apply Bool.eq_false_iff.2
  intro hsigned
  have hhead := ofToken?_head_of_isSigned hsigned
  rw [h] at hhead
  cases hhead

/-- Behind the function that a statement begins with stands a token that goes on with it. -/
theorem continues_leftmost {e : Expr} {continued : Bool} (h : e.leads continued = true)
    {id : String} {params : List String} {body : List Stmt}
    (hleftmost : e.leftmost = .func (some id) params body) :
    ∃ rest, e.kinds = e.leftmost.kinds ++ rest ∧ (rest = [] ∧ continued = true ∨
      ∃ next more, rest = next :: more ∧ next.continuesFunction = true) := by
  -- The tokens of `l` and then `next`, which goes on with a function if that is all `l` is.
  have hextend : ∀ {l : Expr} {next : TokenKind} {more : List TokenKind} (rest : List TokenKind),
      l.kinds = l.leftmost.kinds ++ rest → (rest = [] ∧ next.continuesFunction = true ∨
        ∃ first others, rest = first :: others ∧ first.continuesFunction = true) →
      ∃ rest, l.kinds ++ next :: more = l.leftmost.kinds ++ rest ∧ (rest = [] ∧ continued = true ∨
        ∃ first others, rest = first :: others ∧ first.continuesFunction = true) := by
    intro l next more rest hkinds hrest
    refine ⟨rest ++ next :: more, by rw [hkinds, List.append_assoc], .inr ?_⟩
    obtain ⟨rfl, hnext⟩ | ⟨first, others, rfl, hfirst⟩ := hrest
    · exact ⟨next, more, rfl, hnext⟩
    · exact ⟨first, _, rfl, hfirst⟩
  match e with
  | .func (some _) _ _ => exact ⟨[], (List.append_nil _).symm, .inl ⟨rfl, h⟩⟩
  | .func none _ _ => cases hleftmost
  | .name _ | .this | .null | .number _ | .string _ | .regex _ | .array _ | .object _ | .group _
  | .new .. | .newBare _ | .bool _ | .unary .. => cases hleftmost
  | .dot l _ | .assign _ l _ | .cond l _ _ | .comma l _ =>
    rw [leads] at h
    obtain ⟨rest, hkinds, hrest⟩ := l.continues_leftmost h hleftmost
    rw [kinds]
    exact hextend rest hkinds (hrest.imp_left fun hnil => ⟨hnil.1, rfl⟩)
  | .index l _ | .call l _ | .step l _ =>
    rw [leads] at h
    obtain ⟨rest, hkinds, hrest⟩ := l.continues_leftmost h hleftmost
    rw [kinds]
    exact hextend rest hkinds (hrest.imp_left fun hnil => by cases hnil.2)
  | .binary op l _ =>
    rw [leads] at h
    obtain ⟨rest, hkinds, hrest⟩ := l.continues_leftmost h hleftmost
    rw [kinds]
    exact hextend rest hkinds hrest

end Expr

namespace Reader

section
variable {fuel : Nat} {kind : TokenKind} {ks : List TokenKind} {e : Expr}

theorem ReadsWhole.readsLeftSide {place : Place} (h : ReadsWhole place e)
    (hsigned : e.isSigned = false) : ReadsLeftSide e.left := by
  obtain ⟨hleft, -, hfirst⟩ := left_first e
  rw [hleft]
  exact h.first.left (hfirst ▸ hsigned)

/-- What follows the left-hand side at the start of an expression is no field and no call. -/
theorem afterLeft_append (e : Expr) (kind : TokenKind) (hkind : kind.extendsLeft = false)
    (ks : List TokenKind) :
    ∃ next more, e.afterLeft ++ kind :: ks = next :: more ∧ next.extendsLeft = false := by
  obtain hnil | ⟨next, more, hcons, hnext⟩ := afterLeft_cases e
  · exact ⟨kind, ks, by rw [hnil]; rfl, hkind⟩
  · exact ⟨next, _, by rw [hcons]; rfl, hnext⟩

/-- The rest of an expression behind what it begins with, up to the end of the statement. -/
theorem ReadsWhole.read_chain {place : Place} (h : ReadsWhole place e)
    (hsigned : e.isSigned = false) (fuel : Nat) (ks : List TokenKind)
    (hfuel : 16 * (e.left.chain.length + e.afterLeft.length) + 4 ≤ fuel) :
    Goes (do
      let left ← callTail fuel e.left.base
      let whole ← assignmentTail fuel place left
      commaTail fuel place whole) (e.left.chain ++ (e.afterLeft ++ .mark .semi :: ks)) (pure e)
      (.mark .semi :: ks) := by
  have hlinks := e.left.two_mul_links_le
  have htail : Goes (assignmentTail fuel place e.left >>= commaTail fuel place)
      (e.afterLeft ++ .mark .semi :: ks) (pure e) (.mark .semi :: ks) :=
    h.read_tail hsigned (by omega) (.separator rfl rfl fun _ => rfl) nofun
  obtain ⟨next, more, hmore, hnext⟩ := afterLeft_append e (.mark .semi) rfl ks
  rw [hmore] at htail ⊢
  have hchain : Goes (callTail fuel e.left.base) (e.left.chain ++ next :: more) (pure e.left)
      (next :: more) := by
    obtain ⟨rest, rfl⟩ : ∃ rest, fuel = rest + 1 + e.left.links :=
      ⟨fuel - e.left.links - 1, by omega⟩
    exact ((h.readsLeftSide hsigned).chain _ _ (by omega)).trans (.callTail_end hnext)
  exact .andThen hchain htail

/-- A statement that begins with a function and is an expression. -/
theorem goes_functionStatement {e : Expr} (h : ReadsWhole .statement e)
    (hformed : e.Formed .statement) (hleads : e.leads false = true)
    (hfunction : e.isFunction = false) (hhead : e.head = .keyword .function)
    (hbody : ∀ name params body, e.leftmost = .func name params body → ReadsStatements body)
    (hfuel : 16 * e.kinds.length ≤ fuel + 1) :
    Goes (functionStatement fuel) (e.kinds ++ .mark .semi :: ks) (pure (.expr e)) ks := by
  obtain ⟨name, params, body, hleftmost⟩ := Expr.leftmost_of_head hhead
  have hbase := (Expr.base_left hformed).trans hleftmost
  have hkinds : e.kinds = (Expr.func name params body).kinds ++ (e.left.chain ++ e.afterLeft) := by
    rw [e.kinds_left, e.left.kinds_base_chain, hbase, List.append_assoc]
  obtain ⟨fuel, rfl⟩ : ∃ more, fuel = more + 1 :=
    ⟨fuel - 1, by have hpos := e.one_le_length_kinds; omega⟩
  rw [functionStatement]
  cases name with
  | none =>
    have hrun : Goes (expressionStatement fuel) (e.kinds ++ .mark .semi :: ks)
        (pure (.expr e)) ks :=
      goes_expressionStatement h hfunction (by omega)
    obtain ⟨more, hmore⟩ := paramKinds_eq_cons params
    have hcons : e.kinds = .keyword .function :: .mark .lparen
        :: (more ++ bracedKinds (stmtKinds body) ++ (e.left.chain ++ e.afterLeft)) := by
      rw [hkinds, Expr.kinds, hmore]
      rfl
    rw [hcons] at hrun ⊢
    exact .peekSecond rfl rfl hrun
  | some id =>
    obtain ⟨rest, hrest, hnext⟩ := Expr.continues_leftmost hleads hleftmost
    obtain rfl : rest = e.left.chain ++ e.afterLeft := by
      rw [hleftmost, hkinds] at hrest
      exact (List.append_cancel_left hrest).symm
    obtain ⟨-, hfalse⟩ | ⟨next, more, hmore, hnext⟩ := hnext
    · cases hfalse
    have hparams := length_lt_length_paramKinds params
    have htail : Goes (do
        let left ← callTail fuel (.func (some id) params body)
        let whole ← assignmentTail fuel .statement left
        let whole ← commaTail fuel .statement whole
        endStatement
        return Stmt.expr whole) ((e.left.chain ++ e.afterLeft) ++ .mark .semi :: ks)
          (pure (.expr e))
        ks := by
      have hlength : (e.left.chain ++ e.afterLeft).length + 1 ≤ e.kinds.length := by
        have hpos := (Expr.func (some id) params body).one_le_length_kinds
        simp only [hkinds, List.length_append]
        omega
      rw [List.length_append] at hlength
      have hread := h.read_chain (Expr.isSigned_of_head hhead) fuel ks (by omega)
      rw [hbase] at hread
      rw [List.append_assoc]
      simpa only [bind_assoc] using hread.andThen (Goes.endStatement.andThen .refl)
    simp only [hkinds, Expr.kinds, nameKinds, List.length_cons, List.length_append,
      length_bracedKinds, List.length_nil] at hfuel
    simp only [hkinds, Expr.kinds, nameKinds, List.cons_append, List.nil_append, List.append_assoc]
    refine .peekSecond rfl rfl (.skip rfl (.skip rfl (.andThen (.params (by omega)) ?_)))
    refine .andThen ((hbody _ _ _ hleftmost).braced _ (by omega)) ?_
    rw [← List.append_assoc]
    rw [hmore, List.cons_append] at htail ⊢
    refine .peek (by cases next <;> first | rfl | cases hnext) ?_
    rw [if_pos hnext]
    exact htail

end

/-! ## Parts of statements -/

section
variable {fuel : Nat} {kind : TokenKind} {ks : List TokenKind} {e : Expr}

theorem goes_parenthesized (h : ReadsWhole .free e) (hfuel : 16 * e.kinds.length ≤ fuel + 2) :
    Goes (parenthesized fuel) (.mark .lparen :: (e.kinds ++ .mark .rparen :: ks)) (pure e) ks := by
  have hpos := e.one_le_length_kinds
  obtain ⟨fuel, rfl⟩ : ∃ more, fuel = more + 1 := ⟨fuel - 1, by omega⟩
  rw [parenthesized]
  refine Goes.expectMark.andThen ?_
  refine .andThen (h.read (by omega) (.separator rfl rfl fun _ => rfl) (by rintro ⟨⟩)) ?_
  exact Goes.expectMark.andThen .refl

/-- The initial value of the variable is read. -/
def ReadsBinding (place : Place) : Binding → Prop
  | .bare _ => True
  | .init _ value => ReadsAssignment place value

/-- The token ends the declaration of the variable. -/
def EndsBinding (place : Place) (kind : TokenKind) : Binding → Prop
  | .bare _ => True
  | .init _ value => Ends place value kind

theorem goes_binding {α : Type} {place : Place} {b : Binding} (h : ReadsBinding place b)
    (hends : EndsBinding place kind b) (hassign : kind ≠ .mark (.assign .plain))
    (hfuel : 16 * b.kinds.length ≤ fuel + 4) {next : Binding → Reader α} {r : Reader α}
    {ks' : List TokenKind} (hnext : Goes (next b) (kind :: ks) r ks') :
    Goes (do
      let name ← identifier
      let b ← if ← accept (.mark (.assign .plain)) then do
          let value ← assignment fuel place
          pure (Binding.init name value)
        else pure (.bare name)
      next b) (b.kinds ++ kind :: ks) r ks' := by
  cases b with
  | bare name => exact Goes.identifier.andThen (.acceptNot hassign nofun hnext)
  | init name value =>
    simp only [Binding.kinds, List.length_cons] at hfuel
    have hread : Goes (assignment fuel place) (value.kinds ++ kind :: ks) (pure value)
        (kind :: ks) := ReadsAssignment.read h (by omega) hends
    exact Goes.identifier.andThen (.accept rfl (hread.andThen (.andThen .refl hnext)))

theorem Binding.one_le_length_kinds (b : Binding) : 1 ≤ b.kinds.length := by
  cases b <;> exact Nat.succ_le_succ (Nat.zero_le _)

/-- Declared variables before a token that ends the last of them. -/
theorem goes_bindings {place : Place} (kind : TokenKind)
    (hassign : kind ≠ .mark (.assign .plain)) (hcomma : kind ≠ .mark .comma) :
    ∀ {bs : List Binding}, bs ≠ [] →
    (∀ b ∈ bs, ReadsBinding place b ∧ EndsBinding place kind b) → ∀ {fuel : Nat},
      16 * (bindingKinds bs).length ≤ fuel + 3 →
      Goes (bindings fuel place) (bindingKinds bs ++ kind :: ks) (pure bs) (kind :: ks)
  | [b], _, h, fuel, hfuel => by
    obtain ⟨hread, hends⟩ := h b (List.mem_singleton_self b)
    have hpos := Binding.one_le_length_kinds b
    simp only [bindingKinds, List.isEmpty_nil, if_true, List.append_nil] at hfuel ⊢
    obtain ⟨fuel, rfl⟩ : ∃ more, fuel = more + 1 := ⟨fuel - 1, by omega⟩
    rw [bindings]
    exact goes_binding hread hends hassign (by omega) (.acceptNot hcomma (by rintro ⟨⟩) .refl)
  | b :: c :: bs, _, h, fuel, hfuel => by
    obtain ⟨⟨hread, -⟩, hrest⟩ := List.forall_mem_cons.1 h
    have hpos := Binding.one_le_length_kinds b
    have hends : EndsBinding place (.mark .comma) b := by
      cases b with
      | bare => trivial
      | init => exact .separator rfl rfl fun _ => rfl
    have hkinds :
        bindingKinds (b :: c :: bs) = b.kinds ++ .mark .comma :: bindingKinds (c :: bs) := by
      rw [bindingKinds, List.append_assoc]
      rfl
    rw [hkinds, List.length_append, List.length_cons] at hfuel
    rw [hkinds, List.append_assoc]
    obtain ⟨fuel, rfl⟩ : ∃ more, fuel = more + 1 := ⟨fuel - 1, by omega⟩
    rw [bindings]
    refine goes_binding hread hends (by rintro ⟨⟩) (by omega) (.accept rfl ?_)
    exact .andThen
      (goes_bindings kind hassign hcomma (List.cons_ne_nil c bs) hrest (by omega)) .refl

theorem endsBinding_semi (place : Place) (b : Binding) : EndsBinding place (.mark .semi) b := by
  cases b with
  | bare => trivial
  | init => exact .separator rfl rfl fun _ => rfl

end

/-! ## Statements -/

/-- The token does not go on with the statement before it. -/
def EndsStatement (s : Stmt) (kind : TokenKind) : Prop :=
  kind ≠ .keyword .finally ∧ (s.takesElse = true → kind ≠ .keyword .else) ∧
    (s.endsInFunction = true → kind.continuesFunction = false ∧ kind.isRegex = false)

/-- The readers find the statement in its tokens, before a token that does not go on with it. -/
def ReadsStatement (s : Stmt) : Prop :=
  ∀ (fuel : Nat) (kind : TokenKind) (ks : List TokenKind), 16 * s.kinds.length ≤ fuel + 8 →
    EndsStatement s kind → Goes (statement fuel) (s.kinds ++ kind :: ks) (pure s) (kind :: ks)

theorem readsStatement_block {body : List Stmt} (h : ReadsStatements body) :
    ReadsStatement (.block body) := by
  intro fuel kind ks hfuel _
  rw [Stmt.kinds, length_bracedKinds] at hfuel
  obtain ⟨fuel, rfl⟩ : ∃ more, fuel = more + 1 := ⟨fuel - 1, by omega⟩
  have hrun : Goes (do return Stmt.block (← braced fuel))
    (bracedKinds (stmtKinds body) ++ kind :: ks)
      (pure (.block body)) (kind :: ks) := .andThen (h.braced _ (by omega)) .refl
  rw [statement]
  exact .peek rfl hrun

theorem readsStatement_vars {bs : List Binding} (hne : bs ≠ [])
    (h : ∀ b ∈ bs, ReadsBinding .free b) : ReadsStatement (.vars bs) := by
  intro fuel kind ks hfuel _
  simp only [Stmt.kinds, List.length_cons, List.length_append, List.length_nil, List.cons_append,
    List.append_assoc, List.nil_append] at hfuel ⊢
  obtain ⟨fuel, rfl⟩ : ∃ more, fuel = more + 1 := ⟨fuel - 1, by omega⟩
  have hread : Goes (bindings fuel .free) (bindingKinds bs ++ .mark .semi :: kind :: ks) (pure bs)
      (.mark .semi :: kind :: ks) :=
    goes_bindings (.mark .semi) (by rintro ⟨⟩) (by rintro ⟨⟩) hne
      (fun b hb => ⟨h b hb, endsBinding_semi .free b⟩)
      (by omega)
  rw [statement]
  exact .peek rfl (.skip rfl (hread.andThen (Goes.endStatement.andThen .refl)))

theorem readsStatement_empty : ReadsStatement .empty := by
  intro fuel kind ks hfuel _
  obtain ⟨fuel, rfl⟩ : ∃ more, fuel = more + 1 :=
    ⟨fuel - 1, by simp only [Stmt.kinds, List.length_singleton] at hfuel; omega⟩
  rw [statement]
  exact .peek rfl (.skip rfl .refl)

theorem readsStatement_debugger : ReadsStatement .debugger := by
  intro fuel kind ks hfuel _
  obtain ⟨fuel, rfl⟩ : ∃ more, fuel = more + 1 :=
    ⟨fuel - 1, by simp only [Stmt.kinds, List.length_cons] at hfuel; omega⟩
  rw [statement]
  exact .peek rfl (.skip rfl (Goes.endStatement.andThen .refl))

theorem readsStatement_expr {e : Expr} (h : ReadsWhole .statement e)
    (hformed : (Stmt.expr e).Formed)
    (hbody : ∀ name params body, e.leftmost = .func name params body → ReadsStatements body) :
    ReadsStatement (.expr e) := by
  obtain ⟨hformed, hleads, hfunction⟩ := hformed
  intro fuel kind ks hfuel _
  simp only [Stmt.kinds, List.length_append, List.length_singleton, List.append_assoc,
    List.cons_append, List.nil_append] at hfuel ⊢
  obtain ⟨fuel, rfl⟩ : ∃ more, fuel = more + 1 := ⟨fuel - 1, by omega⟩
  obtain ⟨more, hmore⟩ := e.kinds_eq_cons
  by_cases hhead : e.head = .keyword .function
  · have hrun : Goes (functionStatement fuel) (e.kinds ++ .mark .semi :: kind :: ks)
        (pure (.expr e)) (kind :: ks) :=
      goes_functionStatement h hformed hleads hfunction hhead hbody (by omega)
    rw [statement]
    rw [hmore, hhead, List.cons_append] at hrun ⊢
    exact .peek rfl hrun
  · have hrun : Goes (expressionStatement fuel) (e.kinds ++ .mark .semi :: kind :: ks)
        (pure (.expr e)) (kind :: ks) := goes_expressionStatement h hfunction (by omega)
    have hcolon := @second_ne_colon e
    rw [hmore, List.tail_cons] at hcolon
    rw [hmore, List.cons_append] at hrun ⊢
    refine .statement_expr e.startsExpr_head (head_ne_lbrace hleads) hhead (fun id hid => ?_) hrun
    cases more with
    | nil => exact ⟨_, _, rfl, by rintro ⟨⟩⟩
    | cons next more => exact ⟨next, _, rfl, by simpa using hcolon hid⟩

/-- A keyword, something in parentheses and a statement. -/
theorem readsStatement_ifThen {test : Expr} {yes : Stmt} (htest : ReadsWhole .free test)
    (hyes : ReadsStatement yes) : ReadsStatement (.ifThen test yes) := by
  intro fuel kind ks hfuel hends
  simp only [Stmt.kinds, List.length_cons, List.length_append, List.cons_append,
    List.append_assoc] at hfuel ⊢
  obtain ⟨fuel, rfl⟩ : ∃ more, fuel = more + 2 := ⟨fuel - 2, by omega⟩
  rw [statement]
  refine .peek rfl (.skip rfl ?_)
  rw [ifTail]
  refine .andThen (goes_parenthesized htest (by omega)) ?_
  have helse : kind ≠ .keyword .else := hends.2.1 rfl
  refine .andThen (hyes fuel kind ks (by omega) ⟨hends.1, fun _ => helse, hends.2.2⟩) ?_
  exact .acceptNot helse (by rintro ⟨⟩) .refl

theorem readsStatement_ifElse {test : Expr} {yes no : Stmt} (htest : ReadsWhole .free test)
    (hyes : ReadsStatement yes) (hno : ReadsStatement no) (hopen : yes.takesElse = false) :
    ReadsStatement (.ifElse test yes no) := by
  intro fuel kind ks hfuel hends
  simp only [Stmt.kinds, List.length_cons, List.length_append, List.cons_append,
    List.append_assoc] at hfuel ⊢
  obtain ⟨fuel, rfl⟩ : ∃ more, fuel = more + 2 := ⟨fuel - 2, by omega⟩
  rw [statement]
  refine .peek rfl (.skip rfl ?_)
  rw [ifTail]
  refine .andThen (goes_parenthesized htest (by omega)) ?_
  refine .andThen
    (hyes fuel _ _ (by omega) ⟨by rintro ⟨⟩, fun htakes => ?_, fun _ => ⟨rfl, rfl⟩⟩) ?_
  · rw [hopen] at htakes
    cases htakes
  · exact .accept rfl (.andThen (hno fuel kind ks (by omega) hends) .refl)

theorem readsStatement_while {test : Expr} {body : Stmt} (htest : ReadsWhole .free test)
    (hbody : ReadsStatement body) : ReadsStatement (.while test body) := by
  intro fuel kind ks hfuel hends
  simp only [Stmt.kinds, List.length_cons, List.length_append, List.cons_append,
    List.append_assoc] at hfuel ⊢
  obtain ⟨fuel, rfl⟩ : ∃ more, fuel = more + 1 := ⟨fuel - 1, by omega⟩
  rw [statement]
  refine .peek rfl (.skip rfl (.andThen (goes_parenthesized htest (by omega)) ?_))
  exact .andThen (hbody fuel kind ks (by omega) hends) .refl

theorem readsStatement_withScope {scope : Expr} {body : Stmt} (hscope : ReadsWhole .free scope)
    (hbody : ReadsStatement body) : ReadsStatement (.withScope scope body) := by
  intro fuel kind ks hfuel hends
  simp only [Stmt.kinds, List.length_cons, List.length_append, List.cons_append,
    List.append_assoc] at hfuel ⊢
  obtain ⟨fuel, rfl⟩ : ∃ more, fuel = more + 1 := ⟨fuel - 1, by omega⟩
  rw [statement]
  refine .peek rfl (.skip rfl (.andThen (goes_parenthesized hscope (by omega)) ?_))
  exact .andThen (hbody fuel kind ks (by omega) hends) .refl

theorem readsStatement_doWhile {body : Stmt} {test : Expr} (hbody : ReadsStatement body)
    (htest : ReadsWhole .free test) : ReadsStatement (.doWhile body test) := by
  intro fuel kind ks hfuel _
  simp only [Stmt.kinds, List.length_cons, List.length_append, List.cons_append,
    List.append_assoc, List.nil_append] at hfuel ⊢
  obtain ⟨fuel, rfl⟩ : ∃ more, fuel = more + 1 := ⟨fuel - 1, by omega⟩
  rw [statement]
  refine .peek rfl (.skip rfl ?_)
  refine .andThen
    (hbody fuel _ _ (by omega) ⟨by rintro ⟨⟩, fun _ => by rintro ⟨⟩, fun _ => ⟨rfl, rfl⟩⟩) ?_
  refine (Goes.expect rfl).andThen (.andThen (goes_parenthesized htest (by omega)) ?_)
  exact Goes.endStatement.andThen .refl

theorem readsStatement_label {name : String} {body : Stmt} (hbody : ReadsStatement body) :
    ReadsStatement (.label name body) := by
  intro fuel kind ks hfuel hends
  simp only [Stmt.kinds, List.length_cons, List.cons_append] at hfuel ⊢
  obtain ⟨fuel, rfl⟩ : ∃ more, fuel = more + 1 := ⟨fuel - 1, by omega⟩
  rw [statement]
  refine .peek rfl (.peekSecond rfl rfl ?_)
  rw [if_pos rfl]
  refine .skip rfl (.skip rfl ?_)
  exact .andThen (hbody fuel kind ks (by omega) hends) .refl

theorem goes_optionalLabel (label : Option String) (ks : List TokenKind) :
    Goes optionalLabel (nameKinds label ++ .mark .semi :: ks) (pure label) ks := by
  cases label with
  | none => exact .peek rfl (.andThen .refl (Goes.endStatement.andThen .refl))
  | some id => exact .peek rfl (.skip rfl (.andThen .refl (Goes.endStatement.andThen .refl)))

theorem readsStatement_continue (label : Option String) : ReadsStatement (.continue label) := by
  intro fuel kind ks hfuel _
  simp only [Stmt.kinds, List.length_cons, List.cons_append, List.append_assoc,
    List.nil_append] at hfuel ⊢
  obtain ⟨fuel, rfl⟩ : ∃ more, fuel = more + 1 := ⟨fuel - 1, by omega⟩
  rw [statement]
  exact .peek rfl (.skip rfl ((goes_optionalLabel label _).andThen .refl))

theorem readsStatement_break (label : Option String) : ReadsStatement (.break label) := by
  intro fuel kind ks hfuel _
  simp only [Stmt.kinds, List.length_cons, List.cons_append, List.append_assoc,
    List.nil_append] at hfuel ⊢
  obtain ⟨fuel, rfl⟩ : ∃ more, fuel = more + 1 := ⟨fuel - 1, by omega⟩
  rw [statement]
  exact .peek rfl (.skip rfl ((goes_optionalLabel label _).andThen .refl))

theorem readsStatement_throw {value : Expr} (h : ReadsWhole .free value) :
    ReadsStatement (.throw value) := by
  intro fuel kind ks hfuel _
  simp only [Stmt.kinds, List.length_cons, List.length_append, List.cons_append, List.append_assoc,
    List.nil_append] at hfuel ⊢
  obtain ⟨fuel, rfl⟩ : ∃ more, fuel = more + 1 := ⟨fuel - 1, by omega⟩
  rw [statement]
  refine .peek rfl (.skip rfl ?_)
  refine .andThen (h.read (by omega) (.separator rfl rfl fun _ => rfl) (by rintro ⟨⟩)) ?_
  exact Goes.endStatement.andThen .refl

/-- A regular expression behind `return` stands as itself, since nothing there could be divided. -/
theorem readsStatement_ret {value : Option Expr} (h : ∀ e ∈ value, ReadsWhole .free e) :
    ReadsStatement (.ret value) := by
  intro fuel kind ks hfuel _
  simp only [Stmt.kinds, List.length_cons, List.length_append, List.cons_append, List.append_assoc,
    List.nil_append] at hfuel ⊢
  obtain ⟨fuel, rfl⟩ : ∃ more, fuel = more + 1 := ⟨fuel - 1, by omega⟩
  rw [statement]
  cases value with
  | none => exact .peek rfl (.skipPeek rfl rfl (Goes.endStatement.andThen .refl))
  | some e =>
    rw [optionalKinds] at hfuel ⊢
    have hrun : Goes (do
        let value ← expr fuel .free
        endStatement
        return Stmt.ret (some value)) (e.kinds ++ .mark .semi :: kind :: ks) (pure (.ret (some e)))
        (kind :: ks) :=
      .andThen ((h e rfl).read (by omega) (.separator rfl rfl fun _ => rfl) (by rintro ⟨⟩))
        (Goes.endStatement.andThen .refl)
    obtain ⟨more, hmore⟩ := e.kinds_eq_cons
    rw [hmore, List.cons_append] at hrun ⊢
    refine .peek rfl (.skipPeek rfl rfl ?_)
    rw [if_pos e.startsExpr_head]
    exact hrun

/-! ## Loops -/

/-- An expression of a loop head that may be missing, and the mark that ends it. -/
theorem goes_optional {α : Type} {m : Mark} {e : Option Expr} (h : ∀ a ∈ e, ReadsWhole .free a)
    {fuel : Nat} (hfuel : 16 * (optionalKinds e).length ≤ fuel + 3)
    (hm : m = .semi ∨ m = .rparen) {next : Option Expr → Reader α} {r : Reader α}
    {ks ks' : List TokenKind} (hnext : Goes (next e) ks r ks') :
    Goes (do
      let found ← if ← accept (.mark m) then pure none
        else do
          let e ← expr fuel .free
          expectMark m
          pure (some e)
      next found) (optionalKinds e ++ .mark m :: ks) r ks' := by
  cases e with
  | none => exact .accept (by obtain rfl | rfl := hm <;> rfl) (.andThen .refl hnext)
  | some a =>
    have hends : Ends .free a (.mark m) := by
      obtain rfl | rfl := hm
      all_goals exact .separator rfl rfl fun _ => rfl
    have hread : Goes (expr fuel .free) (a.kinds ++ .mark m :: ks) (pure a) (.mark m :: ks) :=
      (h a rfl).read hfuel hends (by obtain rfl | rfl := hm <;> exact nofun)
    have hrun : Goes (do
        let e ← expr fuel .free
        expectMark m
        let found ← pure (some e)
        next found) (a.kinds ++ .mark m :: ks) r ks' :=
      hread.andThen (Goes.expectMark.andThen (.andThen .refl hnext))
    obtain ⟨more, hmore⟩ := a.kinds_eq_cons
    rw [optionalKinds]
    rw [hmore, List.cons_append] at hrun ⊢
    refine .acceptNot (head_ne_mark ?_) ?_ hrun
    · obtain rfl | rfl := hm <;> rfl
    · obtain rfl | rfl := hm <;> exact nofun

section
variable {body : Stmt} (hbody : ReadsStatement body) {fuel : Nat} {kind : TokenKind}
  {ks : List TokenKind} (hends : EndsStatement body kind)
include hbody hends

theorem goes_loopTail (start : LoopStart) {test next : Option Expr}
    (htest : ∀ a ∈ test, ReadsWhole .free a) (hnext : ∀ a ∈ next, ReadsWhole .free a)
    (hfuel : 16 * ((optionalKinds test).length + ((optionalKinds next).length
      + body.kinds.length)) ≤ fuel) :
    Goes (loopTail fuel start) (optionalKinds test ++ .mark .semi :: (optionalKinds next
      ++ .mark .rparen :: (body.kinds ++ kind :: ks))) (pure (.loop start test next body))
      (kind :: ks) := by
  have hpos := body.one_le_length_kinds
  obtain ⟨fuel, rfl⟩ : ∃ more, fuel = more + 1 := ⟨fuel - 1, by omega⟩
  rw [loopTail]
  refine goes_optional htest (by omega) (.inl rfl) ?_
  refine goes_optional hnext (by omega) (.inr rfl) ?_
  exact .andThen (hbody fuel kind ks (by omega) hends) .refl

theorem goes_loopInTail {collection : Expr} (h : ReadsWhole .free collection)
    (hfuel : 16 * (collection.kinds.length + body.kinds.length) ≤ fuel) :
    Goes (loopInTail fuel) (collection.kinds ++ .mark .rparen :: (body.kinds ++ kind :: ks))
      (pure (collection, body)) (kind :: ks) := by
  have hpos := collection.one_le_length_kinds
  obtain ⟨fuel, rfl⟩ : ∃ more, fuel = more + 1 := ⟨fuel - 1, by omega⟩
  rw [loopInTail]
  refine .andThen (h.read (by omega) (.separator rfl rfl fun _ => rfl) nofun) ?_
  refine Goes.expectMark.andThen ?_
  exact .andThen (hbody fuel kind ks (by omega) hends) .refl

end

/-- No word `in` follows the left-hand side at the start of a loop head that is no collection. -/
theorem afterLeft_ne_in {e : Expr} (h : e.Formed .loopHead) {more : List TokenKind} :
    e.afterLeft ≠ .keyword .in :: more := by
  -- What follows the left part of an operator comes first, and is no `in` either.
  have hleft : ∀ {l : Expr} {next : TokenKind} {rest : List TokenKind},
      (∀ {more}, l.afterLeft ≠ .keyword .in :: more) → next ≠ .keyword .in →
      l.afterLeft ++ next :: rest ≠ .keyword .in :: more := by
    intro l next rest hl hnext heq
    cases hafter : l.afterLeft with
    | nil =>
      rw [hafter] at heq
      exact hnext (List.cons.inj heq).1
    | cons first others =>
      rw [hafter, List.cons_append] at heq
      exact hl (hafter.trans (by rw [(List.cons.inj heq).1]))
  match e with
  | .binary op l _ =>
    obtain ⟨hl, -, -, -, hin, -⟩ := h
    refine hleft (afterLeft_ne_in hl) ?_
    cases op with
    | isIn => exact absurd rfl (hin rfl)
    | _ => exact nofun
  | .cond l _ _ => exact hleft (afterLeft_ne_in h.1) nofun
  | .comma l _ => exact hleft (afterLeft_ne_in h.1) nofun
  | .step _ op => cases op <;> exact nofun
  | .assign .. | .name _ | .this | .null | .bool _ | .number _ | .string _ | .regex _ | .array _
  | .object _ | .group _ | .func .. | .dot .. | .index .. | .call .. | .new .. | .newBare _
  | .unary .. => exact nofun

/-- What stands before the first semicolon of a loop head is read. -/
def ReadsStart : LoopStart → Prop
  | .nothing => True
  | .vars bs => bs ≠ [] ∧ ∀ b ∈ bs, ReadsBinding .loopHead b
  | .expr e => ReadsWhole .loopHead e ∧ e.Formed .loopHead

section
variable {fuel : Nat} {r : Reader Stmt} {rest ks' : List TokenKind}

theorem head_ne_var (e : Expr) : e.head ≠ .keyword .var := by
  intro heq
  have hstarts := e.startsExpr_head
  rw [heq] at hstarts
  cases hstarts

/-- A loop head that begins with a left-hand side. -/
theorem goes_forTail_left {e : Expr} (hunary : UnaryOp.ofToken? e.head = none)
    (hrun : Goes (do
      let left ← leftHandSide fuel
      if ← accept (.keyword .in) then
        let (collection, body) ← loopInTail fuel
        return .loopIn left collection body
      else
        let e ← assignmentTail fuel .loopHead left
        let e ← commaTail fuel .loopHead e
        expectMark .semi
        loopTail fuel (.expr e)) (e.kinds ++ rest) r ks') :
    Goes (forTail (fuel + 1)) (.mark .lparen :: (e.kinds ++ rest)) r ks' := by
  obtain ⟨more, hmore⟩ := e.kinds_eq_cons
  rw [forTail]
  refine Goes.expectMark.andThen ?_
  rw [hmore, List.cons_append] at hrun ⊢
  refine .peekAny ?_ ?_
  · rw [if_neg (head_ne_mark rfl), if_neg (head_ne_var e), hunary]
    exact hrun
  · intro hregex
    obtain ⟨text, hhead⟩ := TokenKind.exists_of_isRegex hregex
    simp [hhead, UnaryOp.ofToken?]

/-- A loop head that begins with an expression. -/
theorem goes_forTail_expr {e : Expr} (h : ReadsWhole .loopHead e) (hformed : e.Formed .loopHead)
    (hfuel : 16 * e.kinds.length ≤ fuel) (hrest : Goes (loopTail fuel (.expr e)) rest r ks') :
    Goes (forTail (fuel + 1)) (.mark .lparen :: (e.kinds ++ .mark .semi :: rest)) r ks' := by
  cases hsigned : e.isSigned with
  | true =>
    have hunary := Expr.ofToken?_head_of_isSigned hsigned
    have hrun : Goes (do
        let e ← expr fuel .loopHead
        expectMark .semi
        loopTail fuel (.expr e)) (e.kinds ++ .mark .semi :: rest) r ks' :=
      .andThen (h.read (by omega) (.separator rfl rfl fun _ => rfl) nofun)
        (Goes.expectMark.andThen hrest)
    obtain ⟨more, hmore⟩ := e.kinds_eq_cons
    rw [forTail]
    refine Goes.expectMark.andThen ?_
    rw [hmore, List.cons_append] at hrun ⊢
    refine .peek ?_ ?_
    · cases hhead : e.head with
      | regex => rw [hhead] at hunary; cases hunary
      | _ => rfl
    · rw [if_neg (head_ne_mark rfl), if_neg (head_ne_var e), if_pos hunary]
      exact hrun
  | false =>
    have hleft := h.readsLeftSide hsigned
    have hunary : UnaryOp.ofToken? e.head = none := by rw [← e.head_left]; exact hleft.head
    have hlength : e.kinds.length = e.left.kinds.length + e.afterLeft.length := by
      rw [← List.length_append, ← e.kinds_left]
    have hpos := e.left.one_le_length_kinds
    obtain ⟨next, others, hothers, hnext⟩ := afterLeft_append e (.mark .semi) rfl rest
    have hin : next ≠ .keyword .in := by
      rintro rfl
      cases hafter : e.afterLeft with
      | nil =>
        rw [hafter] at hothers
        cases (List.cons.inj hothers).1
      | cons first tail =>
        rw [hafter, List.cons_append] at hothers
        exact afterLeft_ne_in hformed (hafter.trans (by rw [(List.cons.inj hothers).1]))
    have htail : Goes (assignmentTail fuel .loopHead e.left >>= commaTail fuel .loopHead)
        (e.afterLeft ++ .mark .semi :: rest) (pure e) (.mark .semi :: rest) :=
      h.read_tail hsigned (by omega) (.separator rfl rfl fun _ => rfl) nofun
    refine goes_forTail_left hunary ?_
    rw [e.kinds_left, List.append_assoc]
    rw [hothers] at htail ⊢
    refine .andThen (hleft.read (by omega) hnext) (.acceptNot hin nofun ?_)
    simpa only [bind_assoc] using htail.andThen (Goes.expectMark.andThen hrest)

theorem goes_forTail {start : LoopStart} (h : ReadsStart start)
    (hfuel : 16 * start.kinds.length ≤ fuel) (hrest : Goes (loopTail fuel start) rest r ks') :
    Goes (forTail (fuel + 1)) (.mark .lparen :: (start.kinds ++ rest)) r ks' := by
  cases start with
  | nothing =>
    rw [forTail]
    refine Goes.expectMark.andThen (.peek rfl ?_)
    rw [if_pos rfl]
    exact .skip rfl hrest
  | vars bs =>
    obtain ⟨hne, hread⟩ := h
    simp only [LoopStart.kinds, List.length_cons, List.length_append, List.length_nil,
      List.cons_append, List.append_assoc, List.nil_append] at hfuel ⊢
    have hbindings : Goes (bindings fuel .loopHead) (bindingKinds bs ++ .mark .semi :: rest)
        (pure bs) (.mark .semi :: rest) :=
      goes_bindings (.mark .semi) nofun nofun hne
        (fun b hb => ⟨hread b hb, endsBinding_semi .loopHead b⟩) (by omega)
    rw [forTail]
    refine Goes.expectMark.andThen (.peek rfl ?_)
    rw [if_neg nofun, if_pos rfl]
    refine .skip rfl (hbindings.andThen ?_)
    match bs, hne with
    | [item], _ => exact .acceptNot nofun nofun (Goes.expectMark.andThen hrest)
    | _ :: _ :: _, _ => exact Goes.expectMark.andThen hrest
  | expr e =>
    simp only [LoopStart.kinds, List.length_append, List.length_singleton, List.append_assoc,
      List.cons_append, List.nil_append] at hfuel ⊢
    exact goes_forTail_expr h.1 h.2 (by omega) hrest

end

theorem readsStatement_loop {start : LoopStart} {test next : Option Expr} {body : Stmt}
    (hstart : ReadsStart start) (htest : ∀ a ∈ test, ReadsWhole .free a)
    (hnext : ∀ a ∈ next, ReadsWhole .free a) (hbody : ReadsStatement body) :
    ReadsStatement (.loop start test next body) := by
  intro fuel kind ks hfuel hends
  simp only [Stmt.kinds, List.length_cons, List.length_append, List.cons_append,
    List.append_assoc] at hfuel ⊢
  obtain ⟨fuel, rfl⟩ : ∃ more, fuel = more + 2 := ⟨fuel - 2, by omega⟩
  rw [statement]
  refine .peek rfl (.skip rfl (goes_forTail hstart (by omega) ?_))
  exact goes_loopTail hbody hends start htest hnext (by omega)

theorem readsStatement_loopIn {item collection : Expr} {body : Stmt} (hitem : ReadsLeftSide item)
    (hcollection : ReadsWhole .free collection) (hbody : ReadsStatement body) :
    ReadsStatement (.loopIn item collection body) := by
  intro fuel kind ks hfuel hends
  simp only [Stmt.kinds, List.length_cons, List.length_append, List.cons_append,
    List.append_assoc] at hfuel ⊢
  obtain ⟨fuel, rfl⟩ : ∃ more, fuel = more + 2 := ⟨fuel - 2, by omega⟩
  have htail : Goes (loopInTail fuel)
      (collection.kinds ++ .mark .rparen :: (body.kinds ++ kind :: ks)) (pure (collection, body))
      (kind :: ks) := goes_loopInTail hbody hends hcollection (by omega)
  rw [statement]
  refine .peek rfl (.skip rfl (goes_forTail_left hitem.head ?_))
  refine .andThen (hitem.read (by omega) rfl) (.accept rfl ?_)
  exact htail.andThen .refl

theorem readsStatement_loopVarIn {item : Binding} {collection : Expr} {body : Stmt}
    (hitem : ReadsBinding .loopHead item) (hin : item.endsBeforeIn = true)
    (hcollection : ReadsWhole .free collection) (hbody : ReadsStatement body) :
    ReadsStatement (.loopVarIn item collection body) := by
  intro fuel kind ks hfuel hends
  simp only [Stmt.kinds, List.length_cons, List.length_append, List.cons_append,
    List.append_assoc] at hfuel ⊢
  obtain ⟨fuel, rfl⟩ : ∃ more, fuel = more + 2 := ⟨fuel - 2, by omega⟩
  have hbinding : EndsBinding .loopHead (.keyword .in) item := by
    cases item with
    | bare => trivial
    | init name value => exact ⟨rfl, rfl, rfl, hin⟩
  have hkinds : bindingKinds [item] = item.kinds := by
    simp only [bindingKinds, List.isEmpty_nil, if_true, List.append_nil]
  have hread : Goes (bindings fuel .loopHead)
      (bindingKinds [item] ++ .keyword .in :: (collection.kinds ++ .mark .rparen
        :: (body.kinds ++ kind :: ks))) (pure [item]) (.keyword .in :: (collection.kinds
        ++ .mark .rparen :: (body.kinds ++ kind :: ks))) :=
    goes_bindings (.keyword .in) (by rintro ⟨⟩) (by rintro ⟨⟩) (List.cons_ne_nil item [])
      (List.forall_mem_singleton.2 ⟨hitem, hbinding⟩) (by rw [hkinds]; omega)
  have htail : Goes (loopInTail fuel)
      (collection.kinds ++ .mark .rparen :: (body.kinds ++ kind :: ks)) (pure (collection, body))
      (kind :: ks) := goes_loopInTail hbody hends hcollection (by omega)
  rw [hkinds] at hread
  rw [statement]
  refine .peek rfl (.skip rfl ?_)
  rw [forTail]
  refine Goes.expectMark.andThen (.peek rfl ?_)
  rw [if_neg (by rintro ⟨⟩), if_pos rfl]
  refine .skip rfl (.andThen hread (.accept rfl ?_))
  exact htail.andThen .refl

/-! ## Choices and protected statements -/

/-- The labels and the bodies of a clause are read. -/
def ReadsClause : Clause → Prop
  | .on label body => ReadsWhole .free label ∧ ReadsStatements body
  | .otherwise body => ReadsStatements body

/-- Clauses end before the next clause or the closing brace. -/
theorem clauseKinds_append (cs : List Clause) (ks : List TokenKind) :
    ∃ kind more, clauseKinds cs ++ .mark .rbrace :: ks = kind :: more ∧
      closesStatements kind = true := by
  cases cs with
  | nil => exact ⟨_, _, rfl, rfl⟩
  | cons c cs => cases c <;> exact ⟨_, _, rfl, rfl⟩

theorem goes_clauses : ∀ {cs : List Clause}, (∀ c ∈ cs, ReadsClause c) → ∀ {fuel : Nat}
    (ks : List TokenKind), 16 * (clauseKinds cs).length + 1 ≤ fuel →
    Goes (clauses fuel) (clauseKinds cs ++ .mark .rbrace :: ks) (pure cs) (.mark .rbrace :: ks)
  | [], _, fuel, ks, hfuel => by
    obtain ⟨fuel, rfl⟩ : ∃ more, fuel = more + 1 := ⟨fuel - 1, by omega⟩
    rw [clauses]
    exact .acceptNot (by rintro ⟨⟩) (by rintro ⟨⟩) (.acceptNot (by rintro ⟨⟩) (by rintro ⟨⟩) .refl)
  | .on label body :: cs, h, fuel, ks, hfuel => by
    obtain ⟨⟨hlabel, hbody⟩, hcs⟩ := List.forall_mem_cons.1 h
    simp only [clauseKinds, List.length_cons, List.length_append, List.cons_append,
      List.append_assoc] at hfuel ⊢
    obtain ⟨fuel, rfl⟩ : ∃ more, fuel = more + 1 := ⟨fuel - 1, by omega⟩
    have hrest : Goes (clauses fuel) (clauseKinds cs ++ .mark .rbrace :: ks) (pure cs)
        (.mark .rbrace :: ks) := goes_clauses hcs ks (by omega)
    obtain ⟨kind, more, hmore, hkind⟩ := clauseKinds_append cs ks
    rw [clauses]
    rw [hmore] at hrest ⊢
    refine .accept rfl ?_
    refine .andThen (hlabel.read (by omega) (.separator rfl rfl fun _ => rfl) (by rintro ⟨⟩)) ?_
    refine Goes.expectMark.andThen (.andThen (hbody fuel kind more (by omega) hkind) ?_)
    exact hrest.andThen .refl
  | .otherwise body :: cs, h, fuel, ks, hfuel => by
    obtain ⟨hbody, hcs⟩ := List.forall_mem_cons.1 h
    simp only [clauseKinds, List.length_cons, List.length_append, List.cons_append,
      List.append_assoc] at hfuel ⊢
    obtain ⟨fuel, rfl⟩ : ∃ more, fuel = more + 1 := ⟨fuel - 1, by omega⟩
    have hrest : Goes (clauses fuel) (clauseKinds cs ++ .mark .rbrace :: ks) (pure cs)
        (.mark .rbrace :: ks) := goes_clauses hcs ks (by omega)
    obtain ⟨kind, more, hmore, hkind⟩ := clauseKinds_append cs ks
    rw [clauses]
    rw [hmore] at hrest ⊢
    refine .acceptNot (by rintro ⟨⟩) (by rintro ⟨⟩) (.accept rfl (Goes.expectMark.andThen ?_))
    exact .andThen (hbody fuel kind more (by omega) hkind) (hrest.andThen .refl)

theorem readsStatement_switch {subject : Expr} {cs : List Clause}
    (hsubject : ReadsWhole .free subject) (h : ∀ c ∈ cs, ReadsClause c)
    (hcount : cs.countP (·.isOtherwise) ≤ 1) : ReadsStatement (.switch subject cs) := by
  intro fuel kind ks hfuel _
  simp only [Stmt.kinds, List.length_cons, List.length_append, bracedKinds, List.cons_append,
    List.append_assoc, List.nil_append] at hfuel ⊢
  obtain ⟨fuel, rfl⟩ : ∃ more, fuel = more + 1 := ⟨fuel - 1, by omega⟩
  rw [statement]
  refine .peek rfl (.skip rfl (.andThen (goes_parenthesized hsubject (by omega)) ?_))
  refine Goes.expectMark.andThen (.andThen (goes_clauses h _ (by omega)) ?_)
  refine Goes.expectMark.andThen ?_
  rw [if_neg (Nat.not_lt.2 hcount)]
  exact .refl

theorem readsStatement_tryCatch {body handler : List Stmt} {param : String}
    (hbody : ReadsStatements body) (hhandler : ReadsStatements handler) :
    ReadsStatement (.tryCatch body param handler) := by
  intro fuel kind ks hfuel hends
  simp only [Stmt.kinds, List.length_cons, List.length_append, length_bracedKinds,
    List.cons_append, List.append_assoc] at hfuel ⊢
  obtain ⟨fuel, rfl⟩ : ∃ more, fuel = more + 2 := ⟨fuel - 2, by omega⟩
  rw [statement]
  refine .peek rfl (.skip rfl ?_)
  rw [tryTail]
  refine .andThen (hbody.braced _ (by omega)) (.accept rfl ?_)
  refine Goes.expectMark.andThen (Goes.identifier.andThen (Goes.expectMark.andThen ?_))
  exact .andThen (hhandler.braced _ (by omega)) (.acceptNot hends.1 (by rintro ⟨⟩) .refl)

theorem readsStatement_tryFinally {body finalizer : List Stmt}
    (hbody : ReadsStatements body) (hfinalizer : ReadsStatements finalizer) :
    ReadsStatement (.tryFinally body finalizer) := by
  intro fuel kind ks hfuel _
  simp only [Stmt.kinds, List.length_cons, List.length_append, length_bracedKinds,
    List.cons_append, List.append_assoc] at hfuel ⊢
  obtain ⟨fuel, rfl⟩ : ∃ more, fuel = more + 2 := ⟨fuel - 2, by omega⟩
  rw [statement]
  refine .peek rfl (.skip rfl ?_)
  rw [tryTail]
  refine .andThen (hbody.braced _ (by omega)) (.acceptNot (by rintro ⟨⟩) (by rintro ⟨⟩) ?_)
  exact (Goes.expect rfl).andThen (.andThen (hfinalizer.braced _ (by omega)) .refl)

theorem readsStatement_tryCatchFinally {body handler finalizer : List Stmt} {param : String}
    (hbody : ReadsStatements body) (hhandler : ReadsStatements handler)
    (hfinalizer : ReadsStatements finalizer) :
    ReadsStatement (.tryCatchFinally body param handler finalizer) := by
  intro fuel kind ks hfuel _
  simp only [Stmt.kinds, List.length_cons, List.length_append, length_bracedKinds,
    List.cons_append, List.append_assoc] at hfuel ⊢
  obtain ⟨fuel, rfl⟩ : ∃ more, fuel = more + 2 := ⟨fuel - 2, by omega⟩
  rw [statement]
  refine .peek rfl (.skip rfl ?_)
  rw [tryTail]
  refine .andThen (hbody.braced _ (by omega)) (.accept rfl ?_)
  refine Goes.expectMark.andThen (Goes.identifier.andThen (Goes.expectMark.andThen ?_))
  refine .andThen (hhandler.braced _ (by omega)) (.accept rfl ?_)
  exact .andThen (hfinalizer.braced _ (by omega)) .refl

theorem readsStatement_func {name : String} {params : List String} {body : List Stmt}
    (hbody : ReadsStatements body) : ReadsStatement (.func name params body) := by
  intro fuel kind ks hfuel hends
  obtain ⟨hcontinues, hregex⟩ := hends.2.2 rfl
  have hparams := length_lt_length_paramKinds params
  simp only [Stmt.kinds, List.length_cons, List.length_append, length_bracedKinds,
    List.cons_append, List.append_assoc] at hfuel ⊢
  obtain ⟨fuel, rfl⟩ : ∃ more, fuel = more + 2 := ⟨fuel - 2, by omega⟩
  have hrun : Goes (functionStatement (fuel + 1)) (.keyword .function :: .name name
      :: (paramKinds params ++ (bracedKinds (stmtKinds body) ++ kind :: ks)))
      (pure (.func name params body)) (kind :: ks) := by
    rw [functionStatement]
    refine .peekSecond rfl rfl (.skip rfl (.skip rfl (.andThen (.params (by omega)) ?_)))
    refine .andThen (hbody.braced _ (by omega)) (.peek hregex ?_)
    rw [if_neg (Bool.eq_false_iff.1 hcontinues)]
    exact .refl
  rw [statement]
  exact .peek rfl hrun

/-! ## Statements in sequence -/

theorem readsStatements_nil : ReadsStatements [] := by
  intro fuel kind ks hfuel hkind
  obtain ⟨fuel, rfl⟩ : ∃ more, fuel = more + 1 := ⟨fuel - 1, by omega⟩
  rw [statements]
  obtain rfl | rfl | rfl | rfl := closesStatements_cases hkind
  all_goals exact .peek rfl .refl

/-- What closes statements does not go on with the last of them. -/
theorem endsStatement_of_closes (s : Stmt) {kind : TokenKind} (h : closesStatements kind = true) :
    EndsStatement s kind := by
  obtain rfl | rfl | rfl | rfl := closesStatements_cases h
  all_goals exact ⟨nofun, fun _ => nofun, fun _ => ⟨rfl, rfl⟩⟩

theorem continuesFunction_of_startsExpr {kind : TokenKind} (h : kind.startsExpr = true) :
    kind.continuesFunction = false := by
  cases kind with
  | keyword word => cases word <;> first | rfl | cases h
  | mark m =>
    cases m with
    | binary op => cases op <;> first | rfl | cases h
    | _ => first | rfl | cases h
  | _ => rfl

/-- The first token of a statement goes on with no statement, except that the slash of a regular
expression may divide a function. -/
theorem endsStatement_head (s next : Stmt)
    (h : s.endsInFunction = true → next.head.isRegex = false) : EndsStatement s next.head := by
  cases next with
  | expr e =>
    have hstarts := e.startsExpr_head
    refine ⟨?_, fun _ => ?_, fun hfunction =>
      ⟨continuesFunction_of_startsExpr hstarts, h hfunction⟩⟩
    all_goals
      intro heq
      have hhead : e.head = _ := heq
      rw [hhead] at hstarts
      cases hstarts
  | _ => exact ⟨nofun, fun _ => nofun, fun hfunction => ⟨rfl, h hfunction⟩⟩

theorem readsStatements_cons {s : Stmt} {ss : List Stmt} (hs : ReadsStatement s)
    (hss : ReadsStatements ss) (hplain : s.endsInFunction = true → startsPlain ss = true) :
    ReadsStatements (s :: ss) := by
  intro fuel kind ks hfuel hkind
  have hpos := s.one_le_length_kinds
  rw [stmtKinds, List.length_append] at hfuel
  rw [stmtKinds, List.append_assoc]
  obtain ⟨fuel, rfl⟩ : ∃ more, fuel = more + 1 := ⟨fuel - 1, by omega⟩
  have hrest := hss fuel kind ks (by omega) hkind
  obtain ⟨next, more, hmore, hnext⟩ : ∃ next more, stmtKinds ss ++ kind :: ks = next :: more ∧
      EndsStatement s next := by
    cases ss with
    | nil => exact ⟨kind, ks, rfl, endsStatement_of_closes s hkind⟩
    | cons s' ss =>
      obtain ⟨more, hmore⟩ := s'.kinds_eq_cons
      refine ⟨s'.head, _, by rw [stmtKinds, hmore]; rfl,
        endsStatement_head s s' fun hfunction => ?_⟩
      simpa [startsPlain] using hplain hfunction
  have hrun : Goes (do
      let s ← statement fuel
      let rest ← statements fuel
      return s :: rest) (s.kinds ++ (stmtKinds ss ++ kind :: ks)) (pure (s :: ss))
        (kind :: ks) := by
    rw [hmore] at hrest ⊢
    exact .andThen (hs fuel next more (by omega) hnext) (hrest.andThen .refl)
  obtain ⟨others, hothers⟩ := s.kinds_eq_cons
  have hopen := s.closesStatements_head
  rw [statements]
  rw [hothers, List.cons_append] at hrun ⊢
  refine .peekAny ?_ ?_
  · split
    case h_5 => exact hrun
    all_goals
      rename_i heq
      rw [heq] at hopen
      cases hopen
  · intro hregex
    obtain ⟨text, hhead⟩ := TokenKind.exists_of_isRegex hregex
    rw [hhead]

end Reader

end Espalier.Script
