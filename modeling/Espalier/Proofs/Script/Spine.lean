import Espalier.Proofs.Script.Transitions

/-!
# Reading operators

Operators, fields and commas group to the left, so that readers find an expression from its first
part on. `Expr.base`, `Expr.operand`, `Expr.left` and `Expr.first` are the first parts of left-hand
sides, of operators between operands, of assignments and of expressions between commas, and each
comes with the tokens behind it. `ReadsLeftSide`, `ReadsOperators`, `ReadsAssignment` and
`ReadsWhole` say that the readers of these levels find the expression in its tokens, with fuel for
each token and with anything behind that does not go on with the expression.
-/

namespace Espalier.Script

/-! ## Spines -/

/-- What a left-hand side begins with, before its fields and calls. -/
def Expr.base : Expr → Expr
  | .dot e _ | .index e _ | .call e _ => e.base
  | e => e

/-- The tokens of the fields and calls behind `base`. -/
def Expr.chain : Expr → List TokenKind
  | .dot owner field => owner.chain ++ [.mark .dot, wordToken field]
  | .index owner position =>
    owner.chain ++ .mark .lbracket :: (position.kinds ++ [.mark .rbracket])
  | .call callee args => callee.chain ++ .mark .lparen :: argKinds args
  | _ => []

/-- The number of fields and calls behind `base`. -/
def Expr.links : Expr → Nat
  | .dot e _ | .index e _ | .call e _ => e.links + 1
  | _ => 0

/-- The first operand of operators that group to the left. -/
def Expr.operand : Expr → Expr
  | .binary _ e _ => e.operand
  | e => e

/-- The tokens behind the first operand. -/
def Expr.afterOperand : Expr → List TokenKind
  | .binary op left right => left.afterOperand ++ op.kind :: right.kinds
  | _ => []

/-- The number of operators behind the first operand. -/
def Expr.ops : Expr → Nat
  | .binary _ e _ => e.ops + 1
  | _ => 0

/-- The first of several expressions between commas. -/
def Expr.first : Expr → Expr
  | .comma e _ => e.first
  | e => e

/-- The tokens behind the first of several expressions. -/
def Expr.afterFirst : Expr → List TokenKind
  | .comma left right => left.afterFirst ++ .mark .comma :: right.kinds
  | _ => []

/-- The number of commas behind the first of several expressions. -/
def Expr.commas : Expr → Nat
  | .comma e _ => e.commas + 1
  | _ => 0

/-- The left-hand side at the start of an expression that begins with no operator. -/
def Expr.left : Expr → Expr
  | .binary _ e _ | .cond e _ _ | .comma e _ => e.left
  | .step e _ | .assign _ e _ => e
  | e => e

/-- The tokens behind `left`. -/
def Expr.afterLeft : Expr → List TokenKind
  | .step _ op => [op.kind]
  | .binary op left right => left.afterLeft ++ op.kind :: right.kinds
  | .assign op _ right => .mark (.assign op) :: right.kinds
  | .cond test yes no =>
    test.afterLeft ++ .mark .question :: (yes.kinds ++ .mark .colon :: no.kinds)
  | .comma left right => left.afterLeft ++ .mark .comma :: right.kinds
  | _ => []

/-- The expression begins with an operator. -/
def Expr.isSigned : Expr → Bool
  | .unary .. => true
  | .binary _ e _ | .cond e _ _ | .comma e _ => e.isSigned
  | _ => false

/-- The expression is a construction without arguments. -/
def Expr.isBare : Expr → Bool
  | .newBare _ => true
  | _ => false

namespace Expr

theorem kinds_base_chain (e : Expr) : e.kinds = e.base.kinds ++ e.chain := by
  fun_induction base e with
  | case1 e _ ih | case2 e _ ih | case3 e _ ih => rw [kinds, ih, chain, List.append_assoc]
  | case4 e h1 h2 h3 =>
    rw [chain, List.append_nil]
    all_goals assumption

theorem one_le_length_argKinds (args : List Expr) : 1 ≤ (argKinds args).length := by
  cases args with
  | nil => exact Nat.le_refl 1
  | cons e es =>
    have he := e.one_le_length_kinds
    rw [argKinds, List.length_append]
    omega

theorem two_mul_links_le (e : Expr) : 2 * e.links ≤ e.chain.length := by
  fun_induction links e with
  | case1 e _ ih | case2 e _ ih =>
    simp only [chain, List.length_append, List.length_cons]
    omega
  | case3 e args ih =>
    have hargs := one_le_length_argKinds args
    simp only [chain, List.length_append, List.length_cons]
    omega
  | case4 => exact Nat.zero_le _

theorem kinds_operand (e : Expr) : e.kinds = e.operand.kinds ++ e.afterOperand := by
  fun_induction operand e with
  | case1 _ e _ ih => rw [kinds, ih, afterOperand, List.append_assoc]
  | case2 e h =>
    rw [afterOperand, List.append_nil]
    assumption

theorem two_mul_ops_le (e : Expr) : 2 * e.ops ≤ e.afterOperand.length := by
  fun_induction ops e with
  | case1 _ e right ih =>
    have hright := right.one_le_length_kinds
    simp only [afterOperand, List.length_append, List.length_cons]
    omega
  | case2 => exact Nat.zero_le _

theorem kinds_first (e : Expr) : e.kinds = e.first.kinds ++ e.afterFirst := by
  fun_induction first e with
  | case1 e _ ih => rw [kinds, ih, afterFirst, List.append_assoc]
  | case2 e h =>
    rw [afterFirst, List.append_nil]
    assumption

theorem two_mul_commas_le (e : Expr) : 2 * e.commas ≤ e.afterFirst.length := by
  fun_induction commas e with
  | case1 e right ih =>
    have hright := right.one_le_length_kinds
    simp only [afterFirst, List.length_append, List.length_cons]
    omega
  | case2 => exact Nat.zero_le _

theorem kinds_left (e : Expr) : e.kinds = e.left.kinds ++ e.afterLeft := by
  fun_induction left e with
  | case1 _ e _ ih | case2 e _ _ ih | case3 e _ ih => rw [kinds, ih, afterLeft, List.append_assoc]
  | case4 | case5 => rw [kinds, afterLeft]
  | case6 e h1 h2 h3 h4 h5 =>
    rw [afterLeft, List.append_nil]
    all_goals assumption

theorem head_left (e : Expr) : e.left.head = e.head := by
  fun_induction left e with
  | case1 _ e _ ih | case2 e _ _ ih | case3 e _ ih => rw [ih, head]
  | case4 | case5 => rw [head]
  | case6 => rfl

/-- An expression begins with an operator if its first token says so. -/
theorem ofToken?_head_of_isSigned {e : Expr} (h : e.isSigned = true) :
    (UnaryOp.ofToken? e.head).isSome = true := by
  fun_induction isSigned e with
  | case1 op _ => cases op <;> rfl
  | case2 _ e _ ih | case3 e _ _ ih | case4 e _ ih => exact ih h
  | case5 => cases h

/-- A left-hand side is its own first part. -/
theorem spine_of_rank {e : Expr} (h : 13 ≤ e.rank) :
    e.operand = e ∧ e.afterOperand = [] ∧ e.ops = 0 ∧ e.left = e ∧ e.afterLeft = [] ∧
      e.isSigned = false := by
  cases e with
  | binary op =>
    have hlevel : op.level ≤ 10 := by cases op <;> decide
    rw [rank] at h
    omega
  | comma | assign | cond | unary | step => simp [rank] at h
  | _ => exact ⟨rfl, rfl, rfl, rfl, rfl, rfl⟩

end Expr

/-! ## What may follow -/

/-- The token is a field or a call of what stands before it. -/
def TokenKind.extendsLeft : TokenKind → Bool
  | .mark .dot | .mark .lbracket | .mark .lparen => true
  | _ => false

/-- The token goes on with the operand before it. -/
def TokenKind.extendsOperand (kind : TokenKind) : Bool :=
  kind.extendsLeft || (StepOp.ofToken? kind).isSome

/-- The token goes on with the operand before it, or with an assignment or a conditional. -/
def TokenKind.extendsExpr (kind : TokenKind) : Bool :=
  kind.extendsOperand || (AssignOp.ofToken? kind).isSome || kind = .mark .question

namespace Reader

section
variable {kind : TokenKind} {ks : List TokenKind} {e : Expr} {fuel : Nat}

theorem Goes.callTail_end (h : kind.extendsLeft = false) :
    Goes (callTail (fuel + 1) e) (kind :: ks) (pure e) (kind :: ks) := by
  rw [callTail]
  refine .peekAny ?_ ?_
  · split
    case h_4 => exact .refl
    all_goals cases h
  · intro hregex
    obtain ⟨text, rfl⟩ := TokenKind.exists_of_isRegex hregex
    rfl

theorem Goes.memberTail_end (hdot : kind ≠ .mark .dot) (hbracket : kind ≠ .mark .lbracket) :
    Goes (memberTail (fuel + 1) e) (kind :: ks) (pure e) (kind :: ks) := by
  rw [memberTail]
  refine .peekAny ?_ ?_
  · split
    case h_1 => exact absurd rfl hdot
    case h_2 => exact absurd rfl hbracket
    case h_3 => exact .refl
  · intro hregex
    obtain ⟨text, rfl⟩ := TokenKind.exists_of_isRegex hregex
    rfl

theorem Goes.stepTail_end (h : StepOp.ofToken? kind = none) :
    Goes (stepTail e) (kind :: ks) (pure e) (kind :: ks) := by
  rw [stepTail]
  refine .peekAny ?_ ?_
  · rw [h]
    exact .refl
  · intro hregex
    obtain ⟨text, rfl⟩ := TokenKind.exists_of_isRegex hregex
    rfl

theorem Goes.stepTail (op : StepOp) :
    Goes (stepTail e) (op.kind :: ks) (pure (.step e op)) ks := by
  rw [Reader.stepTail]
  cases op <;> exact .peek rfl (.skip rfl .refl)

theorem Goes.binaryTail_end {place : Place} {level : Nat}
    (h : (BinaryOp.ofToken? place kind).all (·.level ≤ level) = true)
    (hregex : kind.isRegex = false) :
    Goes (binaryTail (fuel + 1) place level e) (kind :: ks) (pure e) (kind :: ks) := by
  rw [binaryTail]
  refine .peek hregex ?_
  cases hop : BinaryOp.ofToken? place kind with
  | none => exact .refl
  | some op =>
    rw [hop, Option.all_some, decide_eq_true_eq] at h
    simp only [if_neg (Nat.not_lt.2 h)]
    exact .refl

end

/-! ## Left-hand sides -/

/-- The readers find the left-hand side in its tokens: what it begins with, and from there its
fields and calls. -/
structure ReadsLeftSide (e : Expr) : Prop where
  head : UnaryOp.ofToken? e.head = none
  base : ∀ (fuel : Nat) (ks : List TokenKind), 16 * e.base.kinds.length ≤ fuel + 9 →
    (e.isBare = true → ∃ kind more, ks = kind :: more ∧ kind.extendsLeft = false) →
    Goes (construction fuel) (e.base.kinds ++ ks) (pure e.base) ks
  chain : ∀ (fuel : Nat) (ks : List TokenKind), 16 * e.chain.length ≤ fuel + e.links →
    Goes (callTail (fuel + e.links) e.base) (e.chain ++ ks) (callTail fuel e) ks
  fields : e.rank ≠ 14 → ∀ (fuel : Nat) (ks : List TokenKind),
    16 * e.chain.length ≤ fuel + e.links →
    Goes (memberTail (fuel + e.links) e.base) (e.chain ++ ks) (memberTail fuel e) ks

/-- What stands by itself is read as the base of a left-hand side. -/
theorem ReadsLeftSide.of_base {e : Expr} (hhead : UnaryOp.ofToken? e.head = none)
    (hbase : e.base = e) (hchain : e.chain = []) (hlinks : e.links = 0)
    (h : ∀ (fuel : Nat) (ks : List TokenKind), 16 * e.kinds.length ≤ fuel + 9 →
      (e.isBare = true → ∃ kind more, ks = kind :: more ∧ kind.extendsLeft = false) →
      Goes (construction fuel) (e.kinds ++ ks) (pure e) ks) : ReadsLeftSide e where
  head := hhead
  base := by
    rw [hbase]
    exact h
  chain := by
    intro fuel ks _
    rw [hbase, hchain, hlinks]
    exact .refl
  fields := by
    intro _ fuel ks _
    rw [hbase, hchain, hlinks]
    exact .refl

/-- A left-hand side before a token that does not extend it. -/
theorem ReadsLeftSide.read {e : Expr} (h : ReadsLeftSide e) {fuel : Nat} {kind : TokenKind}
    {ks : List TokenKind} (hfuel : 16 * e.kinds.length ≤ fuel + 8)
    (hkind : kind.extendsLeft = false) :
    Goes (leftHandSide fuel) (e.kinds ++ kind :: ks) (pure e) (kind :: ks) := by
  have hlinks := e.two_mul_links_le
  have hpos := e.base.one_le_length_kinds
  have hkinds := e.kinds_base_chain
  rw [hkinds, List.length_append] at hfuel
  obtain ⟨fuel, rfl⟩ : ∃ more, fuel = more + 1 + e.links + 1 := ⟨fuel - e.links - 2, by omega⟩
  rw [leftHandSide, hkinds, List.append_assoc]
  refine .andThen (h.base _ _ (by omega) ?_) ?_
  · intro hbare
    have hchain : e.chain = [] := by
      cases e with
      | newBare => rfl
      | _ => cases hbare
    exact ⟨kind, ks, by rw [hchain]; rfl, hkind⟩
  · exact (h.chain _ _ (by omega)).trans (.callTail_end hkind)

/-- What the reader of primary expressions goes on with behind the first token. -/
theorem Goes.primary {kind : TokenKind} {fuel : Nat} {r : Reader Expr} {ks ks' : List TokenKind}
    (next : Reader Expr) (hkind : kind.isRegex = false)
    (hrun : ∀ t rest, t.kind = kind → (Reader.primary (fuel + 1)).run (t :: rest) = next.run rest)
    (h : Goes next ks r ks') : Goes (Reader.primary (fuel + 1)) (kind :: ks) r ks' := by
  intro ambiguous ts hts
  obtain ⟨t, rest, rfl, ht, hrest⟩ := hts.cons hkind
  rw [hrun t rest ht]
  exact h _ rest hrest

theorem ReadsLeftSide.of_primary {e : Expr} (hhead : UnaryOp.ofToken? e.head = none)
    (hnew : e.head ≠ .keyword .new) (hbase : e.base = e) (hchain : e.chain = [])
    (hlinks : e.links = 0)
    (h : ∀ (fuel : Nat) (ks : List TokenKind), 16 * e.kinds.length ≤ fuel + 11 →
      Goes (Reader.primary (fuel + 1)) (e.kinds ++ ks) (pure e) ks) : ReadsLeftSide e := by
  refine .of_base hhead hbase hchain hlinks fun fuel ks hfuel _ => ?_
  have hpos := e.one_le_length_kinds
  obtain ⟨fuel, rfl⟩ : ∃ more, fuel = more + 2 := ⟨fuel - 2, by omega⟩
  obtain ⟨more, hmore⟩ := e.kinds_eq_cons
  rw [construction]
  have hread := h fuel ks (by omega)
  rw [hmore] at hread ⊢
  exact .acceptNot hnew (by rintro ⟨⟩) hread

/-! ## Operators -/

section
variable {place : Place} {e : Expr}

/-- The readers find the expression in its tokens, operand by operand. -/
structure ReadsOperators (place : Place) (e : Expr) : Prop where
  left : e.isSigned = false → ReadsLeftSide e.left
  operand : ∀ (fuel : Nat) (kind : TokenKind) (ks : List TokenKind),
    16 * e.operand.kinds.length ≤ fuel + 7 → kind.extendsOperand = false →
    Goes (unary fuel) (e.operand.kinds ++ kind :: ks) (pure e.operand) (kind :: ks)
  operators : ∀ (level fuel : Nat) (kind : TokenKind) (ks : List TokenKind), level + 1 < e.rank →
    e.closes place kind = true → kind.extendsOperand = false → kind.isRegex = false →
    16 * e.afterOperand.length ≤ fuel + e.ops →
    Goes (binaryTail (fuel + e.ops) place level e.operand) (e.afterOperand ++ kind :: ks)
      (binaryTail fuel place level e) (kind :: ks)

/-- An operand has no operators behind it. -/
theorem ReadsOperators.of_operand (hleft : e.isSigned = false → ReadsLeftSide e.left)
    (hoperand : e.operand = e) (hafter : e.afterOperand = []) (hops : e.ops = 0)
    (h : ∀ (fuel : Nat) (kind : TokenKind) (ks : List TokenKind),
      16 * e.kinds.length ≤ fuel + 7 → kind.extendsOperand = false →
      Goes (unary fuel) (e.kinds ++ kind :: ks) (pure e) (kind :: ks)) :
    ReadsOperators place e where
  left := hleft
  operand := by
    rw [hoperand]
    exact h
  operators := by
    intros
    rw [hoperand, hafter, hops]
    exact .refl

theorem extendsOperand_eq_false {kind : TokenKind} :
    kind.extendsOperand = false ↔ kind.extendsLeft = false ∧ StepOp.ofToken? kind = none := by
  rw [TokenKind.extendsOperand, Bool.or_eq_false_iff, Option.isSome_eq_false_iff,
    Option.isNone_iff_eq_none]

/-- An operand that begins with a left-hand side, before what follows the left-hand side. -/
theorem ReadsLeftSide.unary (h : ReadsLeftSide e) {fuel : Nat} {kind : TokenKind}
    {ks : List TokenKind} (hfuel : 16 * e.kinds.length ≤ fuel + 8)
    (hkind : kind.extendsLeft = false) :
    Goes (unary (fuel + 1)) (e.kinds ++ kind :: ks) (stepTail e) (kind :: ks) := by
  obtain ⟨more, hmore⟩ := e.kinds_eq_cons
  have hread : Goes (leftHandSide fuel >>= stepTail) (e.kinds ++ kind :: ks) (stepTail e)
      (kind :: ks) := (h.read hfuel hkind).andThen .refl
  rw [Reader.unary]
  rw [hmore, List.cons_append] at hread ⊢
  refine .peekAny ?_ ?_
  · rw [h.head]
    exact hread
  · intro hregex
    rw [h.head]
    rfl

theorem ReadsLeftSide.readsOperators (h : ReadsLeftSide e) (hrank : 13 ≤ e.rank) :
    ReadsOperators place e := by
  obtain ⟨hoperand, hafter, hops, hleft, -, -⟩ := e.spine_of_rank hrank
  refine .of_operand
    (fun _ => hleft.symm ▸ h) hoperand hafter hops fun fuel kind ks hfuel hkind => ?_
  obtain ⟨hextends, hstep⟩ := extendsOperand_eq_false.1 hkind
  have hpos := e.one_le_length_kinds
  obtain ⟨fuel, rfl⟩ : ∃ more, fuel = more + 1 := ⟨fuel - 1, by omega⟩
  exact (h.unary (by omega) hextends).trans (.stepTail_end hstep)

theorem readsOperators_step {o : Expr} (h : ReadsLeftSide o) (op : StepOp) :
    ReadsOperators place (.step o op) := by
  refine .of_operand (fun _ => h) rfl rfl rfl fun fuel kind ks hfuel _ => ?_
  have hpos := o.one_le_length_kinds
  simp only [Expr.kinds, List.length_append, List.length_singleton, List.append_assoc,
    List.singleton_append] at hfuel ⊢
  obtain ⟨fuel, rfl⟩ : ∃ more, fuel = more + 1 := ⟨fuel - 1, by omega⟩
  have hkind : op.kind.extendsLeft = false := by cases op <;> rfl
  exact (h.unary (by omega) hkind).trans (.stepTail op)

theorem readsOperators_unary {o : Expr} (h : ReadsOperators .free o) (hrank : 12 ≤ o.rank)
    (op : UnaryOp) : ReadsOperators place (.unary op o) := by
  refine .of_operand nofun rfl rfl rfl fun fuel kind ks hfuel hkind => ?_
  have hoperand : o.operand = o := by
    cases o with
    | binary op =>
      have hlevel : op.level ≤ 10 := by cases op <;> decide
      rw [Expr.rank] at hrank
      omega
    | _ => rfl
  have hread := h.operand
  rw [hoperand] at hread
  have hpos := o.one_le_length_kinds
  simp only [Expr.kinds, List.length_cons, List.cons_append] at hfuel ⊢
  obtain ⟨fuel, rfl⟩ : ∃ more, fuel = more + 1 := ⟨fuel - 1, by omega⟩
  rw [Reader.unary]
  cases op
  all_goals exact .peek rfl (.skip rfl ((hread fuel kind ks (by omega) hkind).andThen .refl))

/-- The token of an operator is the operator, unless the place forbids it. -/
theorem ofToken?_kind {op : BinaryOp} (h : op = .isIn → place ≠ .loopHead) :
    BinaryOp.ofToken? place op.kind = some op := by
  cases op with
  | isIn => exact if_neg (h rfl)
  | _ => rfl

theorem kind_spec (op : BinaryOp) :
    op.kind.extendsExpr = false ∧ op.kind.isRegex = false := by
  cases op <;> decide

/-- What binds more tightly than an operator ends before it. -/
theorem closes_of_level {kind : TokenKind} {level : Nat}
    (hkind : ∀ place, (BinaryOp.ofToken? place kind).all (·.level ≤ level) = true) :
    ∀ {place : Place} {e : Expr}, e.Formed place → level < e.rank → 2 ≤ e.rank →
      e.closes place kind = true := by
  intro place e hformed hlevel hrank
  fun_induction Expr.closes place kind e with
  | case1 place op left right ih =>
    obtain ⟨-, -, hright, hrank, -⟩ := hformed
    rw [Expr.rank] at hlevel
    rw [Bool.and_eq_true]
    refine ⟨?_, ih hright (by omega) (by omega)⟩
    have hall := hkind (place.right op)
    rw [BinaryOp.yields]
    cases hop : BinaryOp.ofToken? (place.right op) kind with
    | none => rfl
    | some found =>
      rw [hop, Option.all_some, decide_eq_true_eq] at hall
      rw [Option.all_some, decide_eq_true_eq]
      omega
  | case2 | case3 | case4 => simp [Expr.rank] at hrank
  | case5 => rfl

theorem afterOperand_cases (e : Expr) :
    e.afterOperand = [] ∨ ∃ op more, e.afterOperand = BinaryOp.kind op :: more := by
  fun_induction Expr.afterOperand e with
  | case1 op left right ih =>
    obtain h | ⟨first, more, h⟩ := ih
    · exact .inr ⟨op, _, by rw [h]; rfl⟩
    · exact .inr ⟨first, _, by rw [h]; rfl⟩
  | case2 => exact .inl rfl

theorem extendsOperand_kind (op : BinaryOp) : op.kind.extendsOperand = false := by
  cases op <;> decide

/-- The operators behind the first operand, up to a token that ends them. -/
theorem ReadsOperators.tail (h : ReadsOperators place e) {level fuel : Nat} {kind : TokenKind}
    {ks : List TokenKind} (hlevel : level + 1 < e.rank)
    (hends : (BinaryOp.ofToken? place kind).all (·.level ≤ level) = true)
    (hcloses : e.closes place kind = true) (hextends : kind.extendsOperand = false)
    (hregex : kind.isRegex = false) (hfuel : 16 * e.afterOperand.length < fuel) :
    Goes (binaryTail fuel place level e.operand) (e.afterOperand ++ kind :: ks) (pure e)
      (kind :: ks) := by
  have hops := e.two_mul_ops_le
  obtain ⟨fuel, rfl⟩ : ∃ more, fuel = more + 1 + e.ops := ⟨fuel - e.ops - 1, by omega⟩
  refine (h.operators level (fuel + 1) kind ks hlevel hcloses hextends hregex (by omega)).trans ?_
  exact .binaryTail_end hends hregex

/-- The first operand, and the operators behind it. -/
theorem ReadsOperators.run (h : ReadsOperators place e) {level fuel : Nat} {kind : TokenKind}
    {ks : List TokenKind} (hlevel : level + 1 < e.rank)
    (hends : (BinaryOp.ofToken? place kind).all (·.level ≤ level) = true)
    (hcloses : e.closes place kind = true) (hextends : kind.extendsOperand = false)
    (hregex : kind.isRegex = false) (hfuel : 16 * e.kinds.length ≤ fuel + 7) :
    Goes (unary fuel >>= binaryTail fuel place level) (e.kinds ++ kind :: ks) (pure e)
      (kind :: ks) := by
  have hpos := e.operand.one_le_length_kinds
  have hkinds := e.kinds_operand
  rw [hkinds, List.length_append] at hfuel
  rw [hkinds, List.append_assoc]
  have hnext : ∃ next more, e.afterOperand ++ kind :: ks = next :: more ∧
      next.extendsOperand = false := by
    obtain hnil | ⟨op, more, hcons⟩ := afterOperand_cases e
    · exact ⟨kind, ks, by rw [hnil]; rfl, hextends⟩
    · exact ⟨op.kind, _, by rw [hcons]; rfl, extendsOperand_kind op⟩
  obtain ⟨next, more, hmore, hnext⟩ := hnext
  have htail : Goes (binaryTail fuel place level e.operand) (e.afterOperand ++ kind :: ks) (pure e)
      (kind :: ks) := h.tail hlevel hends hcloses hextends hregex (by omega)
  rw [hmore] at htail ⊢
  exact (h.operand fuel next more (by omega) hnext).andThen htail

theorem readsOperators_binary {op : BinaryOp} {l r : Expr} (hl : ReadsOperators place l)
    (hr : ReadsOperators (place.right op) r) (hformed : (Expr.binary op l r).Formed place) :
    ReadsOperators place (.binary op l r) where
  left := hl.left
  operand := hl.operand
  operators := by
    intro level fuel kind ks hlevel hcloses hextends hregex hfuel
    obtain ⟨hleft, hlrank, hright, hrrank, hin, hbrace⟩ := hformed
    obtain ⟨-, hop_regex⟩ := kind_spec op
    rw [Expr.closes, Bool.and_eq_true] at hcloses
    have hlops := l.two_mul_ops_le
    simp only [Expr.afterOperand, Expr.ops, Expr.operand, List.append_assoc, List.cons_append,
      List.length_append, List.length_cons] at hfuel ⊢
    rw [Expr.rank] at hlevel
    have hlcloses : l.closes place op.kind = true := by
      refine closes_of_level (fun other => ?_) hleft hlrank ?_
      · cases op <;> cases other <;> decide
      · cases op <;> simp only [BinaryOp.level] at hlrank <;> omega
    have hfirst := hl.operators level (fuel + 1) op.kind (r.kinds ++ kind :: ks) (by omega) hlcloses
      (extendsOperand_kind op) hop_regex (by omega)
    have hsecond : Goes (unary fuel >>= binaryTail fuel (place.right op) op.level)
        (r.kinds ++ kind :: ks) (pure r) (kind :: ks) :=
      hr.run hrrank hcloses.1 hcloses.2 hextends hregex (by omega)
    have hsum : fuel + (l.ops + 1) = fuel + 1 + l.ops := by omega
    rw [hsum]
    refine hfirst.trans ?_
    rw [binaryTail]
    refine .peek hop_regex ?_
    rw [ofToken?_kind hin]
    simp only [if_pos (show level < op.level by omega)]
    refine .skip hop_regex ?_
    have hrun : Goes (do
        let operand ← unary fuel
        let right ← binaryTail fuel (place.right op) op.level operand
        binaryTail fuel place level (.binary op l right)) (r.kinds ++ kind :: ks)
        (binaryTail fuel place level (.binary op l r)) (kind :: ks) := by
      rw [← bind_assoc]
      exact hsecond.andThen .refl
    obtain ⟨more, hmore⟩ := r.kinds_eq_cons
    rw [hmore, List.cons_append] at hrun ⊢
    refine .peekAny ?_ ?_
    · rwa [if_neg]
      rintro ⟨hlbrace, hforbidden⟩
      rw [hbrace hlbrace] at hforbidden
      cases hforbidden
    · intro hregex
      cases hhead : r.head with
      | regex => rfl
      | _ => rw [hhead] at hregex; cases hregex

/-! ## Assignments and conditionals -/

/-- The token ends the expression at the place. -/
structure Ends (place : Place) (e : Expr) (kind : TokenKind) : Prop where
  extends_eq : kind.extendsExpr = false
  operator : BinaryOp.ofToken? place kind = none
  regex : kind.isRegex = false
  closes : e.closes place kind = true

theorem ofToken?_next {kind : TokenKind} (h : BinaryOp.ofToken? place kind = none) :
    BinaryOp.ofToken? place.next kind = none := by
  cases place with
  | free | loopHead => exact h
  | statement => exact h

theorem closes_of_none {kind : TokenKind} (hkind : ∀ place, BinaryOp.ofToken? place kind = none) :
    ∀ (place : Place) (e : Expr), e.closes place kind = true := by
  intro place e
  fun_induction Expr.closes place kind e with
  | case1 place op left right ih => rw [ih, BinaryOp.yields, hkind]; rfl
  | case2 _ _ _ _ ih | case3 _ _ _ _ ih | case4 _ _ _ ih => exact ih
  | case5 => rfl

/-- Closing marks and separators end every expression. -/
theorem Ends.separator {kind : TokenKind} (hextends : kind.extendsExpr = false)
    (hregex : kind.isRegex = false) (hkind : ∀ place, BinaryOp.ofToken? place kind = none) :
    Ends place e kind :=
  ⟨hextends, hkind place, hregex, closes_of_none hkind place e⟩

/-- The readers find the expression in its tokens: from its first left-hand side on, or else from
the operator that it begins with. -/
structure ReadsAssignment (place : Place) (e : Expr) : Prop where
  left : e.isSigned = false → ReadsLeftSide e.left
  tail : e.isSigned = false → ∀ (fuel : Nat) (kind : TokenKind) (ks : List TokenKind),
    16 * e.afterLeft.length + 4 ≤ fuel → Ends place e kind →
    Goes (assignmentTail fuel place e.left) (e.afterLeft ++ kind :: ks) (pure e) (kind :: ks)
  signed : e.isSigned = true → ∀ (fuel : Nat) (kind : TokenKind) (ks : List TokenKind),
    16 * e.kinds.length ≤ fuel + 4 → Ends place e kind →
    Goes (assignment fuel place) (e.kinds ++ kind :: ks) (pure e) (kind :: ks)

theorem afterLeft_cases (e : Expr) :
    e.afterLeft = [] ∨ ∃ kind more, e.afterLeft = kind :: more ∧ kind.extendsLeft = false := by
  fun_induction Expr.afterLeft e with
  | case1 _ op => exact .inr ⟨_, _, rfl, by cases op <;> rfl⟩
  | case2 op left right ih =>
    obtain h | ⟨kind, more, h, hkind⟩ := ih
    · refine .inr ⟨op.kind, _, by rw [h]; rfl, ?_⟩
      cases op <;> rfl
    · exact .inr ⟨kind, _, by rw [h]; rfl, hkind⟩
  | case3 => exact .inr ⟨_, _, rfl, rfl⟩
  | case4 test yes no ih | case5 left right ih =>
    obtain h | ⟨kind, more, h, hkind⟩ := ih
    · exact .inr ⟨_, _, by rw [h]; rfl, rfl⟩
    · exact .inr ⟨kind, _, by rw [h]; rfl, hkind⟩
  | case6 => exact .inl rfl

theorem Ends.extendsLeft {kind : TokenKind} (h : Ends place e kind) :
    kind.extendsLeft = false := by
  have hextends := h.extends_eq
  simp only [TokenKind.extendsExpr, TokenKind.extendsOperand, Bool.or_eq_false_iff] at hextends
  exact hextends.1.1.1

theorem Ends.extendsOperand {kind : TokenKind} (h : Ends place e kind) :
    kind.extendsOperand = false := by
  have hextends := h.extends_eq
  simp only [TokenKind.extendsExpr, Bool.or_eq_false_iff] at hextends
  exact hextends.1.1

theorem Ends.assignOp {kind : TokenKind} (h : Ends place e kind) :
    AssignOp.ofToken? kind = none := by
  have hextends := h.extends_eq
  simp only [TokenKind.extendsExpr, Bool.or_eq_false_iff, Option.isSome_eq_false_iff,
    Option.isNone_iff_eq_none] at hextends
  exact hextends.1.2

theorem Ends.question {kind : TokenKind} (h : Ends place e kind) : kind ≠ .mark .question := by
  have hextends := h.extends_eq
  simp only [TokenKind.extendsExpr, Bool.or_eq_false_iff, decide_eq_false_iff_not] at hextends
  exact hextends.2

theorem ReadsAssignment.read (h : ReadsAssignment place e) {fuel : Nat} {kind : TokenKind}
    {ks : List TokenKind} (hfuel : 16 * e.kinds.length ≤ fuel + 4) (hends : Ends place e kind) :
    Goes (assignment fuel place) (e.kinds ++ kind :: ks) (pure e) (kind :: ks) := by
  cases hsigned : e.isSigned with
  | true => exact h.signed hsigned fuel kind ks hfuel hends
  | false =>
    have hleft := h.left hsigned
    have hpos := e.left.one_le_length_kinds
    have hkinds := e.kinds_left
    have hlength : e.kinds.length = e.left.kinds.length + e.afterLeft.length := by
      rw [← List.length_append, ← hkinds]
    obtain ⟨fuel, rfl⟩ : ∃ more, fuel = more + 1 := ⟨fuel - 1, by omega⟩
    have hnext : ∃ next more, e.afterLeft ++ kind :: ks = next :: more ∧
        next.extendsLeft = false := by
      obtain hnil | ⟨next, more, hcons, hnext⟩ := afterLeft_cases e
      · exact ⟨kind, ks, by rw [hnil]; rfl, hends.extendsLeft⟩
      · exact ⟨next, _, by rw [hcons]; rfl, hnext⟩
    obtain ⟨next, more, hmore, hnext⟩ := hnext
    have htail := h.tail hsigned fuel kind ks (by omega) hends
    rw [hmore] at htail
    have hrun : Goes (leftHandSide fuel >>= assignmentTail fuel place) (e.kinds ++ kind :: ks)
        (pure e) (kind :: ks) := by
      rw [hkinds, List.append_assoc, hmore]
      exact (hleft.read (by omega) hnext).andThen htail
    obtain ⟨others, hothers⟩ := e.kinds_eq_cons
    have hunary : UnaryOp.ofToken? e.head = none := by rw [← e.head_left]; exact hleft.head
    rw [assignment]
    rw [hothers, List.cons_append] at hrun ⊢
    refine .peekAny ?_ ?_
    · rw [hunary]
      exact hrun
    · intro _
      rw [hunary]
      rfl

/-- Where the first operand of operators comes from. -/
theorem operand_cases : ∀ {e : Expr}, e.Formed place → 2 ≤ e.rank → e.isSigned = false →
    (e.operand = e.left ∧ e.afterLeft = e.afterOperand) ∨
      ∃ op : StepOp, e.operand = .step e.left op ∧ e.afterLeft = op.kind :: e.afterOperand := by
  intro e hformed hrank hsigned
  fun_induction Expr.operand e with
  | case1 op l r ih =>
    have hlevel : 1 ≤ op.level := by cases op <;> decide
    have hlrank := hformed.2.1
    obtain ⟨hoperand, hafter⟩ | ⟨step, hoperand, hafter⟩ := ih hformed.1 (by omega) hsigned
    · exact .inl ⟨hoperand, by rw [Expr.afterLeft, hafter, Expr.afterOperand]⟩
    · exact .inr ⟨step, hoperand, by rw [Expr.afterLeft, hafter, Expr.afterOperand]; rfl⟩
  | case2 e hbinary =>
    cases e with
    | binary op l r => exact absurd rfl (hbinary op l r)
    | comma | assign | cond => simp [Expr.rank] at hrank
    | unary => cases hsigned
    | step o op => exact .inr ⟨op, rfl, rfl⟩
    | _ => exact .inl ⟨rfl, rfl⟩

/-- An expression that is made of operators `e` and what follows them. -/
theorem ReadsAssignment.of_operators {a : Expr} {more : List TokenKind}
    (h : ReadsOperators place e) (hformed : e.Formed place) (hrank : 2 ≤ e.rank)
    (hkinds : a.kinds = e.kinds ++ more) (hleft : a.left = e.left)
    (hafter : a.afterLeft = e.afterLeft ++ more) (hsigned : a.isSigned = e.isSigned)
    (hmore : more = [] ∨ ∃ others, more = .mark .question :: others)
    (hrun : ∀ (fuel : Nat) (kind : TokenKind) (ks : List TokenKind),
      16 * (e.afterOperand.length + more.length) + 3 ≤ fuel → Ends place a kind →
      Goes (operators fuel place e.operand) (e.afterOperand ++ (more ++ kind :: ks)) (pure a)
        (kind :: ks)) : ReadsAssignment place a where
  left := by
    intro hnot
    rw [hleft]
    exact h.left (hsigned ▸ hnot)
  tail := by
    intro hnot fuel kind ks hfuel hends
    rw [hafter, List.length_append] at hfuel
    rw [hleft, hafter, List.append_assoc]
    obtain ⟨fuel, rfl⟩ : ∃ more, fuel = more + 1 := ⟨fuel - 1, by omega⟩
    have hnext : ∃ next others, e.afterOperand ++ (more ++ kind :: ks) = next :: others ∧
        AssignOp.ofToken? next = none ∧ StepOp.ofToken? next = none ∧ next.isRegex = false := by
      obtain hnil | ⟨op, others, hcons⟩ := afterOperand_cases e
      · obtain rfl | ⟨others, rfl⟩ := hmore
        · exact ⟨kind, ks, by rw [hnil]; rfl, hends.assignOp,
            (extendsOperand_eq_false.1 hends.extendsOperand).2, hends.regex⟩
        · exact ⟨_, _, by rw [hnil]; rfl, rfl, rfl, rfl⟩
      · refine ⟨op.kind, _, by rw [hcons]; rfl, ?_, ?_, (kind_spec op).2⟩
        all_goals cases op <;> rfl
    obtain ⟨next, others, hothers, hassign, hstep, hregex⟩ := hnext
    rw [assignmentTail]
    obtain ⟨hoperand, hsame⟩ | ⟨op, hoperand, hsame⟩ := operand_cases hformed hrank (hsigned ▸ hnot)
    · have htail := hrun fuel kind ks (by rw [hsame] at hfuel; omega) hends
      rw [hsame, hothers]
      rw [hothers, hoperand] at htail
      refine .peek hregex ?_
      rw [hassign]
      exact (Goes.stepTail_end hstep).andThen htail
    · have htail := hrun fuel kind ks (by rw [hsame, List.length_cons] at hfuel; omega) hends
      rw [hsame, List.cons_append]
      rw [hoperand] at htail
      have hkind : op.kind.isRegex = false ∧ AssignOp.ofToken? op.kind = none := by
        cases op <;> exact ⟨rfl, rfl⟩
      refine .peek hkind.1 ?_
      rw [hkind.2]
      exact (Goes.stepTail op).andThen htail
  signed := by
    intro hyes fuel kind ks hfuel hends
    have hpos := e.operand.one_le_length_kinds
    have hsplit := e.kinds_operand
    rw [hkinds, hsplit, List.length_append, List.length_append] at hfuel
    rw [hkinds, List.append_assoc]
    obtain ⟨fuel, rfl⟩ : ∃ more, fuel = more + 1 := ⟨fuel - 1, by omega⟩
    have hnext : ∃ next others, e.afterOperand ++ (more ++ kind :: ks) = next :: others ∧
        next.extendsOperand = false := by
      obtain hnil | ⟨op, others, hcons⟩ := afterOperand_cases e
      · obtain rfl | ⟨others, rfl⟩ := hmore
        · exact ⟨kind, ks, by rw [hnil]; rfl, hends.extendsOperand⟩
        · exact ⟨_, _, by rw [hnil]; rfl, rfl⟩
      · exact ⟨op.kind, _, by rw [hcons]; rfl, extendsOperand_kind op⟩
    obtain ⟨next, others, hothers, hnext⟩ := hnext
    have htail := hrun fuel kind ks (by omega) hends
    have hrest : Goes (unary fuel >>= operators fuel place) (e.kinds ++ (more ++ kind :: ks))
        (pure a) (kind :: ks) := by
      rw [hsplit, List.append_assoc]
      rw [hothers] at htail ⊢
      exact (h.operand fuel next others (by omega) hnext).andThen htail
    have hunary := Expr.ofToken?_head_of_isSigned (hsigned ▸ hyes)
    obtain ⟨tokens, htokens⟩ := e.kinds_eq_cons
    rw [assignment]
    rw [htokens, List.cons_append] at hrest ⊢
    refine .peek ?_ ?_
    · cases hhead : e.head with
      | regex => rw [hhead] at hunary; cases hunary
      | _ => rfl
    · rw [if_pos hunary]
      exact hrest

theorem ReadsOperators.readsAssignment (h : ReadsOperators place e) (hformed : e.Formed place)
    (hrank : 2 ≤ e.rank) : ReadsAssignment place e := by
  refine .of_operators h hformed hrank (List.append_nil _).symm rfl (List.append_nil _).symm rfl
    (.inl rfl) fun fuel kind ks hfuel hends => ?_
  obtain ⟨fuel, rfl⟩ : ∃ more, fuel = more + 1 := ⟨fuel - 1, by omega⟩
  rw [List.length_nil] at hfuel
  rw [Reader.operators, List.nil_append]
  refine .andThen (h.tail (by omega) ?_ hends.closes hends.extendsOperand hends.regex (by omega)) ?_
  · rw [hends.operator]
    rfl
  · exact .acceptNot hends.question (by rintro ⟨⟩) .refl

/-- The token ends the right part of an assignment, a conditional or a comma. -/
theorem Ends.next {a : Expr} {kind : TokenKind} (h : Ends place e kind)
    (hcloses : e.closes place kind = a.closes place.next kind) : Ends place.next a kind where
  extends_eq := h.extends_eq
  operator := ofToken?_next h.operator
  regex := h.regex
  closes := hcloses ▸ h.closes

theorem readsAssignment_cond {t y n : Expr} (ht : ReadsOperators place t)
    (hformed : t.Formed place) (hrank : 2 ≤ t.rank) (hy : ReadsAssignment place.next y)
    (hn : ReadsAssignment place.next n) : ReadsAssignment place (.cond t y n) := by
  refine .of_operators ht hformed hrank (by rw [Expr.kinds]) rfl (by rw [Expr.afterLeft]) rfl
    (.inr ⟨_, rfl⟩) fun fuel kind ks hfuel hends => ?_
  obtain ⟨fuel, rfl⟩ : ∃ more, fuel = more + 1 := ⟨fuel - 1, by omega⟩
  have hquestion : ∀ place, BinaryOp.ofToken? place (.mark .question) = none := fun _ => rfl
  simp only [List.length_cons, List.length_append] at hfuel
  simp only [Reader.operators, List.cons_append, List.append_assoc]
  refine .andThen (ht.tail (by omega) rfl (closes_of_none hquestion _ _) rfl rfl (by omega)) ?_
  refine .accept rfl (.andThen (hy.read (by omega) (.separator rfl rfl fun _ => rfl)) ?_)
  refine Goes.expectMark.andThen (.andThen (hn.read (by omega) (hends.next rfl)) .refl)

theorem readsAssignment_assign {op : AssignOp} {l r : Expr} (hl : ReadsLeftSide l)
    (hr : ReadsAssignment place.next r) : ReadsAssignment place (.assign op l r) where
  left _ := hl
  tail := by
    intro _ fuel kind ks hfuel hends
    obtain ⟨fuel, rfl⟩ : ∃ more, fuel = more + 1 := ⟨fuel - 1, by omega⟩
    simp only [Expr.afterLeft, Expr.left, List.length_cons, List.cons_append] at hfuel ⊢
    rw [assignmentTail]
    exact .peek rfl (.skip rfl (.andThen (hr.read (by omega) (hends.next rfl)) .refl))
  signed := nofun

/-! ## Commas -/

/-- The readers find the expression in its tokens, comma by comma. -/
structure ReadsWhole (place : Place) (e : Expr) : Prop where
  first : ReadsAssignment place e.first
  commas : ∀ (fuel : Nat) (kind : TokenKind) (ks : List TokenKind),
    16 * e.afterFirst.length ≤ fuel + e.commas → Ends place e kind →
    Goes (commaTail (fuel + e.commas) place e.first) (e.afterFirst ++ kind :: ks)
      (commaTail fuel place e) (kind :: ks)

theorem ReadsAssignment.readsWhole (h : ReadsAssignment place e) (hrank : 1 ≤ e.rank) :
    ReadsWhole place e := by
  have hspine : e.first = e ∧ e.afterFirst = [] ∧ e.commas = 0 := by
    cases e with
    | comma => simp [Expr.rank] at hrank
    | _ => exact ⟨rfl, rfl, rfl⟩
  obtain ⟨hfirst, hafter, hcommas⟩ := hspine
  refine ⟨hfirst.symm ▸ h, fun fuel kind ks _ _ => ?_⟩
  rw [hfirst, hafter, hcommas]
  exact .refl

theorem readsWhole_comma {l r : Expr} (hl : ReadsWhole place l)
    (hr : ReadsAssignment place.next r) : ReadsWhole place (.comma l r) where
  first := hl.first
  commas := by
    intro fuel kind ks hfuel hends
    have hcommas := l.two_mul_commas_le
    simp only [Expr.afterFirst, Expr.commas, Expr.first, List.length_append, List.length_cons,
      List.append_assoc, List.cons_append] at hfuel ⊢
    have hsum : fuel + (l.commas + 1) = fuel + 1 + l.commas := by omega
    rw [hsum]
    refine (hl.commas (fuel + 1) _ _ (by omega) (.separator rfl rfl fun _ => rfl)).trans ?_
    rw [commaTail]
    exact .accept rfl (.andThen (hr.read (by omega) (hends.next rfl)) .refl)

theorem afterFirst_cases (e : Expr) :
    (e.first = e ∧ e.afterFirst = []) ∨ ∃ more, e.afterFirst = .mark .comma :: more := by
  fun_induction Expr.afterFirst e with
  | case1 left right ih =>
    obtain ⟨-, h⟩ | ⟨more, h⟩ := ih
    · exact .inr ⟨_, by rw [h]; rfl⟩
    · exact .inr ⟨_, by rw [h]; rfl⟩
  | case2 e h => exact .inl ⟨by rw [Expr.first]; assumption, rfl⟩

/-- Where the tokens behind the first left-hand side come from. -/
theorem left_first (e : Expr) : e.left = e.first.left ∧
    e.afterLeft = e.first.afterLeft ++ e.afterFirst ∧ e.isSigned = e.first.isSigned := by
  fun_induction Expr.first e with
  | case1 e right ih =>
    obtain ⟨hleft, hafter, hsigned⟩ := ih
    refine ⟨hleft, ?_, hsigned⟩
    rw [Expr.afterLeft, hafter, Expr.afterFirst, List.append_assoc]
  | case2 e h =>
    refine ⟨rfl, ?_, rfl⟩
    rw [Expr.afterFirst, List.append_nil]
    assumption

section
variable {fuel : Nat} {kind : TokenKind} {ks : List TokenKind}

/-- The commas up to a token that ends the expression. -/
theorem ReadsWhole.run_commas (h : ReadsWhole place e) (hfuel : 16 * e.afterFirst.length < fuel)
    (hends : Ends place e kind) (hcomma : kind ≠ .mark .comma) :
    Goes (commaTail fuel place e.first) (e.afterFirst ++ kind :: ks) (pure e) (kind :: ks) := by
  have hcommas := e.two_mul_commas_le
  obtain ⟨fuel, rfl⟩ : ∃ more, fuel = more + 1 + e.commas := ⟨fuel - e.commas - 1, by omega⟩
  refine (h.commas (fuel + 1) kind ks (by omega) hends).trans ?_
  rw [commaTail]
  exact .acceptNot hcomma (by rintro ⟨⟩) .refl

/-- What follows the first of several expressions ends it. -/
theorem ends_first (hends : Ends place e kind) (ks : List TokenKind) :
    ∃ next more, e.afterFirst ++ kind :: ks = next :: more ∧ Ends place e.first next := by
  obtain ⟨hfirst, hnil⟩ | ⟨more, hcons⟩ := afterFirst_cases e
  · exact ⟨kind, ks, by rw [hnil]; rfl, hfirst.symm ▸ hends⟩
  · exact ⟨_, _, by rw [hcons]; rfl, .separator rfl rfl fun _ => rfl⟩

theorem ReadsWhole.read (h : ReadsWhole place e) (hfuel : 16 * e.kinds.length ≤ fuel + 3)
    (hends : Ends place e kind) (hcomma : kind ≠ .mark .comma) :
    Goes (expr fuel place) (e.kinds ++ kind :: ks) (pure e) (kind :: ks) := by
  have hpos := e.first.one_le_length_kinds
  have hkinds := e.kinds_first
  rw [hkinds, List.length_append] at hfuel
  obtain ⟨fuel, rfl⟩ : ∃ more, fuel = more + 1 := ⟨fuel - 1, by omega⟩
  have hrest : Goes (commaTail fuel place e.first) (e.afterFirst ++ kind :: ks) (pure e)
      (kind :: ks) := h.run_commas (by omega) hends hcomma
  obtain ⟨next, more, hmore, hnext⟩ := ends_first hends ks
  rw [expr, hkinds, List.append_assoc]
  rw [hmore] at hrest ⊢
  exact .andThen (h.first.read (by omega) hnext) hrest

/-- The rest of an expression behind its first left-hand side. -/
theorem ReadsWhole.read_tail (h : ReadsWhole place e) (hsigned : e.isSigned = false)
    (hfuel : 16 * e.afterLeft.length + 4 ≤ fuel) (hends : Ends place e kind)
    (hcomma : kind ≠ .mark .comma) :
    Goes (assignmentTail fuel place e.left >>= commaTail fuel place)
      (e.afterLeft ++ kind :: ks) (pure e) (kind :: ks) := by
  obtain ⟨hleft, hafter, hfirst⟩ := left_first e
  rw [hafter, List.length_append] at hfuel
  have hrest : Goes (commaTail fuel place e.first) (e.afterFirst ++ kind :: ks) (pure e)
      (kind :: ks) := h.run_commas (by omega) hends hcomma
  obtain ⟨next, more, hmore, hnext⟩ := ends_first hends ks
  rw [hleft, hafter, List.append_assoc]
  rw [hmore] at hrest ⊢
  exact .andThen (h.first.tail (hfirst ▸ hsigned) _ _ _ (by omega) hnext) hrest

end

end

end Reader

end Espalier.Script
