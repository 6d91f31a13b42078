import Espalier.Proofs.Script.Scanned
import Espalier.Proofs.Script.Spine

/-!
# What the readers find is of the grammar

`Accepts` says of every reader what it finds: a tree of the grammar, with a rank and an end that its
place calls for. Behind an expression stands a token that goes on with no operator in it, and behind
a statement that would take an `else` stands none. Main statement: `formedAll_of_parse`, by which
every program that a text stands for is of the grammar.
-/

namespace Espalier.Script

namespace Reader

/-! ## What a reader finds -/

/-- If the tokens are those of some text, then what the reader finds in them and leaves of them has
the property, and what it leaves are tokens of some text. -/
def Finds {α : Type} (ts : List Token) (r : Reader α) (P : α → List Token → Prop) : Prop :=
  Scanned ts → ∀ a left, r.run ts = some (a, left) → Scanned left ∧ P a left

section
variable {α β : Type} {ts : List Token} {r : Reader α} {f : α → Reader β} {g : Unit → Reader β}
  {P : α → List Token → Prop} {Q : β → List Token → Prop} {kind : TokenKind}

theorem Finds.bind (hr : Finds ts r P) (hf : ∀ a left, P a left → Finds left (f a) Q) :
    Finds ts (r >>= f) Q := by
  intro hts b last hrun
  rw [StateT.run_bind] at hrun
  obtain ⟨⟨a, left⟩, hfirst, hrest⟩ := Option.bind_eq_some_iff.1 hrun
  obtain ⟨hleft, ha⟩ := hr hts a left hfirst
  exact hf a left ha hleft b last hrest

theorem Finds.pure {a : α} (h : P a ts) : Finds ts (pure a) P := by
  rintro hts b left ⟨⟩
  exact ⟨hts, h⟩

theorem Finds.failure : Finds ts (failure : Reader α) P :=
  fun _ => nofun

theorem Finds.failure_bind : Finds ts ((Alternative.failure : Reader α) >>= f) Q :=
  fun _ => nofun

/-- What is known of tokens of some text may be used. -/
theorem Finds.intro (h : Scanned ts → Finds ts r P) : Finds ts r P :=
  fun hts => h hts hts

theorem Finds.mono {P' : α → List Token → Prop} (h : Finds ts r P)
    (hP : ∀ a left, P a left → P' a left) : Finds ts r P' :=
  fun hts a left hrun => (h hts a left hrun).imp_right (hP a left)

theorem Finds.peek {g : TokenKind → Reader β} (h : Finds ts (g (nextKind ts)) Q) :
    Finds ts (peek >>= g) Q := by
  intro hts b left hrun
  rw [StateT.run_bind, run_peek_eq] at hrun
  exact h hts b left hrun

theorem Finds.peekSecond {g : TokenKind → Reader β} (h : Finds ts (g (nextKind ts.tail)) Q) :
    Finds ts (peekSecond >>= g) Q := by
  have hpeek : Reader.peekSecond.run ts = some (nextKind ts.tail, ts) := by
    match ts with
    | [] | [_] | _ :: _ :: _ => rfl
  intro hts b left hrun
  rw [StateT.run_bind, hpeek] at hrun
  exact h hts b left hrun

theorem Finds.get {g : List Token → Reader β} (h : Finds ts (g ts) Q) : Finds ts (get >>= g) Q :=
  fun hts b left hrun => h hts b left hrun

theorem Finds.set {more : List Token} (hmore : Scanned more) (h : Finds more (g ()) Q) :
    Finds ts (set more >>= g) Q :=
  fun _ b left hrun => h hmore b left hrun

theorem Finds.skip (h : Finds ts.tail (g ()) Q) : Finds ts (skip >>= g) Q :=
  fun hts b left hrun => h hts.tail b left hrun

theorem Finds.expect (h : nextKind ts = kind → Finds ts.tail (g ()) Q) :
    Finds ts (expect kind >>= g) Q := by
  refine Finds.bind (P := fun _ left => nextKind ts = kind ∧ left = ts.tail) (.peek ?_) ?_
  · split
    case isTrue hkind =>
      rintro hts _ left ⟨⟩
      exact ⟨hts.tail, hkind, rfl⟩
    case isFalse => exact .failure
  · rintro _ left ⟨hkind, rfl⟩
    exact h hkind

theorem Finds.expectMark {m : Mark} (h : nextKind ts = .mark m → Finds ts.tail (g ()) Q) :
    Finds ts (expectMark m >>= g) Q :=
  .expect h

/-- A token is passed if it is this one. -/
theorem Finds.accept {yes no : Reader β} (hyes : nextKind ts = kind → Finds ts.tail yes Q)
    (hno : nextKind ts ≠ kind → Finds ts no Q) :
    Finds ts (accept kind >>= fun found => if found = true then yes else no) Q := by
  refine Finds.bind (P := fun found left =>
    found = true ∧ nextKind ts = kind ∧ left = ts.tail ∨
    found = false ∧ nextKind ts ≠ kind ∧ left = ts) (.peek ?_) ?_
  · split
    case isTrue hkind => exact .skip (.pure (.inl ⟨rfl, hkind, rfl⟩))
    case isFalse hkind => exact .pure (.inr ⟨rfl, hkind, rfl⟩)
  · rintro _ left (⟨rfl, hkind, rfl⟩ | ⟨rfl, hkind, rfl⟩)
    · exact hyes hkind
    · exact hno hkind

/-! ## Names and ends of statements -/

theorem Finds.identifier {g : String → Reader β}
    (h : ∀ id, nextKind ts = .name id → IsName id → Finds ts.tail (g id) Q) :
    Finds ts (identifier >>= g) Q := by
  refine .intro fun hts => .bind (P := fun id left =>
    nextKind ts = .name id ∧ IsName id ∧ left = ts.tail) (.peek ?_) ?_
  · split
    case h_1 id hkind => exact .skip (.pure ⟨hkind, hts.genuine hkind rfl, rfl⟩)
    case h_2 => exact .failure
  · rintro id _ ⟨hkind, hid, rfl⟩
    exact h id hkind hid

theorem Finds.fieldName {g : String → Reader β}
    (h : ∀ field, (wordToken field).Genuine → Finds ts.tail (g field) Q) :
    Finds ts (fieldName >>= g) Q := by
  refine .intro fun hts => .bind (P := fun field left =>
    (wordToken field).Genuine ∧ left = ts.tail) (.peek ?_) ?_
  · split
    case h_1 id hkind =>
      have hname := hts.genuine hkind rfl
      have htoken : wordToken id = .name id := (hname.sound.isWord rfl).2
      exact .skip (.pure ⟨htoken ▸ hname, rfl⟩)
    case h_2 word hkind =>
      have hword := hts.genuine hkind rfl
      have htoken : wordToken word.text = .keyword word := (hword.sound.isWord rfl).2
      exact .skip (.pure ⟨htoken ▸ hword, rfl⟩)
    case h_3 => exact .failure
  · rintro field _ ⟨hfield, rfl⟩
    exact h field hfield

theorem Finds.propertyKey {g : Key → Reader β}
    (h : ∀ key, key.kind.Genuine → ((nextKind ts).isLiteral = false → key.isWord = true) →
      Finds ts.tail (g key) Q) :
    Finds ts (propertyKey >>= g) Q := by
  refine .intro fun hts => .bind (P := fun key left =>
    (key.kind.Genuine ∧ ((nextKind ts).isLiteral = false → key.isWord = true)) ∧ left = ts.tail)
    (.peek ?_) ?_
  · split
    case h_1 text hkind =>
      refine .skip (.pure ⟨⟨hts.genuine hkind rfl, fun hliteral => ?_⟩, rfl⟩)
      cases (congrArg TokenKind.isLiteral hkind).symm.trans hliteral
    case h_2 text hkind =>
      refine .skip (.pure ⟨⟨hts.genuine hkind rfl, fun hliteral => ?_⟩, rfl⟩)
      cases (congrArg TokenKind.isLiteral hkind).symm.trans hliteral
    case h_3 => exact .fieldName fun field hfield => .pure ⟨⟨hfield, fun _ => rfl⟩, rfl⟩
  · rintro key _ ⟨⟨hkey, hword⟩, rfl⟩
    exact h key hkey hword

theorem Finds.endStatement (h : ∀ left, Finds left (g ()) Q) :
    Finds ts (endStatement >>= g) Q := by
  refine .bind (P := fun _ _ => True) (.get ?_) fun _ left _ => h left
  split
  case h_2 => exact .pure trivial
  case h_1 t rest =>
    have hset : Finds (t :: rest) (MonadStateOf.set rest : Reader Unit) fun _ _ => True := by
      rintro hts _ left ⟨⟩
      exact ⟨hts.tail, trivial⟩
    split
    case h_1 | h_2 => exact hset
    case h_3 | h_4 => exact .pure trivial
    case h_5 =>
      split
      · exact .pure trivial
      · exact .failure

theorem finds_optionalLabel : Finds ts optionalLabel fun label _ => ∀ id ∈ label, IsName id := by
  have hend : ∀ {ts : List Token} {label : Option String}, (∀ id ∈ label, IsName id) →
      Finds ts (Reader.endStatement >>= fun _ => pure label)
        fun label _ => ∀ id ∈ label, IsName id :=
    fun hlabel => .endStatement fun _ => .pure hlabel
  refine .intro fun hts => .peek ?_
  simp only [pure_bind]
  split
  case h_1 id hkind =>
    refine .skip (hend ?_)
    rintro _ ⟨⟩
    exact hts.genuine hkind rfl
  case h_2 => exact hend nofun

theorem finds_commas (fuel : Nat) :
    ∀ {ts : List Token}, Finds ts (commas fuel) fun _ _ => True := by
  induction fuel with
  | zero => exact .failure
  | succ fuel ih =>
    exact .accept (fun _ => ih.bind fun _ _ _ => .pure trivial) fun _ => .pure trivial

theorem finds_moreNames (fuel : Nat) :
    ∀ {ts : List Token}, Finds ts (moreNames fuel) fun ids _ => ∀ id ∈ ids, IsName id := by
  induction fuel with
  | zero => exact .failure
  | succ fuel ih =>
    refine .accept (fun _ => .identifier fun id _ hid => ih.bind fun ids _ hids => .pure ?_)
      fun _ => .pure (List.forall_mem_nil _)
    exact List.forall_mem_cons.2 ⟨hid, hids⟩

theorem finds_params (fuel : Nat) : Finds ts (params fuel) fun ids _ => ∀ id ∈ ids, IsName id := by
  refine .expectMark fun _ => .accept (fun _ => .pure (List.forall_mem_nil _)) fun _ => ?_
  refine .identifier fun id _ hid => (finds_moreNames fuel).bind fun ids _ hids => ?_
  exact .expectMark fun _ => .pure (List.forall_mem_cons.2 ⟨hid, hids⟩)

end

end Reader

/-! ## Operands and their places -/

section
variable {place : Place} {kind : TokenKind} {op : BinaryOp} {e : Expr}

theorem isPart_of_ofToken? (h : BinaryOp.ofToken? place kind = some op) : kind.isPart = true := by
  unfold BinaryOp.ofToken? at h
  split at h
  case h_4 => cases h
  all_goals rfl

/-- A token of some text that is an operator at a place is the operator's own, and the place allows
it. -/
theorem kind_of_ofToken? (hkind : kind.Genuine) (h : BinaryOp.ofToken? place kind = some op) :
    kind = op.kind ∧ (op = .isIn → place ≠ .loopHead) := by
  have hsound := hkind.sound
  unfold BinaryOp.ofToken? at h
  split at h
  case h_1 =>
    cases h
    cases op with
    | isIn | isInstance => exact absurd hsound (by decide : ¬_ ∈ Mark.all)
    | _ => exact ⟨rfl, nofun⟩
  case h_2 =>
    cases h
    exact ⟨rfl, nofun⟩
  case h_3 =>
    split at h
    case isTrue => cases h
    case isFalse hplace =>
      cases h
      exact ⟨rfl, fun _ => hplace⟩
  case h_4 => cases h

/-- The right operand's place has the operators of the place. -/
theorem ofToken?_right {found : BinaryOp} (h : BinaryOp.ofToken? place kind = some found) :
    BinaryOp.ofToken? (place.right op) kind = some found := by
  unfold Place.right
  split
  case isFalse => exact h
  case isTrue hright =>
    obtain ⟨rfl, -⟩ := hright
    unfold BinaryOp.ofToken? at h ⊢
    split at h
    case h_1 | h_2 => exact h
    case h_3 => cases h
    case h_4 => cases h

theorem BinaryOp.level_le (op : BinaryOp) : 1 ≤ op.level ∧ op.level ≤ 10 := by
  cases op <;> decide

/-- An operand without operators stands anywhere. -/
theorem Expr.Formed.anywhere (h : e.Formed place) (hrank : 12 ≤ e.rank) (place' : Place) :
    e.Formed place' := by
  cases e with
  | binary op =>
    have hlevel := op.level_le
    rw [Expr.rank] at hrank
    omega
  | assign | cond | comma => simp [Expr.rank] at hrank
  | _ => exact h

theorem Expr.closes_of_rank (hrank : 12 ≤ e.rank) : e.closes place kind = true := by
  cases e with
  | binary op =>
    have hlevel := op.level_le
    rw [Expr.rank] at hrank
    omega
  | assign | cond | comma => simp [Expr.rank] at hrank
  | _ => rfl

/-- Where nothing but a function begins, the token behind it does not matter. -/
theorem Expr.leads_congr (h : e.isFunction = false) (continued continued' : Bool) :
    e.leads continued = e.leads continued' := by
  cases e with
  | func => cases h
  | _ => rfl

end

namespace Reader

/-! ## Beginnings -/

/-- A statement may begin with an expression that begins with the tokens. -/
def BeginsExpr (ts : List Token) : Prop :=
  nextKind ts ≠ .mark .lbrace ∧
    (nextKind ts = .keyword .function → ∀ id, nextKind ts.tail ≠ .name id)

/-- The expression begins where the tokens do: with a brace only where they do so, and like a
statement of another kind only where they do so. -/
structure Found (ts : List Token) (e : Expr) (left : List Token) : Prop where
  head : e.head = .mark .lbrace → nextKind ts = .mark .lbrace
  leads : BeginsExpr ts → e.leads (nextKind left).continuesFunction = true

/-- The expression begins with the one that was found before the tokens. If it is a function,
nothing was added. -/
structure Grown (ts : List Token) (first e : Expr) (left : List Token) : Prop where
  head : e.head = first.head
  leads : first.leads (nextKind ts).continuesFunction = true →
    e.leads (nextKind left).continuesFunction = true
  kept : e.isFunction = true → e = first ∧ left = ts

section
variable {ts between left : List Token} {first e e' : Expr}

theorem Grown.refl : Grown ts e e ts :=
  ⟨rfl, id, fun _ => ⟨rfl, rfl⟩⟩

theorem Grown.trans (h : Grown ts first e between) (h' : Grown between e e' left) :
    Grown ts first e' left where
  head := h'.head.trans h.head
  leads hfirst := h'.leads (h.leads hfirst)
  kept hfunction := by
    obtain ⟨rfl, rfl⟩ := h'.kept hfunction
    exact h.kept hfunction

theorem Found.grow (h : Found ts first between) (h' : Grown between first e left) :
    Found ts e left :=
  ⟨fun hhead => h.head (h'.head.symm.trans hhead), fun hts => h'.leads (h.leads hts)⟩

/-- A longer expression leads a statement like its first part before the token that goes on. -/
theorem Grown.of_leads (hhead : e.head = first.head) (hfunction : e.isFunction = false)
    (hleads : e.leads false = first.leads (nextKind ts).continuesFunction) :
    Grown ts first e left where
  head := hhead
  leads hfirst := by rw [Expr.leads_congr hfunction _ false, hleads, hfirst]
  kept hfun := by rw [hfunction] at hfun; cases hfun

/-- An expression that begins with neither a brace nor a named function. -/
theorem Found.of_leads (hhead : (e.head == .mark .lbrace) = false)
    (hleads : ∀ continued, e.leads continued = true) : Found ts e left :=
  ⟨fun h => absurd h (beq_eq_false_iff_ne.1 hhead), fun _ => hleads _⟩

end

/-! ## One level of reading -/

/-- No field, argument or index goes on with a construction without arguments. -/
def Settled (e : Expr) (left : List Token) : Prop :=
  15 ≤ e.rank ∨ e.rank = 13 ∧ (nextKind left).extendsLeft = false

/-- The token does not go on with an operand at the place. -/
def Stops (place : Place) (kind : TokenKind) : Prop :=
  BinaryOp.ofToken? place kind = none ∧ kind ≠ .mark .question

/-- The expression stands at the place, between commas, and ends where the token stands. -/
structure Part (place : Place) (kind : TokenKind) (e : Expr) : Prop where
  formed : e.Formed place
  rank : 1 ≤ e.rank
  closes : e.closes place kind = true

/-- The expression stands at the place, holds outside its parentheses only operators that bind more
tightly than the level, and ends where the token stands. -/
structure Operand (place : Place) (level : Nat) (kind : TokenKind) (e : Expr) : Prop where
  formed : e.Formed place
  rank : level + 1 < e.rank
  closes : e.closes place kind = true

/-- The statement is of the grammar, and no `else` stands behind it that it would take. -/
structure Complete (s : Stmt) (left : List Token) : Prop where
  formed : s.Formed
  takesElse : s.takesElse = true → nextKind left ≠ .keyword .else

theorem Complete.plain {s : Stmt} {left : List Token} (h : s.Formed)
    (hplain : s.takesElse = false) : Complete s left :=
  ⟨h, fun htakes => absurd (hplain.symm.trans htakes) Bool.false_ne_true⟩

/-- The declaration is of the grammar, and a single variable in a loop head ends before `in`. -/
structure Declared (place : Place) (bs : List Binding) (left : List Token) : Prop where
  nonempty : bs ≠ []
  formed : FormedBindings place bs
  endsBeforeIn : ∀ b, bs = [b] → place = .loopHead → nextKind left = .keyword .in →
    b.endsBeforeIn = true

/-- With this bound on the depth of calls, readers find trees of the grammar. -/
structure Accepts (fuel : Nat) : Prop where
  expr : ∀ (place : Place) (ts : List Token),
    Finds ts (expr fuel place) fun e left => e.Formed place ∧ Found ts e left
  commaTail : ∀ {place : Place} (ts : List Token) {first : Expr}, first.Formed place →
    Finds ts (commaTail fuel place first) fun e left =>
      e.Formed place ∧ Grown ts first e left ∧ nextKind left ≠ .mark .comma
  assignment : ∀ (place : Place) (ts : List Token),
    Finds ts (assignment fuel place) fun e left => Part place (nextKind left) e ∧ Found ts e left
  assignmentTail : ∀ (place : Place) (ts : List Token) {first : Expr}, first.Formed .free →
    13 ≤ first.rank → Finds ts (assignmentTail fuel place first) fun e left =>
      Part place (nextKind left) e ∧ Grown ts first e left ∧ (e.isFunction = true →
        AssignOp.ofToken? (nextKind left) = none ∧ Stops place (nextKind left))
  operators : ∀ (place : Place) (ts : List Token) {first : Expr}, first.Formed .free →
    12 ≤ first.rank → Finds ts (operators fuel place first) fun e left =>
      Part place (nextKind left) e ∧ Grown ts first e left ∧
        (2 ≤ e.rank → Stops place (nextKind left))
  binaryTail : ∀ {place : Place} {level : Nat} (ts : List Token) {first : Expr},
    Operand place level (nextKind ts) first →
    (∀ op, BinaryOp.ofToken? place (nextKind ts) = some op → op.level < first.rank) →
    Finds ts (binaryTail fuel place level first) fun e left =>
      Operand place level (nextKind left) e ∧ Grown ts first e left ∧
        ∀ op, BinaryOp.ofToken? place (nextKind left) = some op → op.level ≤ level
  unary : ∀ ts : List Token, Finds ts (unary fuel) fun e left =>
    e.Formed .free ∧ 12 ≤ e.rank ∧ Found ts e left
  leftHandSide : ∀ ts : List Token, Finds ts (leftHandSide fuel) fun e left =>
    e.Formed .free ∧ 13 ≤ e.rank ∧ Found ts e left
  callTail : ∀ (ts : List Token) {first : Expr}, first.Formed .free →
    14 ≤ first.rank ∨ Settled first ts → Finds ts (callTail fuel first) fun e left =>
      e.Formed .free ∧ 13 ≤ e.rank ∧ Grown ts first e left ∧ (nextKind left).extendsLeft = false
  memberTail : ∀ (ts : List Token) {first : Expr}, first.Formed .free → Settled first ts →
    Finds ts (memberTail fuel first) fun e left => e.Formed .free ∧ Settled e left ∧
      (nextKind left = .mark .lparen ∨ (nextKind left).extendsLeft = false)
  construction : ∀ ts : List Token, Finds ts (construction fuel) fun e left =>
    e.Formed .free ∧ Settled e left ∧ Found ts e left
  arguments : ∀ ts : List Token, Finds ts (arguments fuel) fun args _ => FormedArgs args
  moreArguments : ∀ ts : List Token, Finds ts (moreArguments fuel) fun args _ => FormedArgs args
  primary : ∀ ts : List Token, Finds ts (primary fuel) fun e left =>
    e.Formed .free ∧ 15 ≤ e.rank ∧ Found ts e left
  arrayItems : ∀ ts : List Token, Finds ts (arrayItems fuel) fun items _ => FormedItems items
  objectProperties : ∀ ts : List Token, Finds ts (objectProperties fuel) fun properties _ =>
    FormedProperties properties
  property : ∀ ts : List Token, Finds ts (property fuel) fun p _ => p.Formed
  braced : ∀ ts : List Token, Finds ts (braced fuel) fun body _ => FormedAll body
  statements : ∀ ts : List Token, Finds ts (statements fuel) fun ss _ => FormedAll ss
  statement : ∀ ts : List Token, Finds ts (statement fuel) Complete
  expressionStatement : ∀ ts : List Token, BeginsExpr ts →
    Finds ts (expressionStatement fuel) Complete
  functionStatement : ∀ ts : List Token, nextKind ts = .keyword .function →
    Finds ts (functionStatement fuel) Complete
  parenthesized : ∀ ts : List Token, Finds ts (parenthesized fuel) fun e _ => e.Formed .free
  bindings : ∀ (place : Place) (ts : List Token), Finds ts (bindings fuel place) (Declared place)
  ifTail : ∀ ts : List Token, Finds ts (ifTail fuel) Complete
  forTail : ∀ ts : List Token, Finds ts (forTail fuel) Complete
  loopInTail : ∀ ts : List Token, Finds ts (loopInTail fuel)
    fun (collection, body) left => collection.Formed .free ∧ Complete body left
  loopTail : ∀ (ts : List Token) {start : LoopStart}, start.Formed →
    Finds ts (loopTail fuel start) Complete
  clauses : ∀ ts : List Token, Finds ts (clauses fuel) fun clauses _ => FormedClauses clauses
  tryTail : ∀ ts : List Token, Finds ts (tryTail fuel) Complete

/-- A named function is a statement before a token that goes on with no field, no operator, no
assignment, no conditional and no comma. -/
theorem continuesFunction_eq_false {kind : TokenKind} (hextends : kind.extendsLeft = false)
    (hassign : AssignOp.ofToken? kind = none) (hstops : Stops .statement kind)
    (hcomma : kind ≠ .mark .comma) : kind.continuesFunction = false := by
  unfold TokenKind.continuesFunction
  split
  case h_1 => cases hextends
  case h_2 => exact absurd rfl hcomma
  case h_3 => exact absurd rfl hstops.2
  case h_4 => cases hassign
  case h_5 | h_6 => rfl
  case h_7 =>
    have hfree : BinaryOp.ofToken? .free kind = none := hstops.1
    rw [hfree]
    rfl

theorem accepts_zero : Accepts 0 := by
  constructor
  all_goals
    intros
    exact Finds.failure

section
variable {ts : List Token} {first : Expr}

theorem finds_stepTail (hformed : first.Formed .free) (hrank : 13 ≤ first.rank) :
    Finds ts (stepTail first) fun e left =>
      e.Formed .free ∧ 12 ≤ e.rank ∧ Grown ts first e left ∧ (e.isFunction = true → left = ts) := by
  refine .peek ?_
  split
  case h_1 op hop =>
    have hnext : (nextKind ts).continuesFunction = false := by
      unfold StepOp.ofToken? at hop
      split at hop
      case h_3 => cases hop
      all_goals rw [‹nextKind ts = _›]; rfl
    refine .skip (.pure ⟨⟨hformed, hrank⟩, Nat.le_refl _, .of_leads rfl rfl ?_,
      fun hfunction => absurd hfunction Bool.false_ne_true⟩)
    rw [hnext]
    rfl
  case h_2 => exact .pure ⟨hformed, Nat.le_of_succ_le hrank, .refl, fun _ => rfl⟩

end

section
variable {fuel : Nat} {place : Place} {ts : List Token} {first : Expr} (h : Accepts fuel)
include h

/-! ### Expressions -/

theorem Accepts.expr_succ : Finds ts (Reader.expr (fuel + 1) place) fun e left =>
    e.Formed place ∧ Found ts e left := by
  rw [Reader.expr]
  refine (h.assignment place ts).bind fun e left he => ?_
  exact (h.commaTail left he.1.formed).mono fun _ _ hmore => ⟨hmore.1, he.2.grow hmore.2.1⟩

theorem Accepts.commaTail_succ (hfirst : first.Formed place) :
    Finds ts (Reader.commaTail (fuel + 1) place first) fun e left =>
      e.Formed place ∧ Grown ts first e left ∧ nextKind left ≠ .mark .comma := by
  rw [Reader.commaTail]
  refine .accept (fun hcomma => ?_) fun hcomma => .pure ⟨hfirst, .refl, hcomma⟩
  refine (h.assignment place.next ts.tail).bind fun right left hright => ?_
  have hgrown : Grown ts first (.comma first right) left :=
    .of_leads rfl rfl (by rw [hcomma]; rfl)
  have hformed : (Expr.comma first right).Formed place :=
    ⟨hfirst, hright.1.formed, hright.1.rank⟩
  refine (h.commaTail left hformed).mono fun _ _ hmore => ?_
  exact ⟨hmore.1, hgrown.trans hmore.2.1, hmore.2.2⟩

theorem Accepts.assignment_succ : Finds ts (Reader.assignment (fuel + 1) place) fun e left =>
    Part place (nextKind left) e ∧ Found ts e left := by
  rw [Reader.assignment]
  refine .peek ?_
  split
  · refine (h.unary ts).bind fun first left hfirst => ?_
    exact (h.operators place left hfirst.1 hfirst.2.1).mono fun _ _ hmore =>
      ⟨hmore.1, hfirst.2.2.grow hmore.2.1⟩
  · refine (h.leftHandSide ts).bind fun first left hfirst => ?_
    exact (h.assignmentTail place left hfirst.1 hfirst.2.1).mono fun _ _ hmore =>
      ⟨hmore.1, hfirst.2.2.grow hmore.2.1⟩

theorem Accepts.assignmentTail_succ (hfirst : first.Formed .free) (hrank : 13 ≤ first.rank) :
    Finds ts (Reader.assignmentTail (fuel + 1) place first) fun e left =>
      Part place (nextKind left) e ∧ Grown ts first e left ∧ (e.isFunction = true →
        AssignOp.ofToken? (nextKind left) = none ∧ Stops place (nextKind left)) := by
  rw [Reader.assignmentTail]
  refine .peek ?_
  split
  case h_1 op hop =>
    have hnext : (nextKind ts).continuesFunction = true := by
      unfold AssignOp.ofToken? at hop
      split at hop
      case h_1 hkind => rw [hkind]; rfl
      case h_2 => cases hop
    refine .skip ((h.assignment place.next ts.tail).bind fun right left hright => .pure ?_)
    have hpart := hright.1
    exact ⟨⟨⟨hfirst, hrank, hpart.formed, hpart.rank⟩, Nat.le_refl _, hpart.closes⟩,
      .of_leads rfl rfl (by rw [hnext]; rfl),
      fun hfunction => absurd hfunction Bool.false_ne_true⟩
  case h_2 hop =>
    refine (finds_stepTail hfirst hrank).bind fun operand left hoperand => ?_
    obtain ⟨hoperand, hrank, hgrown, hkept⟩ := hoperand
    refine (h.operators place left hoperand hrank).mono fun e left' he => ?_
    obtain ⟨hpart, hgrown', hstops⟩ := he
    refine ⟨hpart, hgrown.trans hgrown', fun hfunction => ?_⟩
    obtain ⟨-, rfl⟩ := (hgrown.trans hgrown').kept hfunction
    refine ⟨hop, hstops ?_⟩
    cases e with
    | func => exact Nat.le_of_ble_eq_true rfl
    | _ => cases hfunction

theorem Accepts.operators_succ (hfirst : first.Formed .free) (hrank : 12 ≤ first.rank) :
    Finds ts (Reader.operators (fuel + 1) place first) fun e left =>
      Part place (nextKind left) e ∧ Grown ts first e left ∧
        (2 ≤ e.rank → Stops place (nextKind left)) := by
  rw [Reader.operators]
  have hoperand : Operand place 0 (nextKind ts) first :=
    ⟨hfirst.anywhere hrank place, by omega, Expr.closes_of_rank hrank⟩
  have hlevel : ∀ op, BinaryOp.ofToken? place (nextKind ts) = some op → op.level < first.rank :=
    fun op _ => by have := op.level_le; omega
  refine (h.binaryTail ts hoperand hlevel).bind fun e left he => ?_
  obtain ⟨he, hgrown, hnext⟩ := he
  refine .accept (fun hquestion => ?_) fun hquestion => .pure ?_
  · refine (h.assignment place.next _).bind fun yes _ hyes => .expectMark fun _ => ?_
    refine (h.assignment place.next _).bind fun no last hno => .pure ?_
    have hcond : Grown left e (.cond e yes no) last :=
      .of_leads rfl rfl (by rw [hquestion]; rfl)
    exact ⟨⟨⟨he.formed, he.rank, hyes.1.formed, hyes.1.rank, hno.1.formed, hno.1.rank⟩,
      Nat.le_refl _, hno.1.closes⟩, hgrown.trans hcond,
      fun hrank => absurd hrank (Nat.not_succ_le_self 1)⟩
  · have hnone : BinaryOp.ofToken? place (nextKind left) = none := by
      refine Option.eq_none_iff_forall_ne_some.2 fun op hop => ?_
      have hlow := hnext op hop
      have hpositive := op.level_le
      omega
    exact ⟨⟨he.formed, Nat.le_of_succ_le he.rank, he.closes⟩, hgrown, fun _ => ⟨hnone, hquestion⟩⟩

theorem Accepts.binaryTail_succ {level : Nat} (hfirst : Operand place level (nextKind ts) first)
    (hnext : ∀ op, BinaryOp.ofToken? place (nextKind ts) = some op → op.level < first.rank) :
    Finds ts (Reader.binaryTail (fuel + 1) place level first) fun e left =>
      Operand place level (nextKind left) e ∧ Grown ts first e left ∧
        ∀ op, BinaryOp.ofToken? place (nextKind left) = some op → op.level ≤ level := by
  rw [Reader.binaryTail]
  refine .intro fun hts => .peek ?_
  split
  case h_1 op hop =>
    split
    case isTrue hlevel =>
      obtain ⟨hkind, hplace⟩ := kind_of_ofToken? (hts.genuine rfl (isPart_of_ofToken? hop)) hop
      refine .skip (.peek ?_)
      dsimp only
      split
      case isTrue => exact .failure_bind
      case isFalse hbrace =>
        refine (h.unary ts.tail).bind fun operand left hoperand => ?_
        obtain ⟨hoperand, hrank, hfound⟩ := hoperand
        have hlow := op.level_le
        have hright : Operand (place.right op) op.level (nextKind left) operand :=
          ⟨hoperand.anywhere hrank _, by omega, Expr.closes_of_rank hrank⟩
        refine (h.binaryTail left hright fun found _ => ?_).bind fun right left hright => ?_
        · have hfound := found.level_le
          omega
        obtain ⟨hright, hgrown, hbound⟩ := hright
        have hstart : right.head = .mark .lbrace → place.allowsBrace op = true := by
          intro hhead
          by_contra hallows
          refine hbrace ⟨hfound.head (hgrown.head.symm.trans hhead), ?_⟩
          simpa using hallows
        have hyields : op.yields (place.right op) (nextKind left) = true := by
          rw [BinaryOp.yields]
          cases hfound : BinaryOp.ofToken? (place.right op) (nextKind left) with
          | none => rfl
          | some found =>
            have hle := hbound found hfound
            rwa [Option.all_some, decide_eq_true_eq]
        have hbinary : Operand place level (nextKind left) (.binary op first right) :=
          ⟨⟨hfirst.formed, hnext op hop, hright.formed, hright.rank, hplace, hstart⟩,
            Nat.succ_lt_succ hlevel, by rw [Expr.closes, hyields, hright.closes]; rfl⟩
        have hgrowth : Grown ts first (.binary op first right) left :=
          .of_leads rfl rfl (by rw [hkind]; rfl)
        refine (h.binaryTail left hbinary fun found hfound => ?_).mono
          fun e left' he => ⟨he.1, hgrowth.trans he.2.1, he.2.2⟩
        exact Nat.lt_succ_of_le (hbound found (ofToken?_right hfound))
    case isFalse hlevel =>
      refine .pure ⟨hfirst, .refl, fun found hfound => ?_⟩
      obtain rfl : op = found := Option.some.inj (hop.symm.trans hfound)
      exact Nat.not_lt.1 hlevel
  case h_2 hop =>
    refine .pure ⟨hfirst, .refl, fun found hfound => ?_⟩
    cases hop.symm.trans hfound

theorem Accepts.unary_succ : Finds ts (Reader.unary (fuel + 1)) fun e left =>
    e.Formed .free ∧ 12 ≤ e.rank ∧ Found ts e left := by
  rw [Reader.unary]
  refine .peek ?_
  split
  case h_1 op _ =>
    refine .skip ((h.unary ts.tail).bind fun operand left hoperand => .pure ?_)
    have hhead : ((Expr.unary op operand).head == .mark .lbrace) = false := by cases op <;> rfl
    exact ⟨⟨hoperand.1, hoperand.2.1⟩, Nat.le_refl _, .of_leads hhead fun _ => rfl⟩
  case h_2 =>
    refine (h.leftHandSide ts).bind fun first left hfirst => ?_
    obtain ⟨hfirst, hrank, hfound⟩ := hfirst
    exact (finds_stepTail hfirst hrank).mono fun _ _ he =>
      ⟨he.1, he.2.1, hfound.grow he.2.2.1⟩

theorem Accepts.leftHandSide_succ : Finds ts (Reader.leftHandSide (fuel + 1)) fun e left =>
    e.Formed .free ∧ 13 ≤ e.rank ∧ Found ts e left := by
  rw [Reader.leftHandSide]
  refine (h.construction ts).bind fun base left hbase => ?_
  obtain ⟨hbase, hsettled, hfound⟩ := hbase
  exact (h.callTail left hbase (.inr hsettled)).mono fun _ _ he =>
    ⟨he.1, he.2.1, hfound.grow he.2.2.1⟩

theorem Accepts.callTail_succ (hfirst : first.Formed .free)
    (hrank : 14 ≤ first.rank ∨ Settled first ts) :
    Finds ts (Reader.callTail (fuel + 1) first) fun e left =>
      e.Formed .free ∧ 13 ≤ e.rank ∧ Grown ts first e left ∧
        (nextKind left).extendsLeft = false := by
  have hextends : (nextKind ts).extendsLeft = true → 14 ≤ first.rank := by
    intro hext
    obtain hrank | hrank | ⟨-, hnone⟩ := hrank
    · exact hrank
    · exact Nat.le_of_succ_le hrank
    · cases hnone.symm.trans hext
  rw [Reader.callTail]
  refine .peek ?_
  split
  case h_1 hnext =>
    have hrank := hextends (by rw [hnext]; rfl)
    refine .skip (.fieldName fun field hfield => ?_)
    have hdot : (Expr.dot first field).Formed .free := ⟨hfirst, hrank, hfield⟩
    have hgrown : Grown ts first (.dot first field) ts.tail.tail :=
      .of_leads rfl rfl (by rw [hnext]; rfl)
    exact (h.callTail _ hdot (.inl hrank)).mono fun _ _ he =>
      ⟨he.1, he.2.1, hgrown.trans he.2.2.1, he.2.2.2⟩
  case h_2 hnext =>
    have hrank := hextends (by rw [hnext]; rfl)
    refine .skip ((h.expr .free _).bind fun position left hposition => .expectMark fun _ => ?_)
    have hindex : (Expr.index first position).Formed .free := ⟨hfirst, hrank, hposition.1⟩
    have hgrown : Grown ts first (.index first position) left.tail :=
      .of_leads rfl rfl (by rw [hnext]; rfl)
    exact (h.callTail _ hindex (.inl hrank)).mono fun _ _ he =>
      ⟨he.1, he.2.1, hgrown.trans he.2.2.1, he.2.2.2⟩
  case h_3 hnext =>
    have hrank := hextends (by rw [hnext]; rfl)
    refine (h.arguments ts).bind fun args left hargs => ?_
    have hcall : (Expr.call first args).Formed .free := ⟨hfirst, hrank, hargs⟩
    have hgrown : Grown ts first (.call first args) left :=
      .of_leads rfl rfl (by rw [hnext]; rfl)
    exact (h.callTail _ hcall (.inl (Nat.le_refl 14))).mono fun _ _ he =>
      ⟨he.1, he.2.1, hgrown.trans he.2.2.1, he.2.2.2⟩
  case h_4 hdot hbracket hparen =>
    have hend : (nextKind ts).extendsLeft = false := by
      unfold TokenKind.extendsLeft
      split <;> first | rfl | contradiction
    have hrank : 13 ≤ first.rank := by
      obtain hrank | hrank | ⟨hrank, -⟩ := hrank <;> omega
    exact .pure ⟨hfirst, hrank, .refl, hend⟩

theorem Accepts.memberTail_succ (hfirst : first.Formed .free) (hsettled : Settled first ts) :
    Finds ts (Reader.memberTail (fuel + 1) first) fun e left => e.Formed .free ∧ Settled e left ∧
      (nextKind left = .mark .lparen ∨ (nextKind left).extendsLeft = false) := by
  have hextends : (nextKind ts).extendsLeft = true → 15 ≤ first.rank := by
    intro hext
    obtain hrank | ⟨-, hnone⟩ := hsettled
    · exact hrank
    · cases hnone.symm.trans hext
  rw [Reader.memberTail]
  refine .peek ?_
  split
  case h_1 hnext =>
    have hrank := hextends (by rw [hnext]; rfl)
    refine .skip (.fieldName fun field hfield => ?_)
    have hdot : (Expr.dot first field).Formed .free := ⟨hfirst, Nat.le_of_succ_le hrank, hfield⟩
    exact h.memberTail _ hdot (.inl hrank)
  case h_2 hnext =>
    have hrank := hextends (by rw [hnext]; rfl)
    refine .skip ((h.expr .free _).bind fun position left hposition => .expectMark fun _ => ?_)
    have hindex : (Expr.index first position).Formed .free :=
      ⟨hfirst, Nat.le_of_succ_le hrank, hposition.1⟩
    exact h.memberTail _ hindex (.inl hrank)
  case h_3 hdot hbracket =>
    refine .pure ⟨hfirst, hsettled, ?_⟩
    by_cases hparen : nextKind ts = .mark .lparen
    · exact .inl hparen
    · refine .inr ?_
      unfold TokenKind.extendsLeft
      split <;> first | rfl | contradiction

theorem Accepts.construction_succ : Finds ts (Reader.construction (fuel + 1)) fun e left =>
    e.Formed .free ∧ Settled e left ∧ Found ts e left := by
  rw [Reader.construction]
  refine .accept (fun _ => ?_) fun _ => ?_
  · refine (h.construction _).bind fun base left hbase => ?_
    refine (h.memberTail left hbase.1 hbase.2.1).bind fun callee left hcallee => .peek ?_
    obtain ⟨hcallee, hsettled, hend⟩ := hcallee
    split
    case isTrue hparen =>
      have hrank : 15 ≤ callee.rank := by
        obtain hrank | ⟨-, hnone⟩ := hsettled
        · exact hrank
        · rw [hparen] at hnone
          cases hnone
      refine (h.arguments left).bind fun args last hargs => .pure ?_
      exact ⟨⟨hcallee, hrank, hargs⟩, .inl (Nat.le_refl _), .of_leads rfl fun _ => rfl⟩
    case isFalse hparen =>
      have hrank : callee.rank = 13 ∨ 15 ≤ callee.rank := by
        obtain hrank | ⟨hrank, -⟩ := hsettled
        · exact .inr hrank
        · exact .inl hrank
      exact .pure ⟨⟨hcallee, hrank⟩, .inr ⟨rfl, hend.resolve_left hparen⟩,
        .of_leads rfl fun _ => rfl⟩
  · exact (h.primary ts).mono fun _ _ he => ⟨he.1, .inl he.2.1, he.2.2⟩

theorem Accepts.arguments_succ :
    Finds ts (Reader.arguments (fuel + 1)) fun args _ => FormedArgs args := by
  rw [Reader.arguments]
  refine .expectMark fun _ => .accept (fun _ => .pure trivial) fun _ => ?_
  refine (h.assignment .free _).bind fun e left he => ?_
  exact (h.moreArguments left).bind fun es _ hes => .pure ⟨he.1.formed, he.1.rank, hes⟩

theorem Accepts.moreArguments_succ :
    Finds ts (Reader.moreArguments (fuel + 1)) fun args _ => FormedArgs args := by
  rw [Reader.moreArguments]
  refine .accept (fun _ => ?_) fun _ => .expectMark fun _ => .pure trivial
  refine (h.assignment .free _).bind fun e left he => ?_
  exact (h.moreArguments left).bind fun es _ hes => .pure ⟨he.1.formed, he.1.rank, hes⟩

theorem Accepts.primary_succ : Finds ts (Reader.primary (fuel + 1)) fun e left =>
    e.Formed .free ∧ 15 ≤ e.rank ∧ Found ts e left := by
  rw [Reader.primary]
  refine .intro fun hts => .get ?_
  split
  case h_1 => exact .failure
  case h_2 t rest =>
    have hrest : Scanned rest := hts.tail
    have hatom : ∀ {e : Expr}, e.Formed .free → 15 ≤ e.rank →
        (e.head == .mark .lbrace) = false →
        (∀ continued, e.leads continued = true) →
        Finds (t :: rest) (set rest >>= fun _ => pure e) fun e left =>
          e.Formed .free ∧ 15 ≤ e.rank ∧ Found (t :: rest) e left :=
      fun hformed hrank hhead hleads =>
        .set hrest (.pure ⟨hformed, hrank, .of_leads hhead hleads⟩)
    split
    case h_1 id hkind =>
      exact hatom (hts.genuine hkind rfl) (Nat.le_refl _) rfl fun _ => rfl
    case h_2 text hkind =>
      exact hatom (hts.genuine hkind rfl) (Nat.le_refl _) rfl fun _ => rfl
    case h_3 text hkind =>
      exact hatom (hts.genuine hkind rfl) (Nat.le_refl _) rfl fun _ => rfl
    case h_4 text hkind =>
      exact hatom (hts.genuine hkind rfl) (Nat.le_refl _) rfl fun _ => rfl
    case h_5 | h_6 | h_7 | h_8 => exact hatom trivial (Nat.le_refl _) rfl fun _ => rfl
    case h_9 hkind =>
      have hfunction : ∀ {name : Option String} {ts' : List Token}, (∀ id ∈ name, IsName id) →
          (∀ id ∈ name, nextKind rest = .name id) →
          Finds ts' (params fuel >>= fun ps => Reader.braced fuel >>= fun body =>
            pure (Expr.func name ps body)) fun e left =>
            e.Formed .free ∧ 15 ≤ e.rank ∧ Found (t :: rest) e left := by
        intro name ts' hname hnext
        refine (finds_params fuel).bind fun ps left hps => ?_
        refine (h.braced left).bind fun body last hbody => .pure ?_
        refine ⟨⟨hname, hps, hbody⟩, Nat.le_refl _, ⟨?_, fun hbegins => ?_⟩⟩
        · rintro ⟨⟩
        · cases name with
          | none => rfl
          | some id => exact absurd (hnext id rfl) (hbegins.2 hkind id)
      refine .set hrest (.intro fun hts => .peek ?_)
      simp only [pure_bind]
      split
      case h_1 id hid =>
        refine .skip (hfunction ?_ ?_)
        · rintro _ ⟨⟩
          exact hts.genuine hid rfl
        · rintro _ ⟨⟩
          exact hid
      case h_2 => exact hfunction (by rintro _ ⟨⟩) (by rintro _ ⟨⟩)
    case h_10 =>
      refine .set hrest ((h.expr .free rest).bind fun inner left hinner => .expectMark fun _ => ?_)
      have hgrouped : inner.grouped.Formed .free ∧ ∃ e, inner.grouped = .group e := by
        unfold Expr.grouped
        split
        case h_1 => exact ⟨hinner.1, _, rfl⟩
        case h_2 hgroup =>
          refine ⟨⟨hinner.1, ?_⟩, _, rfl⟩
          cases inner with
          | group e => exact absurd rfl (hgroup e)
          | _ => rfl
      obtain ⟨hformed, e, he⟩ := hgrouped
      rw [he] at hformed ⊢
      exact .pure ⟨hformed, Nat.le_refl _, .of_leads rfl fun _ => rfl⟩
    case h_11 =>
      refine .set hrest ((h.arrayItems rest).bind fun items _ hitems => .pure ?_)
      exact ⟨hitems, Nat.le_refl _, .of_leads rfl fun _ => rfl⟩
    case h_12 hkind =>
      refine .set hrest ((h.objectProperties rest).bind fun properties _ hproperties => .pure ?_)
      exact ⟨hproperties, Nat.le_refl _, fun _ => hkind, fun hbegins => absurd hkind hbegins.1⟩
    case h_13 =>
      split
      case h_1 text more hretry =>
        obtain ⟨hregex, hmore⟩ := Scanned.retry hretry
        exact .set hmore (.pure ⟨hregex, Nat.le_refl _, .of_leads rfl fun _ => rfl⟩)
      case h_2 => exact .failure
    case h_14 => exact .failure

theorem Accepts.arrayItems_succ :
    Finds ts (Reader.arrayItems (fuel + 1)) fun items _ => FormedItems items := by
  have hmissing : ∀ {count : Nat} {items : List Item}, FormedItems items →
      (∀ more rest, items ≠ .elision more :: rest) →
      FormedItems ((if count = 0 then [] else [Item.elision count]) ++ items) := by
    intro count items hitems hvalue
    split
    case isTrue => exact hitems
    case isFalse hcount => exact ⟨Nat.pos_of_ne_zero hcount, hvalue, hitems⟩
  rw [Reader.arrayItems]
  refine (finds_commas fuel).bind fun count left _ => .accept (fun _ => .pure ?_) fun _ => ?_
  · have hnone : FormedItems ((if count = 0 then [] else [Item.elision count]) ++ []) :=
      hmissing trivial (by rintro _ _ ⟨⟩)
    rwa [List.append_nil] at hnone
  · refine (h.assignment .free left).bind fun e left he => .accept (fun _ => ?_) fun _ => ?_
    · refine (h.arrayItems _).bind fun rest _ hrest => .pure ?_
      exact hmissing ⟨he.1.formed, he.1.rank, hrest⟩ (by rintro _ _ ⟨⟩)
    · refine .expectMark fun _ => .pure ?_
      exact hmissing ⟨he.1.formed, he.1.rank, trivial⟩ (by rintro _ _ ⟨⟩)

theorem Accepts.objectProperties_succ : Finds ts (Reader.objectProperties (fuel + 1))
    fun properties _ => FormedProperties properties := by
  rw [Reader.objectProperties]
  refine .accept (fun _ => .pure trivial) fun _ => ?_
  refine (h.property ts).bind fun p left hp => .accept (fun _ => ?_) fun _ => ?_
  · exact (h.objectProperties _).bind fun rest _ hrest => .pure ⟨hp, hrest⟩
  · exact .expectMark fun _ => .pure ⟨hp, trivial⟩

theorem Accepts.property_succ :
    Finds ts (Reader.property (fuel + 1)) fun p _ => p.Formed := by
  rw [Reader.property]
  refine .intro fun hts => .accept (fun hgetter => ?_) fun _ => ?_
  · have hliteral := hts.isLiteral_tail (by rw [hgetter]; rfl)
    refine .propertyKey fun key hkey hword => .expectMark fun _ => .expectMark fun _ => ?_
    exact (h.braced _).bind fun body _ hbody => .pure ⟨hkey, hword hliteral, hbody⟩
  refine .accept (fun hsetter => ?_) fun _ => ?_
  · have hliteral := hts.isLiteral_tail (by rw [hsetter]; rfl)
    refine .propertyKey fun key hkey hword => .expectMark fun _ => ?_
    refine .identifier fun param _ hparam => .expectMark fun _ => ?_
    exact (h.braced _).bind fun body _ hbody => .pure ⟨hkey, hword hliteral, hparam, hbody⟩
  · refine .propertyKey fun key hkey _ => .expectMark fun _ => ?_
    exact (h.assignment .free _).bind fun value _ hvalue =>
      .pure ⟨hkey, hvalue.1.formed, hvalue.1.rank⟩

/-! ### Statements -/

theorem Accepts.braced_succ :
    Finds ts (Reader.braced (fuel + 1)) fun body _ => FormedAll body := by
  rw [Reader.braced]
  refine .expectMark fun _ => (h.statements _).bind fun body _ hbody => ?_
  exact .expectMark fun _ => .pure hbody

theorem Accepts.statements_succ :
    Finds ts (Reader.statements (fuel + 1)) fun ss _ => FormedAll ss := by
  rw [Reader.statements]
  refine .peek ?_
  split
  case h_5 =>
    refine (h.statement ts).bind fun s left hs => ?_
    exact (h.statements left).bind fun ss _ hss => .pure ⟨hs.formed, hss⟩
  all_goals exact .pure trivial

theorem Accepts.statement_succ : Finds ts (Reader.statement (fuel + 1)) Complete := by
  rw [Reader.statement]
  refine .intro fun hts => .peek ?_
  split
  case h_1 =>
    exact (h.braced ts).bind fun body _ hbody => .pure (.plain hbody rfl)
  case h_2 => exact .skip (.pure (.plain trivial rfl))
  case h_3 word hword =>
    split
    · refine .skip ((h.bindings .free _).bind fun bs _ hbs => .endStatement fun _ => .pure ?_)
      exact .plain ⟨hbs.nonempty, hbs.formed⟩ rfl
    · exact .skip (h.ifTail _)
    · exact .skip (h.forTail _)
    · refine .skip ((h.parenthesized _).bind fun test _ htest => ?_)
      exact (h.statement _).bind fun body _ hbody => .pure ⟨⟨htest, hbody.formed⟩, hbody.takesElse⟩
    · refine .skip ((h.statement _).bind fun body _ hbody => .expect fun _ => ?_)
      refine (h.parenthesized _).bind fun test _ htest => .endStatement fun _ => .pure ?_
      exact .plain ⟨hbody.formed, htest⟩ rfl
    · exact .skip (finds_optionalLabel.bind fun label _ hlabel => .pure (.plain hlabel rfl))
    · exact .skip (finds_optionalLabel.bind fun label _ hlabel => .pure (.plain hlabel rfl))
    · refine .skip (.peek ?_)
      split
      · refine (h.expr .free _).bind fun value _ hvalue => .endStatement fun _ => .pure ?_
        exact .plain hvalue.1 rfl
      · exact .endStatement fun _ => .pure (.plain trivial rfl)
    · refine .skip ((h.parenthesized _).bind fun scope _ hscope => ?_)
      exact (h.statement _).bind fun body _ hbody =>
        .pure ⟨⟨hscope, hbody.formed⟩, hbody.takesElse⟩
    · refine .skip ((h.parenthesized _).bind fun subject _ hsubject => .expectMark fun _ => ?_)
      refine (h.clauses _).bind fun clauses _ hclauses => .expectMark fun _ => ?_
      split
      case isTrue => exact .failure
      case isFalse hcount => exact .pure (.plain ⟨hsubject, hclauses, Nat.not_lt.1 hcount⟩ rfl)
    · refine .skip ((h.expr .free _).bind fun value _ hvalue => .endStatement fun _ => .pure ?_)
      exact .plain hvalue.1 rfl
    · exact .skip (.endStatement fun _ => .pure (.plain trivial rfl))
    · exact .skip (h.tryTail _)
    · exact h.functionStatement ts hword
    case h_15 hfunction =>
      refine h.expressionStatement ts ⟨fun hbrace => ?_, fun hnext => ?_⟩
      · cases hword.symm.trans hbrace
      · cases hword.symm.trans hnext
        exact absurd rfl hfunction
  case h_4 id hid =>
    refine .peekSecond ?_
    split
    case isTrue =>
      refine .skip (.skip ((h.statement _).bind fun body _ hbody => .pure ?_))
      exact ⟨⟨hts.genuine hid rfl, hbody.formed⟩, hbody.takesElse⟩
    case isFalse =>
      refine h.expressionStatement ts ⟨fun hbrace => ?_, fun hnext => ?_⟩
      · cases hid.symm.trans hbrace
      · cases hid.symm.trans hnext
  case h_5 hbrace _ hword _ =>
    exact h.expressionStatement ts ⟨hbrace, fun hnext => absurd hnext (hword _)⟩

theorem Accepts.expressionStatement_succ (hbegins : BeginsExpr ts) :
    Finds ts (Reader.expressionStatement (fuel + 1)) Complete := by
  rw [Reader.expressionStatement]
  refine (h.expr .statement ts).bind fun e left hexpr => .endStatement fun _ => ?_
  obtain ⟨he, hfound⟩ := hexpr
  split
  case isTrue => exact .failure
  case isFalse hfunction =>
    have hplain := Bool.eq_false_iff.2 hfunction
    refine .pure (.plain ⟨he, ?_, hplain⟩ rfl)
    rw [Expr.leads_congr hplain false]
    exact hfound.leads hbegins

theorem Accepts.functionStatement_succ (hfunction : nextKind ts = .keyword .function) :
    Finds ts (Reader.functionStatement (fuel + 1)) Complete := by
  rw [Reader.functionStatement]
  refine .intro fun hts => .peekSecond ?_
  split
  case h_1 id hid =>
    refine .skip (.skip ((finds_params fuel).bind fun ps left hps => ?_))
    refine (h.braced left).bind fun body start hbody => .peek ?_
    have hname : IsName id := hts.tail.genuine hid rfl
    split
    case isTrue hcontinues =>
      have hfunc : (Expr.func (some id) ps body).Formed .free :=
        ⟨by rintro _ ⟨⟩; exact hname, hps, hbody⟩
      refine (h.callTail start hfunc (.inr (.inl (Nat.le_refl _)))).bind
        fun called left hcalled => ?_
      obtain ⟨hcalled, hrank, hcall, hextends⟩ := hcalled
      refine (h.assignmentTail .statement left hcalled hrank).bind
        fun assigned left' hassigned => ?_
      obtain ⟨hpart, hassign, hstops⟩ := hassigned
      refine (h.commaTail left' hpart.formed).bind fun e last he => ?_
      obtain ⟨he, hcomma, hnext⟩ := he
      have hplain : e.isFunction = false := by
        -- A function that nothing was added to would stand before the token it goes on with.
        by_contra hfunction
        have hkept := Bool.not_eq_false _ ▸ hfunction
        obtain ⟨rfl, rfl⟩ := hcomma.kept hkept
        obtain ⟨rfl, rfl⟩ := hassign.kept hkept
        obtain ⟨-, rfl⟩ := hcall.kept hkept
        obtain ⟨hassign, hstops⟩ := hstops hkept
        cases hcontinues.symm.trans (continuesFunction_eq_false hextends hassign hstops hnext)
      refine .endStatement fun _ => .pure (.plain ⟨he, ?_, hplain⟩ rfl)
      rw [Expr.leads_congr hplain false]
      exact ((hcall.trans hassign).trans hcomma).leads hcontinues
    case isFalse => exact .pure (.plain ⟨hname, hps, hbody⟩ rfl)
  case h_2 hnone =>
    refine h.expressionStatement ts ⟨?_, fun _ id hid => hnone id hid⟩
    rw [hfunction]
    rintro ⟨⟩

theorem Accepts.parenthesized_succ :
    Finds ts (Reader.parenthesized (fuel + 1)) fun e _ => e.Formed .free := by
  rw [Reader.parenthesized]
  refine .expectMark fun _ => (h.expr .free _).bind fun e _ he => ?_
  exact .expectMark fun _ => .pure he.1

theorem Accepts.bindings_succ : Finds ts (Reader.bindings (fuel + 1) place) (Declared place) := by
  have hmore : ∀ {b : Binding} {ts : List Token}, b.Formed place →
      (place = .loopHead → nextKind ts = .keyword .in → b.endsBeforeIn = true) → Finds ts
      (accept (.mark .comma) >>= fun found => if found = true then
        Reader.bindings fuel place >>= fun rest => pure (b :: rest) else pure [b])
      (Declared place) := by
    intro b ts hb hend
    refine .accept (fun _ => ?_) fun _ => .pure ⟨List.cons_ne_nil _ _, ⟨hb, trivial⟩, ?_⟩
    · refine (h.bindings place _).bind fun rest _ hrest => .pure ?_
      refine ⟨List.cons_ne_nil _ _, ⟨hb, hrest.formed⟩, ?_⟩
      rintro _ heq
      exact absurd (List.cons.inj heq).2 hrest.nonempty
    · rintro _ heq
      obtain ⟨rfl, -⟩ := List.cons.inj heq
      exact hend
  rw [Reader.bindings]
  refine .identifier fun name _ hname => ?_
  simp only [pure_bind]
  refine .accept (fun _ => ?_) fun _ => hmore hname fun _ _ => rfl
  refine (h.assignment place _).bind fun value left hvalue => ?_
  refine hmore ⟨hname, hvalue.1.formed, hvalue.1.rank⟩ fun hplace hin => ?_
  have hcloses := hvalue.1.closes
  rwa [hplace, hin] at hcloses

theorem Accepts.ifTail_succ : Finds ts (Reader.ifTail (fuel + 1)) Complete := by
  rw [Reader.ifTail]
  refine (h.parenthesized ts).bind fun test _ htest => (h.statement _).bind fun yes left hyes => ?_
  refine .accept (fun helse => ?_) fun helse => .pure ⟨⟨htest, hyes.formed⟩, fun _ => helse⟩
  have hclosed : yes.takesElse = false :=
    Bool.eq_false_iff.2 fun htakes => hyes.takesElse htakes helse
  exact (h.statement _).bind fun no _ hno =>
    .pure ⟨⟨htest, hyes.formed, hclosed, hno.formed⟩, hno.takesElse⟩

theorem Accepts.forTail_succ : Finds ts (Reader.forTail (fuel + 1)) Complete := by
  have hplain : ∀ {start : LoopStart} {ts : List Token}, start.Formed → Finds ts
      (expectMark .semi >>= fun _ => Reader.loopTail fuel start) Complete :=
    fun hstart => .expectMark fun _ => h.loopTail _ hstart
  rw [Reader.forTail]
  refine .expectMark fun _ => .peek ?_
  split
  case isTrue => exact .skip (h.loopTail _ trivial)
  case isFalse =>
    split
    case isTrue =>
      refine .skip ((h.bindings .loopHead _).bind fun declared left hdeclared => ?_)
      split
      case h_1 item =>
        refine .accept (fun hin => ?_) fun _ => hplain ⟨hdeclared.nonempty, hdeclared.formed⟩
        refine (h.loopInTail _).bind fun found _ hfound => .pure ?_
        obtain ⟨hcollection, hbody⟩ := hfound
        exact ⟨⟨hdeclared.formed.1, hdeclared.endsBeforeIn item rfl rfl hin, hcollection,
          hbody.formed⟩, hbody.takesElse⟩
      case h_2 => exact hplain ⟨hdeclared.nonempty, hdeclared.formed⟩
    case isFalse =>
      split
      · exact (h.expr .loopHead _).bind fun e _ he => hplain he.1
      · refine (h.leftHandSide _).bind fun item left hitem => ?_
        obtain ⟨hitem, hrank, -⟩ := hitem
        refine .accept (fun _ => ?_) fun _ => ?_
        · refine (h.loopInTail _).bind fun found _ hfound => .pure ?_
          obtain ⟨hcollection, hbody⟩ := hfound
          exact ⟨⟨hitem, hrank, hcollection, hbody.formed⟩, hbody.takesElse⟩
        · refine (h.assignmentTail .loopHead left hitem hrank).bind fun e left he => ?_
          exact (h.commaTail left he.1.formed).bind fun e _ he => hplain he.1

theorem Accepts.loopInTail_succ : Finds ts (Reader.loopInTail (fuel + 1))
    fun (collection, body) left => collection.Formed .free ∧ Complete body left := by
  rw [Reader.loopInTail]
  refine (h.expr .free ts).bind fun collection _ hcollection => .expectMark fun _ => ?_
  exact (h.statement _).bind fun body _ hbody => .pure ⟨hcollection.1, hbody⟩

theorem Accepts.loopTail_succ {start : LoopStart} (hstart : start.Formed) :
    Finds ts (Reader.loopTail (fuel + 1) start) Complete := by
  rw [Reader.loopTail]
  simp only [pure_bind]
  have hbody : ∀ {test next : Option Expr} {ts : List Token}, FormedOptional test →
      FormedOptional next → Finds ts
      (Reader.statement fuel >>= fun body => pure (.loop start test next body)) Complete :=
    fun htest hnext => (h.statement _).bind fun _ _ hbody =>
      .pure ⟨⟨hstart, htest, hnext, hbody.formed⟩, hbody.takesElse⟩
  have hnext : ∀ {test : Option Expr} {ts : List Token}, FormedOptional test → Finds ts
      (accept (.mark .rparen) >>= fun found => if found = true then
          Reader.statement fuel >>= fun body => pure (.loop start test none body)
        else Reader.expr fuel .free >>= fun e => expectMark .rparen >>= fun _ =>
          Reader.statement fuel >>= fun body => pure (.loop start test (some e) body))
        Complete := by
    intro test ts htest
    refine .accept (fun _ => hbody htest trivial) fun _ => ?_
    exact (h.expr .free ts).bind fun e _ he => .expectMark fun _ => hbody htest he.1
  refine .accept (fun _ => hnext trivial) fun _ => ?_
  exact (h.expr .free ts).bind fun e _ he => .expectMark fun _ => hnext he.1

theorem Accepts.clauses_succ :
    Finds ts (Reader.clauses (fuel + 1)) fun clauses _ => FormedClauses clauses := by
  rw [Reader.clauses]
  refine .accept (fun _ => ?_) fun _ => .accept (fun _ => ?_) fun _ => .pure trivial
  · refine (h.expr .free _).bind fun label _ hlabel => .expectMark fun _ => ?_
    refine (h.statements _).bind fun body _ hbody => (h.clauses _).bind fun rest _ hrest => ?_
    exact .pure ⟨hlabel.1, hbody, hrest⟩
  · refine .expectMark fun _ => (h.statements _).bind fun body _ hbody => ?_
    exact (h.clauses _).bind fun rest _ hrest => .pure ⟨hbody, hrest⟩

theorem Accepts.tryTail_succ : Finds ts (Reader.tryTail (fuel + 1)) Complete := by
  rw [Reader.tryTail]
  refine (h.braced ts).bind fun body _ hbody => .accept (fun _ => ?_) fun _ => ?_
  · refine .expectMark fun _ => .identifier fun param _ hparam => .expectMark fun _ => ?_
    refine (h.braced _).bind fun handler _ hhandler => .accept (fun _ => ?_) fun _ => ?_
    · exact (h.braced _).bind fun finalizer _ hfinalizer =>
        .pure (.plain ⟨hbody, hparam, hhandler, hfinalizer⟩ rfl)
    · exact .pure (.plain ⟨hbody, hparam, hhandler⟩ rfl)
  · refine .expect fun _ => ?_
    exact (h.braced _).bind fun finalizer _ hfinalizer => .pure (.plain ⟨hbody, hfinalizer⟩ rfl)

end

/-- Readers find trees of the grammar. -/
theorem accepts (fuel : Nat) : Accepts fuel := by
  induction fuel with
  | zero => exact accepts_zero
  | succ fuel h => exact
    { expr := fun _ _ => h.expr_succ
      commaTail := fun _ _ => h.commaTail_succ
      assignment := fun _ _ => h.assignment_succ
      assignmentTail := fun _ _ _ => h.assignmentTail_succ
      operators := fun _ _ _ => h.operators_succ
      binaryTail := fun _ _ => h.binaryTail_succ
      unary := fun _ => h.unary_succ
      leftHandSide := fun _ => h.leftHandSide_succ
      callTail := fun _ _ => h.callTail_succ
      memberTail := fun _ _ => h.memberTail_succ
      construction := fun _ => h.construction_succ
      arguments := fun _ => h.arguments_succ
      moreArguments := fun _ => h.moreArguments_succ
      primary := fun _ => h.primary_succ
      arrayItems := fun _ => h.arrayItems_succ
      objectProperties := fun _ => h.objectProperties_succ
      property := fun _ => h.property_succ
      braced := fun _ => h.braced_succ
      statements := fun _ => h.statements_succ
      statement := fun _ => h.statement_succ
      expressionStatement := fun _ => h.expressionStatement_succ
      functionStatement := fun _ => h.functionStatement_succ
      parenthesized := fun _ => h.parenthesized_succ
      bindings := fun _ _ => h.bindings_succ
      ifTail := fun _ => h.ifTail_succ
      forTail := fun _ => h.forTail_succ
      loopInTail := fun _ => h.loopInTail_succ
      loopTail := fun _ _ => h.loopTail_succ
      clauses := fun _ => h.clauses_succ
      tryTail := fun _ => h.tryTail_succ }

end Reader

/-- Every program that a text stands for is of the grammar. -/
theorem formedAll_of_parse {source : String} {program : Program} (h : parse source = some program) :
    FormedAll program := by
  obtain ⟨⟨found, left⟩, hrun, hend⟩ := Option.bind_eq_some_iff.1 h
  have hscanned : Scanned (tokenize source) := scanned_tokens _ _
  have hformed := ((Reader.accepts _).statements _ hscanned found left hrun).2
  dsimp only at hend
  split at hend
  case h_1 =>
    cases hend
    exact hformed
  case h_2 => cases hend

end Espalier.Script
