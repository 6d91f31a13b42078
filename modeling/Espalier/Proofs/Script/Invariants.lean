import Espalier.Script.Reader

/-!
# What reading keeps

A reader passes tokens one after the other, and where a slash was taken for division it may read on
with a regular expression instead. `Kept` says of a property of token lists that it survives both,
where the property may know the closing brackets that are due. Main statement: `upholds`, by which
no reader leaves such a property behind, every reader leaves as many brackets due as it found, and
in what it reads every statement is paired with the statements behind it, if only it is paired with
those that are read from the tokens behind it.
-/

namespace Espalier.Script

/-! ## Brackets -/

/-- The mark that closes what the mark opens. -/
def Mark.closer? : Mark → Option Mark
  | .lparen => some .rparen
  | .lbracket => some .rbracket
  | .lbrace => some .rbrace
  | _ => none

/-- The mark is a closing bracket. -/
def Mark.isCloser : Mark → Bool
  | .rparen | .rbracket | .rbrace => true
  | _ => false

/-- The closing brackets that are due after a token, the innermost first. A bracket that is not due
cannot be passed. -/
def TokenKind.cross (due : List Mark) : TokenKind → Option (List Mark)
  | .mark m =>
    match m.closer? with
    | some closer => some (closer :: due)
    | none => if m.isCloser then (if due.head? = some m then some due.tail else none) else some due
  | _ => some due

/-! ## Statements and those behind them -/

section
variable (pairs : Stmt → List Stmt → Prop)

mutual

/-- In the functions of an expression, every statement is paired with those behind it. -/
def Expr.Paired : Expr → Prop
  | .name _ | .this | .null | .bool _ | .number _ | .string _ | .regex _ => True
  | .array items => PairedItems items
  | .object properties => PairedProperties properties
  | .group inner => inner.Paired
  | .func _ _ body => PairedAll body
  | .dot owner _ => owner.Paired
  | .index owner position => owner.Paired ∧ position.Paired
  | .call callee args => callee.Paired ∧ PairedExprs args
  | .new callee args => callee.Paired ∧ PairedExprs args
  | .newBare callee => callee.Paired
  | .unary _ operand => operand.Paired
  | .step operand _ => operand.Paired
  | .binary _ left right => left.Paired ∧ right.Paired
  | .assign _ left right => left.Paired ∧ right.Paired
  | .cond test yes no => test.Paired ∧ yes.Paired ∧ no.Paired
  | .comma left right => left.Paired ∧ right.Paired

/-- `Paired` for several expressions. -/
def PairedExprs : List Expr → Prop
  | [] => True
  | e :: es => e.Paired ∧ PairedExprs es

/-- `Paired` for an expression that may be missing. -/
def PairedOptional : Option Expr → Prop
  | none => True
  | some e => e.Paired

/-- `Paired` for the items of an array. -/
def PairedItems : List Item → Prop
  | [] => True
  | .elision _ :: items => PairedItems items
  | .value e :: items => e.Paired ∧ PairedItems items

/-- `Paired` for a property of an object. -/
def Property.Paired : Property → Prop
  | .field _ value => value.Paired
  | .getter _ body => PairedAll body
  | .setter _ _ body => PairedAll body

/-- `Paired` for the properties of an object. -/
def PairedProperties : List Property → Prop
  | [] => True
  | p :: properties => p.Paired ∧ PairedProperties properties

/-- `Paired` for the initial value of a variable. -/
def Binding.Paired : Binding → Prop
  | .bare _ => True
  | .init _ value => value.Paired

/-- `Paired` for the initial values of variables. -/
def PairedBindings : List Binding → Prop
  | [] => True
  | b :: bs => b.Paired ∧ PairedBindings bs

/-- `Paired` for what stands before the first semicolon of a loop head. -/
def LoopStart.Paired : LoopStart → Prop
  | .nothing => True
  | .vars bindings => PairedBindings bindings
  | .expr e => e.Paired

/-- In the lists inside a statement, every statement is paired with those behind it. -/
def Stmt.Paired : Stmt → Prop
  | .block body => PairedAll body
  | .vars bindings => PairedBindings bindings
  | .empty | .continue _ | .break _ | .debugger => True
  | .expr e => e.Paired
  | .ifThen test yes => test.Paired ∧ yes.Paired
  | .ifElse test yes no => test.Paired ∧ yes.Paired ∧ no.Paired
  | .loop start test next body =>
    start.Paired ∧ PairedOptional test ∧ PairedOptional next ∧ body.Paired
  | .loopIn item collection body => item.Paired ∧ collection.Paired ∧ body.Paired
  | .loopVarIn item collection body => item.Paired ∧ collection.Paired ∧ body.Paired
  | .while test body => test.Paired ∧ body.Paired
  | .doWhile body test => body.Paired ∧ test.Paired
  | .ret value => PairedOptional value
  | .withScope scope body => scope.Paired ∧ body.Paired
  | .label _ body => body.Paired
  | .switch subject clauses => subject.Paired ∧ PairedClauses clauses
  | .throw value => value.Paired
  | .tryCatch body _ handler => PairedAll body ∧ PairedAll handler
  | .tryFinally body finalizer => PairedAll body ∧ PairedAll finalizer
  | .tryCatchFinally body _ handler finalizer =>
    PairedAll body ∧ PairedAll handler ∧ PairedAll finalizer
  | .func _ _ body => PairedAll body

/-- Every statement of a list is paired with those behind it, and so on inside the statements. -/
def PairedAll : List Stmt → Prop
  | [] => True
  | s :: ss => s.Paired ∧ pairs s ss ∧ PairedAll ss

/-- `Paired` for the clauses of a switch. -/
def PairedClauses : List Clause → Prop
  | [] => True
  | .on label body :: clauses => label.Paired ∧ PairedAll body ∧ PairedClauses clauses
  | .otherwise body :: clauses => PairedAll body ∧ PairedClauses clauses

end

end

namespace Reader

/-! ## Properties of readers -/

/-- The kind of the next token. -/
def nextKind : List Token → TokenKind
  | t :: _ => t.kind
  | [] => .eof

theorem run_peek_eq (ts : List Token) : peek.run ts = some (nextKind ts, ts) := by
  cases ts <;> rfl

/-- If the reader succeeds on tokens that satisfy `before`, its result and the tokens that are left
satisfy `after`. -/
def Meets {α : Type} (before : List Token → Prop) (r : Reader α) (after : α → List Token → Prop) :
    Prop :=
  ∀ ts a ts', before ts → r.run ts = some (a, ts') → after a ts'

section
variable {α β : Type} {r : Reader α} {f : α → Reader β} {before between : List Token → Prop}
  {after : α → List Token → Prop} {last : β → List Token → Prop}

theorem Meets.bind (hr : Meets before r after) (hf : ∀ a, Meets (after a) (f a) last) :
    Meets before (r >>= f) last := by
  intro ts b ts' hts hrun
  rw [StateT.run_bind] at hrun
  obtain ⟨⟨a, rest⟩, hfirst, hrest⟩ := Option.bind_eq_some_iff.1 hrun
  exact hf a rest b ts' (hr ts a rest hts hfirst) hrest

theorem Meets.pure {a : α} (h : ∀ ts, before ts → after a ts) :
    Meets before (pure a : Reader α) after := by
  rintro ts b ts' hts ⟨⟩
  exact h ts hts

theorem Meets.failure : Meets before (failure : Reader α) after := nofun

theorem Meets.failure_bind : Meets before ((Alternative.failure : Reader α) >>= f) last := nofun

theorem Meets.mono (h : Meets between r after) (hbefore : ∀ ts, before ts → between ts) :
    Meets before r after :=
  fun ts a ts' hts hrun => h ts a ts' (hbefore ts hts) hrun

/-- What else is known of the tokens may be forgotten. -/
theorem Meets.left {known : List Token → Prop} (h : Meets before r after) :
    Meets (fun ts => before ts ∧ known ts) r after :=
  h.mono fun _ => And.left

theorem Meets.peek {g : TokenKind → Reader β}
    (h : ∀ kind, Meets (fun ts => before ts ∧ nextKind ts = kind) (g kind) last) :
    Meets before (peek >>= g) last := by
  intro ts b ts' hts hrun
  rw [StateT.run_bind, run_peek_eq] at hrun
  exact h _ ts b ts' ⟨hts, rfl⟩ hrun

theorem Meets.peekSecond {g : TokenKind → Reader β}
    (h : ∀ kind, Meets (fun ts => before ts ∧ nextKind ts.tail = kind) (g kind) last) :
    Meets before (peekSecond >>= g) last := by
  intro ts b ts' hts hrun
  have hpeek : Reader.peekSecond.run ts = some (nextKind ts.tail, ts) := by
    match ts with
    | [] | [_] | _ :: _ :: _ => rfl
  rw [StateT.run_bind, hpeek] at hrun
  exact h _ ts b ts' ⟨hts, rfl⟩ hrun

theorem Meets.get {g : List Token → Reader β} (h : ∀ ts, before ts → Meets (· = ts) (g ts) last) :
    Meets before (get >>= g) last :=
  fun ts b ts' hts hrun => h ts hts ts b ts' rfl hrun

theorem Meets.set {ts : List Token} {g : Unit → Reader β} (h : Meets (· = ts) (g ()) last) :
    Meets before (set ts >>= g) last :=
  fun _ b ts' _ hrun => h ts b ts' rfl hrun

end

/-! ## Properties that passing tokens keeps -/

/-- The property of due brackets and tokens survives every token that is passed, and a return to a
slash that begins a regular expression. -/
structure Kept (inv : List Mark → List Token → Prop) : Prop where
  pass : ∀ {due due' : List Mark} {t : Token} {ts : List Token}, inv due (t :: ts) →
    t.kind.cross due = some due' → inv due' ts
  retry : ∀ {due : List Mark} {t : Token} {ts more : List Token} {text : String},
    inv due (t :: ts) → t.retry.bind Retry.regex? = some (text, more) → inv due more

section
variable {α β : Type} {inv : List Mark → List Token → Prop} {due due' : List Mark}
  {f : Unit → Reader β} {last : β → List Token → Prop} {kind : TokenKind}

/-- The reader gives a result with the property `P` and leaves the brackets `due'`. -/
def Yields (inv : List Mark → List Token → Prop) (due : List Mark) (r : Reader α) (P : α → Prop)
    (due' : List Mark) : Prop :=
  Meets (inv due) r fun a ts => P a ∧ inv due' ts

theorem Yields.pure {a : α} {P : α → Prop} (h : P a) :
    Yields inv due (pure a : Reader α) P due :=
  Meets.pure fun _ hts => ⟨h, hts⟩

/-- Go on with the result of a reader. -/
theorem Yields.andThen {r : Reader α} {g : α → Reader β} {P : α → Prop}
    (hr : Yields inv due r P due') (hg : ∀ a, P a → Meets (inv due') (g a) last) :
    Meets (inv due) (r >>= g) last :=
  Meets.bind hr fun a ts b ts' hts hrun => hg a hts.1 ts b ts' hts.2 hrun

/-- Go on after a reader whose result says nothing. -/
theorem Yields.before {r : Reader α} {g : α → Reader β}
    (hr : Yields inv due r (fun _ => True) due') (hg : ∀ a, Meets (inv due') (g a) last) :
    Meets (inv due) (r >>= g) last :=
  hr.andThen fun a _ => hg a

variable (hinv : Kept inv)
include hinv

/-- The next token is passed. -/
theorem Kept.pass_next {ts : List Token} (hcross : kind.cross due = some due') (hkind : kind ≠ .eof)
    (hts : inv due ts) (hnext : nextKind ts = kind) : inv due' ts.tail := by
  subst hnext
  match ts with
  | [] => exact absurd rfl hkind
  | _ :: _ => exact hinv.pass hts hcross

/-- A token that was looked at is passed. -/
theorem Kept.skip (hcross : kind.cross due = some due') (hkind : kind ≠ .eof)
    (h : Meets (inv due') (f ()) last) :
    Meets (fun ts => inv due ts ∧ nextKind ts = kind) (skip >>= f) last := by
  intro ts b ts' hts hrun
  exact h ts.tail b ts' (hinv.pass_next hcross hkind hts.1 hts.2) hrun

/-- Two tokens that were looked at are passed. -/
theorem Kept.skipTwo {second : TokenKind} (hcross : kind.cross due = some due)
    (hsecond : second.cross due = some due) (hkind : kind ≠ .eof) (hkind' : second ≠ .eof)
    (h : Meets (inv due) (f ()) last) :
    Meets (fun ts => (inv due ts ∧ nextKind ts = kind) ∧ nextKind ts.tail = second)
      (Reader.skip >>= fun _ => Reader.skip >>= f) last := by
  intro ts b ts' hts hrun
  have hfirst := hinv.pass_next hcross hkind hts.1.1 hts.1.2
  exact h ts.tail.tail b ts' (hinv.pass_next hsecond hkind' hfirst hts.2) hrun

theorem Kept.expect (hcross : kind.cross due = some due') (hkind : kind ≠ .eof) :
    Yields inv due (expect kind) (fun _ => True) due' := by
  refine Meets.peek fun found => ?_
  split
  case isTrue hfound =>
    subst hfound
    rintro ts a ts' hts ⟨⟩
    exact ⟨trivial, hinv.pass_next hcross hkind hts.1 hts.2⟩
  case isFalse => exact .failure

theorem Kept.expectMark {m : Mark} (hcross : (TokenKind.mark m).cross due = some due') :
    Yields inv due (expectMark m) (fun _ => True) due' :=
  hinv.expect hcross nofun

theorem Kept.expectWord (word : Keyword) :
    Yields inv due (Reader.expect (.keyword word)) (fun _ => True) due :=
  hinv.expect rfl nofun

/-- A token is passed if it is this one. -/
theorem Kept.accept {yes no : Reader β} (hcross : kind.cross due = some due')
    (hkind : kind ≠ .eof) (hyes : Meets (inv due') yes last) (hno : Meets (inv due) no last) :
    Meets (inv due) (accept kind >>= fun found => if found = true then yes else no) last := by
  have haccept : Meets (inv due) (Reader.accept kind)
      fun found ts => if found then inv due' ts else inv due ts := by
    refine Meets.peek fun found => ?_
    split
    case isTrue hfound =>
      subst hfound
      rintro ts a ts' hts ⟨⟩
      exact hinv.pass_next hcross hkind hts.1 hts.2
    case isFalse => exact .pure fun _ hts => hts.1
  exact haccept.bind fun found => by cases found <;> assumption

theorem Kept.identifier : Yields inv due identifier (fun _ => True) due := by
  refine Meets.peek fun kind => ?_
  split
  · exact hinv.skip rfl nofun (Yields.pure trivial)
  · exact .failure

theorem Kept.fieldName : Yields inv due fieldName (fun _ => True) due := by
  refine Meets.peek fun kind => ?_
  split
  · exact hinv.skip rfl nofun (Yields.pure trivial)
  · exact hinv.skip rfl nofun (Yields.pure trivial)
  · exact .failure

theorem Kept.propertyKey : Yields inv due propertyKey (fun _ => True) due := by
  refine Meets.peek fun kind => ?_
  split
  · exact hinv.skip rfl nofun (Yields.pure trivial)
  · exact hinv.skip rfl nofun (Yields.pure trivial)
  · exact .left (hinv.fieldName.before fun _ => Yields.pure trivial)

theorem Kept.endStatement : Yields inv due endStatement (fun _ => True) due := by
  refine Meets.get fun ts hts => ?_
  split
  case h_2 => exact .pure fun _ h => ⟨trivial, h ▸ hts⟩
  case h_1 t rest =>
    have hstay : Meets (· = t :: rest) (pure () : Reader Unit) fun _ ts => True ∧ inv due ts :=
      .pure fun _ h => ⟨trivial, h ▸ hts⟩
    have hpass : t.kind.cross due = some due →
        Meets (· = t :: rest) (set rest : Reader Unit) fun _ ts => True ∧ inv due ts := by
      rintro hcross _ _ _ - ⟨⟩
      exact ⟨trivial, hinv.pass hts hcross⟩
    split
    case h_1 hkind => exact hpass (by rw [hkind]; rfl)
    case h_2 hkind => exact hpass (by rw [hkind]; rfl)
    case h_3 | h_4 => exact hstay
    case h_5 =>
      split
      · exact hstay
      · exact .failure

theorem Kept.optionalLabel : Yields inv due optionalLabel (fun _ => True) due := by
  have hend : ∀ label : Option String, Yields inv due
      (Reader.endStatement >>= fun _ => pure label) (fun _ => True) due :=
    fun _ => hinv.endStatement.before fun _ => Yields.pure trivial
  refine Meets.peek fun kind => ?_
  simp only [pure_bind]
  split
  · exact hinv.skip rfl nofun (hend _)
  · exact .left (hend _)

theorem Kept.commas (fuel : Nat) : Yields inv due (commas fuel) (fun _ => True) due := by
  induction fuel with
  | zero => exact .failure
  | succ fuel ih =>
    exact hinv.accept rfl nofun (ih.before fun _ => Yields.pure trivial) (Yields.pure trivial)

theorem Kept.moreNames (fuel : Nat) : Yields inv due (moreNames fuel) (fun _ => True) due := by
  induction fuel with
  | zero => exact .failure
  | succ fuel ih =>
    refine hinv.accept rfl nofun ?_ (Yields.pure trivial)
    exact hinv.identifier.before fun _ => ih.before fun _ => Yields.pure trivial

theorem Kept.params (fuel : Nat) : Yields inv due (params fuel) (fun _ => True) due := by
  refine (hinv.expectMark rfl).before fun _ => ?_
  refine hinv.accept rfl nofun (Yields.pure trivial) ?_
  refine hinv.identifier.before fun _ => (hinv.moreNames fuel).before fun _ => ?_
  exact (hinv.expectMark rfl).before fun _ => Yields.pure trivial

end

/-! ## Operators -/

section
variable {due : List Mark} {kind : TokenKind}

/-- The token neither opens nor closes a bracket, and is not the end. -/
def Crossed (kind : TokenKind) : Prop :=
  kind ≠ .eof ∧ ∀ due, kind.cross due = some due

theorem crossed_of_unary {op : UnaryOp} (h : UnaryOp.ofToken? kind = some op) : Crossed kind := by
  unfold UnaryOp.ofToken? at h
  split at h
  case h_10 => cases h
  all_goals exact ⟨nofun, fun _ => rfl⟩

theorem crossed_of_step {op : StepOp} (h : StepOp.ofToken? kind = some op) : Crossed kind := by
  unfold StepOp.ofToken? at h
  split at h
  case h_3 => cases h
  all_goals exact ⟨nofun, fun _ => rfl⟩

theorem crossed_of_binary {place : Place} {op : BinaryOp}
    (h : BinaryOp.ofToken? place kind = some op) : Crossed kind := by
  unfold BinaryOp.ofToken? at h
  split at h
  case h_4 => cases h
  all_goals exact ⟨nofun, fun _ => rfl⟩

theorem crossed_of_assign {op : AssignOp} (h : AssignOp.ofToken? kind = some op) :
    Crossed kind := by
  unfold AssignOp.ofToken? at h
  split at h
  case h_2 => cases h
  case h_1 => exact ⟨nofun, fun _ => rfl⟩

end

/-! ## One level of reading -/

section
variable (inv : List Mark → List Token → Prop) (pairs : Stmt → List Stmt → Prop)

/-- Reading with this bound on the depth of calls keeps the property and gives paired trees. -/
structure Upholds (fuel : Nat) : Prop where
  expr : ∀ (place : Place) (due : List Mark),
    Yields inv due (expr fuel place) (Expr.Paired pairs) due
  commaTail : ∀ (place : Place) (due : List Mark) {left : Expr}, left.Paired pairs →
    Yields inv due (commaTail fuel place left) (Expr.Paired pairs) due
  assignment : ∀ (place : Place) (due : List Mark),
    Yields inv due (assignment fuel place) (Expr.Paired pairs) due
  assignmentTail : ∀ (place : Place) (due : List Mark) {left : Expr}, left.Paired pairs →
    Yields inv due (assignmentTail fuel place left) (Expr.Paired pairs) due
  operators : ∀ (place : Place) (due : List Mark) {first : Expr}, first.Paired pairs →
    Yields inv due (operators fuel place first) (Expr.Paired pairs) due
  binaryTail : ∀ (place : Place) (level : Nat) (due : List Mark) {left : Expr},
    left.Paired pairs → Yields inv due (binaryTail fuel place level left) (Expr.Paired pairs) due
  unary : ∀ due : List Mark, Yields inv due (unary fuel) (Expr.Paired pairs) due
  leftHandSide : ∀ due : List Mark, Yields inv due (leftHandSide fuel) (Expr.Paired pairs) due
  callTail : ∀ (due : List Mark) {e : Expr}, e.Paired pairs →
    Yields inv due (callTail fuel e) (Expr.Paired pairs) due
  memberTail : ∀ (due : List Mark) {e : Expr}, e.Paired pairs →
    Yields inv due (memberTail fuel e) (Expr.Paired pairs) due
  construction : ∀ due : List Mark, Yields inv due (construction fuel) (Expr.Paired pairs) due
  arguments : ∀ due : List Mark, Yields inv due (arguments fuel) (PairedExprs pairs) due
  moreArguments : ∀ due : List Mark,
    Yields inv (.rparen :: due) (moreArguments fuel) (PairedExprs pairs) due
  primary : ∀ due : List Mark, Yields inv due (primary fuel) (Expr.Paired pairs) due
  arrayItems : ∀ due : List Mark,
    Yields inv (.rbracket :: due) (arrayItems fuel) (PairedItems pairs) due
  objectProperties : ∀ due : List Mark,
    Yields inv (.rbrace :: due) (objectProperties fuel) (PairedProperties pairs) due
  property : ∀ due : List Mark, Yields inv due (property fuel) (Property.Paired pairs) due
  braced : ∀ due : List Mark, Yields inv due (braced fuel) (PairedAll pairs) due
  statements : ∀ due : List Mark, Yields inv due (statements fuel) (PairedAll pairs) due
  statement : ∀ due : List Mark, Yields inv due (statement fuel) (Stmt.Paired pairs) due
  expressionStatement : ∀ due : List Mark,
    Yields inv due (expressionStatement fuel) (Stmt.Paired pairs) due
  functionStatement : ∀ due : List Mark,
    Meets (fun ts => inv due ts ∧ nextKind ts = .keyword .function) (functionStatement fuel)
      fun s ts => s.Paired pairs ∧ inv due ts
  parenthesized : ∀ due : List Mark, Yields inv due (parenthesized fuel) (Expr.Paired pairs) due
  bindings : ∀ (place : Place) (due : List Mark),
    Yields inv due (bindings fuel place) (PairedBindings pairs) due
  ifTail : ∀ due : List Mark, Yields inv due (ifTail fuel) (Stmt.Paired pairs) due
  forTail : ∀ due : List Mark, Yields inv due (forTail fuel) (Stmt.Paired pairs) due
  loopInTail : ∀ due : List Mark, Yields inv (.rparen :: due) (loopInTail fuel)
    (fun (collection, body) => collection.Paired pairs ∧ body.Paired pairs) due
  loopTail : ∀ (due : List Mark) {start : LoopStart}, start.Paired pairs →
    Yields inv (.rparen :: due) (loopTail fuel start) (Stmt.Paired pairs) due
  clauses : ∀ due : List Mark, Yields inv due (clauses fuel) (PairedClauses pairs) due
  tryTail : ∀ due : List Mark, Yields inv due (tryTail fuel) (Stmt.Paired pairs) due

end

section
variable {inv : List Mark → List Token → Prop} {pairs : Stmt → List Stmt → Prop} {fuel : Nat}
  {due : List Mark} {place : Place} (hinv : Kept inv)

theorem upholds_zero : Upholds inv pairs 0 := by
  constructor
  all_goals
    intros
    exact Meets.failure

include hinv in
theorem Kept.stepTail {e : Expr} (he : e.Paired pairs) :
    Yields inv due (stepTail e) (Expr.Paired pairs) due := by
  refine Meets.peek fun kind => ?_
  split
  case h_1 op hop =>
    obtain ⟨hkind, hcross⟩ := crossed_of_step hop
    exact hinv.skip (hcross due) hkind (Yields.pure he)
  case h_2 => exact .left (Yields.pure he)

variable (h : Upholds inv pairs fuel)

/-! ### Expressions -/

include h in
theorem Upholds.expr_succ :
    Yields inv due (Reader.expr (fuel + 1) place) (Expr.Paired pairs) due := by
  rw [Reader.expr]
  exact (h.assignment _ _).andThen fun _ he => h.commaTail _ _ he

include hinv h

theorem Upholds.commaTail_succ {left : Expr} (hleft : left.Paired pairs) :
    Yields inv due (Reader.commaTail (fuel + 1) place left) (Expr.Paired pairs) due := by
  rw [Reader.commaTail]
  refine hinv.accept rfl nofun ?_ (Yields.pure hleft)
  exact (h.assignment _ _).andThen fun _ hright => h.commaTail _ _ (And.intro hleft hright)

omit hinv in
theorem Upholds.assignment_succ :
    Yields inv due (Reader.assignment (fuel + 1) place) (Expr.Paired pairs) due := by
  rw [Reader.assignment]
  refine Meets.peek fun kind => .left ?_
  split
  · exact (h.unary _).andThen fun _ he => h.operators _ _ he
  · exact (h.leftHandSide _).andThen fun _ hleft => h.assignmentTail _ _ hleft

theorem Upholds.assignmentTail_succ {left : Expr} (hleft : left.Paired pairs) :
    Yields inv due (Reader.assignmentTail (fuel + 1) place left) (Expr.Paired pairs) due := by
  rw [Reader.assignmentTail]
  refine Meets.peek fun kind => ?_
  split
  case h_1 op hop =>
    obtain ⟨hkind, hcross⟩ := crossed_of_assign hop
    refine hinv.skip (hcross due) hkind ?_
    exact (h.assignment _ _).andThen fun _ hright => Yields.pure (And.intro hleft hright)
  case h_2 => exact .left ((hinv.stepTail hleft).andThen fun _ he => h.operators _ _ he)

theorem Upholds.operators_succ {first : Expr} (hfirst : first.Paired pairs) :
    Yields inv due (Reader.operators (fuel + 1) place first) (Expr.Paired pairs) due := by
  rw [Reader.operators]
  refine (h.binaryTail _ _ _ hfirst).andThen fun e he => ?_
  refine hinv.accept rfl nofun ?_ (Yields.pure he)
  refine (h.assignment _ _).andThen fun yes hyes => (hinv.expectMark rfl).before fun _ => ?_
  exact (h.assignment _ _).andThen fun no hno => Yields.pure (And.intro he (And.intro hyes hno))

theorem Upholds.binaryTail_succ {level : Nat} {left : Expr} (hleft : left.Paired pairs) :
    Yields inv due (Reader.binaryTail (fuel + 1) place level left) (Expr.Paired pairs) due := by
  rw [Reader.binaryTail]
  refine Meets.peek fun kind => ?_
  split
  case h_1 op hop =>
    split
    · obtain ⟨hkind, hcross⟩ := crossed_of_binary hop
      refine hinv.skip (hcross due) hkind (Meets.peek fun next => .left ?_)
      dsimp only
      split
      · exact .failure_bind
      · refine (h.unary _).andThen fun operand hoperand => ?_
        refine (h.binaryTail _ _ _ hoperand).andThen fun right hright => ?_
        exact h.binaryTail _ _ _ (And.intro hleft hright)
    · exact .left (Yields.pure hleft)
  case h_2 => exact .left (Yields.pure hleft)

theorem Upholds.unary_succ :
    Yields inv due (Reader.unary (fuel + 1)) (Expr.Paired pairs) due := by
  rw [Reader.unary]
  refine Meets.peek fun kind => ?_
  split
  case h_1 op hop =>
    obtain ⟨hkind, hcross⟩ := crossed_of_unary hop
    refine hinv.skip (hcross due) hkind ?_
    exact (h.unary _).andThen fun _ hoperand => Yields.pure hoperand
  case h_2 => exact .left ((h.leftHandSide _).andThen fun _ he => hinv.stepTail he)

omit hinv in
theorem Upholds.leftHandSide_succ :
    Yields inv due (Reader.leftHandSide (fuel + 1)) (Expr.Paired pairs) due := by
  rw [Reader.leftHandSide]
  exact (h.construction _).andThen fun _ hbase => h.callTail _ hbase

theorem Upholds.callTail_succ {e : Expr} (he : e.Paired pairs) :
    Yields inv due (Reader.callTail (fuel + 1) e) (Expr.Paired pairs) due := by
  rw [Reader.callTail]
  refine Meets.peek fun kind => ?_
  split
  · refine hinv.skip rfl nofun (hinv.fieldName.before fun _ => ?_)
    exact h.callTail _ he
  · refine hinv.skip rfl nofun ((h.expr _ _).andThen fun position hposition => ?_)
    exact (hinv.expectMark rfl).before fun _ => h.callTail _ (And.intro he hposition)
  · refine .left ((h.arguments _).andThen fun args hargs => ?_)
    exact h.callTail _ (And.intro he hargs)
  · exact .left (Yields.pure he)

theorem Upholds.memberTail_succ {e : Expr} (he : e.Paired pairs) :
    Yields inv due (Reader.memberTail (fuel + 1) e) (Expr.Paired pairs) due := by
  rw [Reader.memberTail]
  refine Meets.peek fun kind => ?_
  split
  · refine hinv.skip rfl nofun (hinv.fieldName.before fun _ => ?_)
    exact h.memberTail _ he
  · refine hinv.skip rfl nofun ((h.expr _ _).andThen fun position hposition => ?_)
    exact (hinv.expectMark rfl).before fun _ => h.memberTail _ (And.intro he hposition)
  · exact .left (Yields.pure he)

theorem Upholds.construction_succ :
    Yields inv due (Reader.construction (fuel + 1)) (Expr.Paired pairs) due := by
  rw [Reader.construction]
  refine hinv.accept rfl nofun ?_ (h.primary _)
  refine (h.construction _).andThen fun base hbase => ?_
  refine (h.memberTail _ hbase).andThen fun callee hcallee => Meets.peek fun next => .left ?_
  split
  · exact (h.arguments _).andThen fun _ hargs => Yields.pure (And.intro hcallee hargs)
  · exact Yields.pure hcallee

theorem Upholds.arguments_succ :
    Yields inv due (Reader.arguments (fuel + 1)) (PairedExprs pairs) due := by
  rw [Reader.arguments]
  refine (hinv.expectMark rfl).before fun _ => ?_
  refine hinv.accept rfl nofun (Yields.pure trivial) ?_
  refine (h.assignment _ _).andThen fun first hfirst => ?_
  exact (h.moreArguments _).andThen fun rest hrest => Yields.pure (And.intro hfirst hrest)

theorem Upholds.moreArguments_succ :
    Yields inv (.rparen :: due) (Reader.moreArguments (fuel + 1)) (PairedExprs pairs) due := by
  rw [Reader.moreArguments]
  refine hinv.accept rfl nofun ?_ ((hinv.expectMark rfl).before fun _ => Yields.pure trivial)
  refine (h.assignment _ _).andThen fun arg harg => ?_
  exact (h.moreArguments _).andThen fun rest hrest => Yields.pure (And.intro harg hrest)

theorem Upholds.primary_succ :
    Yields inv due (Reader.primary (fuel + 1)) (Expr.Paired pairs) due := by
  rw [Reader.primary]
  refine Meets.get fun ts hts => ?_
  split
  case h_1 => exact .failure
  case h_2 t rest =>
    have hpass : ∀ {due' : List Mark} {g : Unit → Reader Expr}, t.kind.cross due = some due' →
        Meets (inv due') (g ()) (fun e ts => e.Paired pairs ∧ inv due ts) →
        Meets (· = t :: rest) (set rest >>= g) fun e ts => e.Paired pairs ∧ inv due ts := by
      intro due' g hcross hg
      exact .set (hg.mono fun _ hts' => hts' ▸ hinv.pass hts hcross)
    split
    case h_9 hkind =>
      refine hpass (by rw [hkind]; rfl) (Meets.peek fun kind => ?_)
      have hfunction : ∀ name : Option String, Yields inv due
          (params fuel >>= fun ps => Reader.braced fuel >>= fun body => pure (.func name ps body))
          (Expr.Paired pairs) due := fun _ => (hinv.params fuel).before fun _ =>
        (h.braced _).andThen fun _ hbody => Yields.pure hbody
      simp only [pure_bind]
      split
      · exact hinv.skip rfl nofun (hfunction _)
      · exact .left (hfunction _)
    case h_10 hkind =>
      refine hpass (by rw [hkind]; rfl) ((h.expr _ _).andThen fun inner hinner => ?_)
      refine (hinv.expectMark rfl).before fun _ => Yields.pure ?_
      unfold Expr.grouped
      split <;> exact hinner
    case h_11 hkind =>
      refine hpass (by rw [hkind]; rfl) ?_
      exact (h.arrayItems _).andThen fun _ hitems => Yields.pure hitems
    case h_12 hkind =>
      refine hpass (by rw [hkind]; rfl) ?_
      exact (h.objectProperties _).andThen fun _ hproperties => Yields.pure hproperties
    case h_13 =>
      split
      case h_1 text more hretry =>
        exact .set (.pure fun _ h => ⟨trivial, h ▸ hinv.retry hts hretry⟩)
      case h_2 => exact .failure
    case h_14 => exact .failure
    all_goals
      rename_i hkind
      exact hpass (by rw [hkind]; rfl) (Yields.pure trivial)

theorem Upholds.arrayItems_succ :
    Yields inv (.rbracket :: due) (Reader.arrayItems (fuel + 1)) (PairedItems pairs) due := by
  have hmissing : ∀ {count : Nat} {items : List Item}, PairedItems pairs items →
      PairedItems pairs ((if count = 0 then [] else [Item.elision count]) ++ items) := by
    intro count items hitems
    split <;> exact hitems
  rw [Reader.arrayItems]
  refine (hinv.commas fuel).before fun count => ?_
  refine hinv.accept rfl nofun (Yields.pure ?_) ?_
  · split <;> exact trivial
  · refine (h.assignment _ _).andThen fun e he => hinv.accept rfl nofun ?_ ?_
    · exact (h.arrayItems _).andThen fun _ hrest => Yields.pure (hmissing (And.intro he hrest))
    · exact (hinv.expectMark rfl).before fun _ => Yields.pure (hmissing (And.intro he trivial))

theorem Upholds.objectProperties_succ : Yields inv (.rbrace :: due)
    (Reader.objectProperties (fuel + 1)) (PairedProperties pairs) due := by
  rw [Reader.objectProperties]
  refine hinv.accept rfl nofun (Yields.pure trivial) ?_
  refine (h.property _).andThen fun p hp => hinv.accept rfl nofun ?_ ?_
  · exact (h.objectProperties _).andThen fun _ hrest => Yields.pure (And.intro hp hrest)
  · exact (hinv.expectMark rfl).before fun _ => Yields.pure (And.intro hp trivial)

theorem Upholds.property_succ :
    Yields inv due (Reader.property (fuel + 1)) (Property.Paired pairs) due := by
  rw [Reader.property]
  refine hinv.accept rfl nofun ?_ (hinv.accept rfl nofun ?_ ?_)
  · refine hinv.propertyKey.before fun _ => (hinv.expectMark rfl).before fun _ => ?_
    refine (hinv.expectMark rfl).before fun _ => ?_
    exact (h.braced _).andThen fun _ hbody => Yields.pure hbody
  · refine hinv.propertyKey.before fun _ => (hinv.expectMark rfl).before fun _ => ?_
    refine hinv.identifier.before fun _ => (hinv.expectMark rfl).before fun _ => ?_
    exact (h.braced _).andThen fun _ hbody => Yields.pure hbody
  · refine hinv.propertyKey.before fun _ => (hinv.expectMark rfl).before fun _ => ?_
    exact (h.assignment _ _).andThen fun _ hvalue => Yields.pure hvalue

/-! ### Statements -/

theorem Upholds.braced_succ :
    Yields inv due (Reader.braced (fuel + 1)) (PairedAll pairs) due := by
  rw [Reader.braced]
  refine (hinv.expectMark rfl).before fun _ => (h.statements _).andThen fun body hbody => ?_
  exact (hinv.expectMark rfl).before fun _ => Yields.pure hbody

theorem Upholds.statement_succ :
    Yields inv due (Reader.statement (fuel + 1)) (Stmt.Paired pairs) due := by
  rw [Reader.statement]
  refine Meets.peek fun kind => ?_
  split
  case h_1 => exact .left ((h.braced _).andThen fun _ hbody => Yields.pure hbody)
  case h_2 => exact hinv.skip rfl nofun (Yields.pure trivial)
  case h_3 word =>
    have hword : ∀ {g : Reader Stmt}, Yields inv due g (Stmt.Paired pairs) due →
        Meets (fun ts => inv due ts ∧ nextKind ts = .keyword word) (skip >>= fun _ => g)
          fun s ts => s.Paired pairs ∧ inv due ts := fun hg => hinv.skip rfl nofun hg
    split
    · refine hword ((h.bindings _ _).andThen fun _ hbindings => ?_)
      exact hinv.endStatement.before fun _ => Yields.pure hbindings
    · exact hword (h.ifTail _)
    · exact hword (h.forTail _)
    · refine hword ((h.parenthesized _).andThen fun _ htest => ?_)
      exact (h.statement _).andThen fun _ hbody => Yields.pure (And.intro htest hbody)
    · refine hword ((h.statement _).andThen fun _ hbody => ?_)
      refine (hinv.expectWord _).before fun _ => (h.parenthesized _).andThen fun _ htest => ?_
      exact hinv.endStatement.before fun _ => Yields.pure (And.intro hbody htest)
    · exact hword (hinv.optionalLabel.before fun _ => Yields.pure trivial)
    · exact hword (hinv.optionalLabel.before fun _ => Yields.pure trivial)
    · refine hword (Meets.peek fun next => .left ?_)
      split
      · refine (h.expr _ _).andThen fun _ hvalue => ?_
        exact hinv.endStatement.before fun _ => Yields.pure hvalue
      · exact hinv.endStatement.before fun _ => Yields.pure trivial
    · refine hword ((h.parenthesized _).andThen fun _ hscope => ?_)
      exact (h.statement _).andThen fun _ hbody => Yields.pure (And.intro hscope hbody)
    · refine hword ((h.parenthesized _).andThen fun _ hsubject => ?_)
      refine (hinv.expectMark rfl).before fun _ => (h.clauses _).andThen fun _ hclauses => ?_
      refine (hinv.expectMark rfl).before fun _ => ?_
      split
      · exact .failure
      · exact Yields.pure (And.intro hsubject hclauses)
    · refine hword ((h.expr _ _).andThen fun _ hvalue => ?_)
      exact hinv.endStatement.before fun _ => Yields.pure hvalue
    · exact hword (hinv.endStatement.before fun _ => Yields.pure trivial)
    · exact hword (h.tryTail _)
    · exact h.functionStatement _
    · exact .left (h.expressionStatement _)
  case h_4 id =>
    refine Meets.peekSecond fun second => ?_
    split
    case isTrue hsecond =>
      subst hsecond
      refine hinv.skipTwo rfl rfl nofun nofun ?_
      exact (h.statement _).andThen fun _ hbody => Yields.pure hbody
    case isFalse => exact .left (.left (h.expressionStatement _))
  case h_5 => exact .left (h.expressionStatement _)

theorem Upholds.expressionStatement_succ :
    Yields inv due (Reader.expressionStatement (fuel + 1)) (Stmt.Paired pairs) due := by
  rw [Reader.expressionStatement]
  refine (h.expr _ _).andThen fun e he => hinv.endStatement.before fun _ => ?_
  split
  · exact .failure
  · exact Yields.pure he

theorem Upholds.functionStatement_succ :
    Meets (fun ts => inv due ts ∧ nextKind ts = .keyword .function)
      (Reader.functionStatement (fuel + 1)) fun s ts => s.Paired pairs ∧ inv due ts := by
  rw [Reader.functionStatement]
  refine Meets.peekSecond fun second => ?_
  split
  case h_1 id =>
    refine hinv.skipTwo rfl rfl nofun nofun ((hinv.params fuel).before fun ps => ?_)
    refine (h.braced _).andThen fun body hbody => Meets.peek fun next => .left ?_
    split
    · have hfunction : (Expr.func (some id) ps body).Paired pairs := hbody
      refine (h.callTail _ hfunction).andThen fun _ hleft => ?_
      refine (h.assignmentTail _ _ hleft).andThen fun _ he => ?_
      refine (h.commaTail _ _ he).andThen fun _ he => ?_
      exact hinv.endStatement.before fun _ => Yields.pure he
    · exact Yields.pure hbody
  case h_2 => exact .left (.left (h.expressionStatement _))

theorem Upholds.parenthesized_succ :
    Yields inv due (Reader.parenthesized (fuel + 1)) (Expr.Paired pairs) due := by
  rw [Reader.parenthesized]
  refine (hinv.expectMark rfl).before fun _ => (h.expr _ _).andThen fun _ he => ?_
  exact (hinv.expectMark rfl).before fun _ => Yields.pure he

theorem Upholds.bindings_succ :
    Yields inv due (Reader.bindings (fuel + 1) place) (PairedBindings pairs) due := by
  have hmore : ∀ {b : Binding}, b.Paired pairs → Yields inv due
      (accept (.mark .comma) >>= fun found => if found = true then
        Reader.bindings fuel place >>= fun rest => pure (b :: rest) else pure [b])
      (PairedBindings pairs) due := by
    intro b hb
    refine hinv.accept rfl nofun ?_ (Yields.pure (And.intro hb trivial))
    exact (h.bindings _ _).andThen fun _ hrest => Yields.pure (And.intro hb hrest)
  rw [Reader.bindings]
  refine hinv.identifier.before fun name => ?_
  simp only [pure_bind]
  refine hinv.accept rfl nofun ?_ (hmore trivial)
  exact (h.assignment _ _).andThen fun _ hvalue => hmore hvalue

theorem Upholds.ifTail_succ :
    Yields inv due (Reader.ifTail (fuel + 1)) (Stmt.Paired pairs) due := by
  rw [Reader.ifTail]
  refine (h.parenthesized _).andThen fun _ htest => (h.statement _).andThen fun _ hyes => ?_
  refine hinv.accept rfl nofun ?_ (Yields.pure (And.intro htest hyes))
  exact (h.statement _).andThen fun _ hno =>
    Yields.pure (And.intro htest (And.intro hyes hno))

theorem Upholds.forTail_succ :
    Yields inv due (Reader.forTail (fuel + 1)) (Stmt.Paired pairs) due := by
  have hplain : ∀ {start : LoopStart}, start.Paired pairs → Yields inv (.rparen :: due)
      (expectMark .semi >>= fun _ => Reader.loopTail fuel start) (Stmt.Paired pairs) due :=
    fun hstart => (hinv.expectMark rfl).before fun _ => h.loopTail _ hstart
  rw [Reader.forTail]
  refine (hinv.expectMark rfl).before fun _ => Meets.peek fun kind => ?_
  split
  case isTrue hkind =>
    subst hkind
    exact hinv.skip rfl nofun (h.loopTail _ trivial)
  case isFalse =>
    split
    case isTrue hkind =>
      subst hkind
      refine hinv.skip rfl nofun ((h.bindings _ _).andThen fun declared hdeclared => ?_)
      split
      · refine hinv.accept rfl nofun ?_ (hplain hdeclared)
        exact (h.loopInTail _).andThen fun _ hrest => Yields.pure (And.intro hdeclared.1 hrest)
      · exact hplain hdeclared
    case isFalse =>
      refine .left ?_
      split
      · exact (h.expr _ _).andThen fun _ he => hplain he
      · refine (h.leftHandSide _).andThen fun _ hleft => hinv.accept rfl nofun ?_ ?_
        · exact (h.loopInTail _).andThen fun _ hrest => Yields.pure (And.intro hleft hrest)
        · refine (h.assignmentTail _ _ hleft).andThen fun _ he => ?_
          exact (h.commaTail _ _ he).andThen fun _ he => hplain he

theorem Upholds.loopInTail_succ : Yields inv (.rparen :: due) (Reader.loopInTail (fuel + 1))
    (fun (collection, body) => collection.Paired pairs ∧ body.Paired pairs) due := by
  rw [Reader.loopInTail]
  refine (h.expr _ _).andThen fun _ hcollection => (hinv.expectMark rfl).before fun _ => ?_
  exact (h.statement _).andThen fun _ hbody => Yields.pure (And.intro hcollection hbody)

theorem Upholds.loopTail_succ {start : LoopStart} (hstart : start.Paired pairs) :
    Yields inv (.rparen :: due) (Reader.loopTail (fuel + 1) start) (Stmt.Paired pairs) due := by
  rw [Reader.loopTail]
  simp only [pure_bind]
  have hbody : ∀ {test next : Option Expr}, PairedOptional pairs test →
      PairedOptional pairs next → Yields inv due
      (Reader.statement fuel >>= fun body => pure (.loop start test next body))
      (Stmt.Paired pairs) due := fun htest hnext => (h.statement _).andThen fun _ hbody =>
    Yields.pure (And.intro hstart (And.intro htest (And.intro hnext hbody)))
  have hnext : ∀ {test : Option Expr}, PairedOptional pairs test → Yields inv (.rparen :: due)
      (accept (.mark .rparen) >>= fun found => if found = true then
          Reader.statement fuel >>= fun body => pure (.loop start test none body)
        else Reader.expr fuel .free >>= fun e => expectMark .rparen >>= fun _ =>
          Reader.statement fuel >>= fun body => pure (.loop start test (some e) body))
      (Stmt.Paired pairs) due := by
    intro test htest
    refine hinv.accept rfl nofun (hbody htest trivial) ?_
    exact (h.expr _ _).andThen fun _ he => (hinv.expectMark rfl).before fun _ => hbody htest he
  refine hinv.accept rfl nofun (hnext trivial) ?_
  exact (h.expr _ _).andThen fun _ he => (hinv.expectMark rfl).before fun _ => hnext he

theorem Upholds.clauses_succ :
    Yields inv due (Reader.clauses (fuel + 1)) (PairedClauses pairs) due := by
  rw [Reader.clauses]
  refine hinv.accept rfl nofun ?_ (hinv.accept rfl nofun ?_ (Yields.pure trivial))
  · refine (h.expr _ _).andThen fun _ hlabel => (hinv.expectMark rfl).before fun _ => ?_
    refine (h.statements _).andThen fun _ hbody => (h.clauses _).andThen fun _ hrest => ?_
    exact Yields.pure (And.intro hlabel (And.intro hbody hrest))
  · refine (hinv.expectMark rfl).before fun _ => (h.statements _).andThen fun _ hbody => ?_
    exact (h.clauses _).andThen fun _ hrest => Yields.pure (And.intro hbody hrest)

theorem Upholds.tryTail_succ :
    Yields inv due (Reader.tryTail (fuel + 1)) (Stmt.Paired pairs) due := by
  rw [Reader.tryTail]
  refine (h.braced _).andThen fun _ hbody => hinv.accept rfl nofun ?_ ?_
  · refine (hinv.expectMark rfl).before fun _ => hinv.identifier.before fun _ => ?_
    refine (hinv.expectMark rfl).before fun _ => (h.braced _).andThen fun _ hhandler => ?_
    refine hinv.accept rfl nofun ?_ (Yields.pure (And.intro hbody hhandler))
    exact (h.braced _).andThen fun _ hfinalizer =>
      Yields.pure (And.intro hbody (And.intro hhandler hfinalizer))
  · refine (hinv.expectWord _).before fun _ => ?_
    exact (h.braced _).andThen fun _ hfinalizer => Yields.pure (And.intro hbody hfinalizer)

end

/-! ### Statements and those behind them -/

section
variable {inv : List Mark → List Token → Prop} {pairs : Stmt → List Stmt → Prop} {fuel : Nat}
  {due : List Mark}

/-- A statement is paired with the statements that are read behind it. -/
def Leads (inv : List Mark → List Token → Prop) (pairs : Stmt → List Stmt → Prop) : Prop :=
  ∀ {fuel : Nat} {due : List Mark} {ts rest left : List Token} {s : Stmt} {ss : List Stmt},
    inv due ts → (statement fuel).run ts = some (s, rest) →
    (statements fuel).run rest = some (ss, left) → pairs s ss

theorem Upholds.statements_succ (h : Upholds inv pairs fuel) (hleads : Leads inv pairs) :
    Yields inv due (Reader.statements (fuel + 1)) (PairedAll pairs) due := by
  rw [Reader.statements]
  refine Meets.peek fun kind => .left ?_
  split
  case h_5 =>
    intro ts ss left hts hrun
    rw [StateT.run_bind] at hrun
    obtain ⟨⟨s, rest⟩, hstatement, hrun⟩ := Option.bind_eq_some_iff.1 hrun
    obtain ⟨⟨more, last⟩, hmore, hss⟩ := Option.bind_eq_some_iff.1 hrun
    cases hss
    obtain ⟨hs, hrest⟩ := h.statement due ts s rest hts hstatement
    obtain ⟨hpaired, hleft⟩ := h.statements due rest more left hrest hmore
    exact ⟨And.intro hs (And.intro (hleads hts hstatement hmore) hpaired), hleft⟩
  all_goals exact Yields.pure trivial

/-- Readers keep what passing tokens keeps. They leave as many brackets due as they found, and the
statements they give are paired with those behind them. -/
theorem upholds (hinv : Kept inv) (hleads : Leads inv pairs) (fuel : Nat) :
    Upholds inv pairs fuel := by
  induction fuel with
  | zero => exact upholds_zero
  | succ fuel h => exact
    { expr := fun _ _ => h.expr_succ
      commaTail := fun _ _ => h.commaTail_succ hinv
      assignment := fun _ _ => h.assignment_succ
      assignmentTail := fun _ _ => h.assignmentTail_succ hinv
      operators := fun _ _ => h.operators_succ hinv
      binaryTail := fun _ _ _ => h.binaryTail_succ hinv
      unary := fun _ => h.unary_succ hinv
      leftHandSide := fun _ => h.leftHandSide_succ
      callTail := fun _ => h.callTail_succ hinv
      memberTail := fun _ => h.memberTail_succ hinv
      construction := fun _ => h.construction_succ hinv
      arguments := fun _ => h.arguments_succ hinv
      moreArguments := fun _ => h.moreArguments_succ hinv
      primary := fun _ => h.primary_succ hinv
      arrayItems := fun _ => h.arrayItems_succ hinv
      objectProperties := fun _ => h.objectProperties_succ hinv
      property := fun _ => h.property_succ hinv
      braced := fun _ => h.braced_succ hinv
      statements := fun _ => h.statements_succ hleads
      statement := fun _ => h.statement_succ hinv
      expressionStatement := fun _ => h.expressionStatement_succ hinv
      functionStatement := fun _ => h.functionStatement_succ hinv
      parenthesized := fun _ => h.parenthesized_succ hinv
      bindings := fun _ _ => h.bindings_succ hinv
      ifTail := fun _ => h.ifTail_succ hinv
      forTail := fun _ => h.forTail_succ hinv
      loopInTail := fun _ => h.loopInTail_succ hinv
      loopTail := fun _ => h.loopTail_succ hinv
      clauses := fun _ => h.clauses_succ hinv
      tryTail := fun _ => h.tryTail_succ hinv }

end

end Reader

end Espalier.Script
