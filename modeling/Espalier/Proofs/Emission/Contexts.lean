import Espalier.Emission.Session

/-!
# Captures and function scopes

Captures and function scopes are nested in any order, and a session keeps what it has to restore in
one stack. Closing a context gives back the session in which it was opened, so the session that is
left when all contexts opened on the way are closed (`closeAll`) is changed by the other steps only:
a fragment is added to it unless a capture is open, and a variable is declared in it unless a
function scope is open (`run_adds`). Main statement: `run_contexts`.
-/

namespace Espalier

/-! ## Temporary variables -/

theorem repr_injective {m n : Nat} (h : m.repr = n.repr) : m = n := by
  have hdigits := congrArg String.toList h
  rw [Nat.toList_repr, Nat.toList_repr] at hdigits
  have hvalue := congrArg (fun digits => Nat.ofDigitChars 10 digits 0) hdigits
  simpa using hvalue

/-- The numeral of a natural number has no sign. -/
theorem repr_ne_negative (m n : Nat) : m.repr ≠ "-" ++ n.repr := by
  intro h
  have hmem : '-' ∈ m.repr.toList := by
    rw [h, String.toList_append]
    exact List.mem_append_left _ (by decide)
  rw [Nat.toList_repr] at hmem
  exact absurd (Nat.isDigit_of_mem_toDigits (by decide) (by decide) hmem) (by decide)

theorem toString_injective : ∀ {i j : Int}, toString i = toString j → i = j
  | .ofNat _, .ofNat _, h => congrArg Int.ofNat (repr_injective h)
  | .ofNat m, .negSucc n, h => absurd h (repr_ne_negative m (n + 1))
  | .negSucc m, .ofNat n, h => absurd h.symm (repr_ne_negative n (m + 1))
  | .negSucc m, .negSucc n, h => by
    have hchars : ("-" ++ (m + 1).repr).toList = ("-" ++ (n + 1).repr).toList :=
      congrArg String.toList h
    rw [String.toList_append, String.toList_append] at hchars
    have hnumeral := repr_injective (String.toList_inj.1 (List.append_cancel_left hchars))
    exact congrArg Int.negSucc (Nat.succ.inj hnumeral)

/-- Variables of different depths have different names. -/
theorem Marker.temporary_injective {depth depth' : Int}
    (h : Marker.temporary depth = Marker.temporary depth') : depth = depth' := by
  have hchars := congrArg String.toList h
  simp only [Marker.temporary, Marker.reserve, String.toList_append] at hchars
  have hnumerals :=
    List.append_cancel_left (List.append_cancel_left (List.append_cancel_right hchars))
  exact toString_injective (String.toList_inj.1 hnumerals)

namespace Emission

/-- The statement that sets the variable of a depth, if there is a value. -/
def assignment (depth : Int) (init : Option String) : List String :=
  (initial? init).toList.map fun value => Marker.temporary depth ++ "=" ++ value ++ ";\n"

/-- The statement that declares the variable of a depth, with its value if there is one. -/
def declaration (depth : Int) (init : Option String) : String :=
  "var " ++ Marker.temporary depth ++ (initial? init).elim "" ("=" ++ ·) ++ ";\n"

/-- A request of a variable sets it if it is there, and else declares it. -/
theorem temporary_fst (s : Emission) (depth : Int) (init : Option String) :
    (s.temporary depth init).1 =
      if Marker.temporary depth ∈ s.declared then s.emit (assignment depth init)
      else { s.emit [declaration depth init] with
        declared := s.declared ++ [Marker.temporary depth] } := by
  unfold temporary assignment declaration
  dsimp only
  split
  · cases initial? init with
    | none => simp [emit]
    | some value => rfl
  · cases initial? init with
    | none => simp
    | some value => simp [String.append_assoc]

/-- The name of a temporary variable depends on the depth only. -/
theorem temporary_snd (s : Emission) (depth : Int) (init : Option String) :
    (s.temporary depth init).2 = Marker.temporary depth := by
  unfold temporary
  dsimp only
  split
  · split <;> rfl
  · rfl

theorem depth_temporary (s : Emission) (depth : Int) (init : Option String) :
    (s.temporary depth init).1.depth = s.depth := by
  rw [temporary_fst]
  split <;> rfl

end Emission

/-- The kinds of contexts. -/
inductive Context.Kind where
  | capture
  | scope
  deriving DecidableEq, Repr

/-- The kind of a context. -/
def Context.kind : Context → Context.Kind
  | .capture _ => .capture
  | .scope _ => .scope

namespace Session

/-! ## Nesting -/

/-- Take steps one after another. -/
def run (s : Session) (steps : List Step) : Session :=
  steps.foldl (fun s step => (s.step step).1) s

/-- The contexts that are open after a step, innermost first. -/
def nest (opened : List Context.Kind) : Step → List Context.Kind
  | .capture => .capture :: opened
  | .scope => .scope :: opened
  | .close => opened.tail
  | _ => opened

/-- The contexts that are open after steps, innermost first. -/
def unclosed (opened : List Context.Kind) (steps : List Step) : List Context.Kind :=
  steps.foldl nest opened

/-- Every step that closes a context finds one open. -/
def wellNested (opened : List Context.Kind) : List Step → Bool
  | [] => true
  | step :: rest => (step != .close || !opened.isEmpty) && wellNested (nest opened step) rest

/-- The steps close the contexts that they open, and no others. -/
structure Balanced (steps : List Step) : Prop where
  nested : wellNested [] steps = true
  closed : unclosed [] steps = []

/-- `segment` is what has been done in one function since it was entered, or since the beginning.
The functions that were entered on the way have been left, and captures may be open. -/
structure Activation (before segment : List Step) : Prop where
  start : before = [] ∨ ∃ earlier, before = earlier ++ [Step.scope]
  nested : wellNested [] segment = true
  current : .scope ∉ unclosed [] segment

/-- The depth whose variable a step requests. -/
def Step.requested : Step → List Int
  | .temporary depth _ => [depth]
  | _ => []

/-- The depths whose variables are requested, apart from those in function scopes that are opened on
the way. -/
def requested (opened : List Context.Kind) : List Step → List Int
  | [] => []
  | step :: rest =>
    (if .scope ∈ opened then [] else step.requested) ++ requested (nest opened step) rest

/-- The fragments that a step adds: those that it emits, or what it takes to have a variable. -/
def appended (s : Session) : Step → List String
  | .emit fragments => fragments
  | .temporary depth init =>
    if Marker.temporary depth ∈ s.emission.declared then Emission.assignment depth init
    else [Emission.declaration depth init]
  | _ => []

/-- The fragments that steps add, apart from those in captures that are opened on the way. -/
def collected (s : Session) (opened : List Context.Kind) : List Step → List String
  | [] => []
  | step :: rest =>
    (if .capture ∈ opened then [] else s.appended step)
      ++ collected (s.step step).1 (nest opened step) rest

/-! ## Additions -/

/-- From `s` to `t` these fragments have been added and these variables declared, if they were not,
and the open contexts are the same. -/
structure Adds (s t : Session) (fragments names : List String) : Prop where
  contexts : t.contexts = s.contexts
  fragments : t.emission.fragments.toList = s.emission.fragments.toList ++ fragments
  declared : ∀ name, name ∈ t.emission.declared ↔ name ∈ s.emission.declared ∨ name ∈ names

section
variable {s t u : Session} {fragments fragments' names names' : List String}
  {opened : List Context.Kind}

theorem Adds.refl (s : Session) : Adds s s [] [] :=
  ⟨rfl, (List.append_nil _).symm, fun _ => by simp⟩

theorem Adds.trans (h : Adds s t fragments names) (h' : Adds t u fragments' names') :
    Adds s u (fragments ++ fragments') (names ++ names') where
  contexts := h'.contexts.trans h.contexts
  fragments := by rw [h'.fragments, h.fragments, List.append_assoc]
  declared name := by rw [h'.declared, h.declared, List.mem_append, or_assoc]

theorem adds_emit (s : Session) (fragments : List String) :
    Adds s (s.step (.emit fragments)).1 fragments [] where
  contexts := rfl
  fragments := by simp [step, Emission.emit]
  declared name := by simp [step, Emission.emit]

/-- What a request adds is an assignment or a declaration. -/
theorem adds_temporary (s : Session) (depth : Int) (init : Option String) :
    Adds s (s.step (.temporary depth init)).1
      (if Marker.temporary depth ∈ s.emission.declared then Emission.assignment depth init
        else [Emission.declaration depth init]) [Marker.temporary depth] := by
  have hstep : (s.step (.temporary depth init)).1
      = { s with emission := (s.emission.temporary depth init).1 } := rfl
  rw [hstep, Emission.temporary_fst]
  split
  case isTrue hmem =>
    refine ⟨rfl, by simp [Emission.emit], fun name => ?_⟩
    rw [List.mem_singleton]
    exact ⟨.inl, fun h => h.elim id fun heq => heq ▸ hmem⟩
  case isFalse => exact ⟨rfl, by simp [Emission.emit], fun name => List.mem_append⟩

/-! ## Closing what is open -/

/-- The innermost contexts are of these kinds. -/
def Opened (opened : List Context.Kind) (s : Session) : Prop :=
  opened <+: s.contexts.map Context.kind

/-- Close as many contexts as there are in the list. -/
def closeAll : List Context.Kind → Session → Session
  | [], s => s
  | _ :: opened, s => closeAll opened (s.step .close).1

theorem Opened.close {kind : Context.Kind} (h : Opened (kind :: opened) s) :
    ∃ context contexts, s.contexts = context :: contexts ∧ context.kind = kind ∧
      Opened opened (s.step .close).1 := by
  obtain ⟨emission, contexts⟩ := s
  cases contexts with
  | nil => cases List.prefix_nil.1 h
  | cons context contexts =>
    obtain ⟨hkind, hopened⟩ := List.cons_prefix_cons.1 h
    refine ⟨context, contexts, rfl, hkind.symm, ?_⟩
    cases context <;> exact hopened

/-- What is added inside a capture is put aside when the capture is closed, and variables that are
declared in a function are forgotten when it is left. -/
theorem Adds.closeAll (h : Adds s t fragments names) (hopened : Opened opened s) :
    Adds (closeAll opened s) (closeAll opened t) (if .capture ∈ opened then [] else fragments)
      (if .scope ∈ opened then [] else names) := by
  induction opened generalizing s t fragments names with
  | nil => exact h
  | cons kind opened ih =>
    obtain ⟨context, contexts, hcontexts, rfl, hopened'⟩ := hopened.close
    have hcontexts' := h.contexts.trans hcontexts
    cases context with
    | capture saved =>
      have hclosed : Adds (s.step .close).1 (t.step .close).1 [] names := by
        simp only [step, hcontexts, hcontexts']
        exact ⟨rfl, (List.append_nil _).symm, h.declared⟩
      simpa [Context.kind, Session.closeAll] using ih hclosed hopened'
    | scope saved =>
      have hclosed : Adds (s.step .close).1 (t.step .close).1 fragments [] := by
        simp only [step, hcontexts, hcontexts']
        exact ⟨rfl, h.fragments, fun name => by simp [Emission.leaveFunction]⟩
      simpa [Context.kind, Session.closeAll] using ih hclosed hopened'

/-- Closing captures changes nothing about the variables of the current function. -/
theorem declared_closeAll (hopened : Opened opened s) (hscope : .scope ∉ opened) :
    (closeAll opened s).emission.declared = s.emission.declared := by
  induction opened generalizing s with
  | nil => rfl
  | cons kind opened ih =>
    rw [List.mem_cons, not_or] at hscope
    obtain ⟨context, contexts, hcontexts, rfl, hopened'⟩ := hopened.close
    cases context with
    | capture saved =>
      refine (ih hopened' hscope.2).trans ?_
      simp only [step, hcontexts]
      rfl
    | scope saved => exact absurd rfl hscope.1

/-! ## Runs -/

/-- A step that neither opens nor closes a context. -/
theorem adds_step (s : Session) {step : Step} (hcapture : step ≠ .capture) (hscope : step ≠ .scope)
    (hclose : step ≠ .close) :
    Adds s (s.step step).1 (s.appended step) (step.requested.map Marker.temporary) := by
  cases step with
  | emit fragments => exact adds_emit s fragments
  | temporary depth init => exact adds_temporary s depth init
  | source => exact .refl s
  | use helper => exact ⟨rfl, (List.append_nil _).symm, (Adds.refl s).declared⟩
  | capture => exact absurd rfl hcapture
  | scope => exact absurd rfl hscope
  | close => exact absurd rfl hclose

/-- A step opens a context, closes the innermost one or adds something inside the open ones. -/
theorem step_adds (step : Step) (hopened : Opened opened s)
    (hnested : (step != .close || !opened.isEmpty) = true) :
    Opened (nest opened step) (s.step step).1 ∧
    Adds (closeAll opened s) (closeAll (nest opened step) (s.step step).1)
      (if .capture ∈ opened then [] else s.appended step)
      ((if .scope ∈ opened then [] else step.requested).map Marker.temporary) := by
  by_cases hcapture : step = .capture
  · subst hcapture
    have hsame : closeAll (.capture :: opened) (s.step .capture).1 = closeAll opened s := rfl
    refine ⟨List.cons_prefix_cons.2 ⟨rfl, hopened⟩, ?_⟩
    simpa [nest, hsame, appended, Step.requested] using Adds.refl (closeAll opened s)
  by_cases hscope : step = .scope
  · subst hscope
    have hsame : closeAll (.scope :: opened) (s.step .scope).1 = closeAll opened s := rfl
    refine ⟨List.cons_prefix_cons.2 ⟨rfl, hopened⟩, ?_⟩
    simpa [nest, hsame, appended, Step.requested] using Adds.refl (closeAll opened s)
  by_cases hclose : step = .close
  · subst hclose
    cases opened with
    | nil => cases hnested
    | cons kind opened =>
      obtain ⟨_, _, -, -, hopened'⟩ := hopened.close
      refine ⟨hopened', ?_⟩
      show Adds (closeAll opened (s.step .close).1) (closeAll opened (s.step .close).1) _ _
      simpa [appended, Step.requested] using Adds.refl (closeAll opened (s.step .close).1)
  have hnest : nest opened step = opened := by cases step <;> first | rfl | contradiction
  have hadds := adds_step s hcapture hscope hclose
  rw [hnest, apply_ite (List.map Marker.temporary)]
  refine ⟨?_, hadds.closeAll hopened⟩
  rw [Opened, hadds.contexts]
  exact hopened

/-- Along a run, what is done inside no capture adds its fragments, and what is done inside no
function scope declares its variables. -/
theorem run_adds (steps : List Step) (hopened : Opened opened s)
    (hnested : wellNested opened steps = true) :
    Opened (unclosed opened steps) (s.run steps) ∧
    Adds (closeAll opened s) (closeAll (unclosed opened steps) (s.run steps))
      (collected s opened steps) ((requested opened steps).map Marker.temporary) := by
  induction steps generalizing s opened with
  | nil => exact ⟨hopened, .refl _⟩
  | cons step steps ih =>
    obtain ⟨hclose, hrest⟩ := Bool.and_eq_true_iff.1 hnested
    obtain ⟨hopened', hstep⟩ := step_adds step hopened hclose
    obtain ⟨hopened'', hsteps⟩ := ih hopened' hrest
    refine ⟨hopened'', ?_⟩
    rw [requested, List.map_append]
    exact hstep.trans hsteps

theorem opened_nil (s : Session) : Opened [] s := List.nil_prefix

/-- Balanced steps come back to the contexts that were open. -/
theorem Balanced.run_adds {steps : List Step} (h : Balanced steps) (s : Session) :
    Adds s (s.run steps) (collected s [] steps) ((requested [] steps).map Marker.temporary) := by
  obtain ⟨-, hadds⟩ := Session.run_adds steps (opened_nil s) h.nested
  rw [h.closed] at hadds
  exact hadds

theorem run_append (s : Session) (steps steps' : List Step) :
    s.run (steps ++ steps') = (s.run steps).run steps' :=
  List.foldl_append

/-- The variable of a depth is declared when it has been requested in the same function. -/
theorem Activation.mem_declared_iff {before segment : List Step} (h : Activation before segment)
    (depth : Int) :
    Marker.temporary depth ∈ (run {} (before ++ segment)).emission.declared ↔
      depth ∈ requested [] segment := by
  have hstart : (run {} before).emission.declared = [] := by
    obtain rfl | ⟨earlier, rfl⟩ := h.start
    · rfl
    · rw [run_append]
      rfl
  obtain ⟨hopened, hadds⟩ := run_adds segment (opened_nil (run {} before)) h.nested
  rw [run_append, ← declared_closeAll hopened h.current, hadds.declared]
  show Marker.temporary depth ∈ (run {} before).emission.declared ∨ _ ↔ _
  rw [hstart, or_iff_right List.not_mem_nil, List.mem_map]
  constructor
  · rintro ⟨depth', hmem, hname⟩
    exact Marker.temporary_injective hname ▸ hmem
  · exact fun hmem => ⟨depth, hmem, rfl⟩

end

/-- In every run from the beginning:

* in each activation of a function the first request of the variable of a depth declares it, and
  each later one sets it if there is a value and does nothing else, and different depths have
  different variables;
* when a function scope is closed, the variables are those that were declared when it was opened;
* when a capture is closed, the fragments are those that were there when it was opened, and what the
  capture gives back are the fragments of the steps since then outside of captures inside it, in
  order. -/
theorem run_contexts :
    (∀ depth depth' : Int, Marker.temporary depth = Marker.temporary depth' → depth = depth') ∧
    (∀ before segment, Activation before segment → ∀ depth init,
      ((run {} (before ++ segment)).step (.temporary depth init)).1.emission.fragments.toList
        = (run {} (before ++ segment)).emission.fragments.toList ++
          if depth ∈ requested [] segment then Emission.assignment depth init
          else [Emission.declaration depth init]) ∧
    (∀ before inside, Balanced inside →
      ((run {} (before ++ .scope :: inside)).step .close).1.emission.declared
        = (run {} before).emission.declared) ∧
    ∀ before inside, Balanced inside →
      ((run {} (before ++ .capture :: inside)).step .close).1.emission.fragments
        = (run {} before).emission.fragments ∧
      ((run {} (before ++ .capture :: inside)).step .close).2
        = .fragments (collected (run {} (before ++ [.capture])) [] inside) := by
  refine ⟨fun _ _ => Marker.temporary_injective, ?_, ?_, ?_⟩
  · intro before segment hactivation depth init
    rw [(adds_temporary _ depth init).fragments]
    simp only [hactivation.mem_declared_iff depth]
  · intro before inside hinside
    have hadds := hinside.run_adds (run {} (before ++ [.scope]))
    have hrun : run {} (before ++ .scope :: inside) = (run {} (before ++ [.scope])).run inside := by
      rw [← run_append, List.append_assoc, List.singleton_append]
    have hcontexts : (run {} (before ++ [.scope])).contexts
        = .scope (run {} before).emission.declared :: (run {} before).contexts := by
      rw [run_append]
      rfl
    rw [hrun, step, hadds.contexts, hcontexts]
    rfl
  · intro before inside hinside
    have hadds := hinside.run_adds (run {} (before ++ [.capture]))
    have hrun : run {} (before ++ .capture :: inside)
        = (run {} (before ++ [.capture])).run inside := by
      rw [← run_append, List.append_assoc, List.singleton_append]
    have hcontexts : (run {} (before ++ [.capture])).contexts
        = .capture (run {} before).emission.fragments :: (run {} before).contexts := by
      rw [run_append]
      rfl
    have hnothing : (run {} (before ++ [.capture])).emission.fragments = #[] := by
      rw [run_append]
      rfl
    have hfragments := hadds.fragments
    rw [hnothing] at hfragments
    rw [hrun, step, hadds.contexts, hcontexts]
    exact ⟨rfl, congrArg Answer.fragments hfragments⟩

/-- A capture inside a function, and functions inside captures: the variable is set in the function
that declared it before the capture, declared again in the function inside, and the outer capture
gives back what was emitted in it, and nothing that went to the inner one. -/
theorem run_contexts_interleaved :
    ((run {} [.temporary 1 none, .scope, .temporary 1 (some "a"), .capture]).step
        (.temporary 1 (some "b"))).1.emission.fragments.toList = ["ǃtmp1＿=b;\n"] ∧
    ((run {} [.temporary 1 none, .scope, .capture, .temporary 2 (some "a"), .close]).step
        .close).1.emission.declared = ["ǃtmp1＿"] ∧
    ((run {} [.emit ["x"], .capture, .emit ["a", "b"], .temporary 1 (some "c"), .scope,
        .temporary 1 none, .capture, .emit ["y"], .close, .emit ["d"], .close]).step .close).2
      = .fragments ["a", "b", "var ǃtmp1＿=c;\n", "var ǃtmp1＿;\n", "d"] := by
  obtain ⟨-, hrequests, hscopes, hcaptures⟩ := run_contexts
  have hactivation : Activation [.temporary 1 none, .scope] [.temporary 1 (some "a"), .capture] :=
    ⟨.inr ⟨[.temporary 1 none], rfl⟩, by decide, by decide⟩
  have hfunction : Balanced [.capture, .temporary 2 (some "a"), .close] :=
    ⟨by decide, by decide⟩
  have hinside : Balanced [.emit ["a", "b"], .temporary 1 (some "c"), .scope, .temporary 1 none,
      .capture, .emit ["y"], .close, .emit ["d"], .close] := ⟨by decide, by decide⟩
  refine ⟨(hrequests _ _ hactivation 1 (some "b")).trans (by decide), ?_, ?_⟩
  · exact (hscopes [.temporary 1 none] _ hfunction).trans (by decide)
  · exact (hcaptures [.emit ["x"]] _ hinside).2.trans (by decide)

end Session

end Espalier
