import Espalier.Proofs.Script.Spine

/-!
# Reading expressions

Names and literals, left-hand sides, groups, arrays, objects and functions are found in their
tokens. Functions take what is said of their bodies as `ReadsStatements`.
-/

namespace Espalier.Script

namespace Reader

/-! ## Names and literals -/

section
variable {e : Expr}

/-- A single token that is an expression. -/
theorem readsLeftSide_atom {kind : TokenKind} (hkinds : e.kinds = [kind]) (hhead : e.head = kind)
    (hunary : UnaryOp.ofToken? kind = none) (hnew : kind ≠ .keyword .new) (hbase : e.base = e)
    (hchain : e.chain = []) (hlinks : e.links = 0)
    (h : ∀ (fuel : Nat) (ks : List TokenKind),
      Goes (primary (fuel + 1)) (kind :: ks) (pure e) ks) : ReadsLeftSide e := by
  refine .of_primary (hhead.symm ▸ hunary)
    (hhead.symm ▸ hnew) hbase hchain hlinks fun fuel ks _ => ?_
  rw [hkinds]
  exact h fuel ks

theorem readsLeftSide_name (id : String) : ReadsLeftSide (.name id) := by
  refine readsLeftSide_atom rfl rfl rfl nofun rfl rfl rfl fun fuel ks => ?_
  refine .primary _ rfl (fun t rest ht => ?_) .refl
  rw [primary, run_bind_of_eq rfl]
  simp only [ht]
  rfl

theorem readsLeftSide_this : ReadsLeftSide .this := by
  refine readsLeftSide_atom rfl rfl rfl nofun rfl rfl rfl fun fuel ks => ?_
  refine .primary _ rfl (fun t rest ht => ?_) .refl
  rw [primary, run_bind_of_eq rfl]
  simp only [ht]
  rfl

theorem readsLeftSide_null : ReadsLeftSide .null := by
  refine readsLeftSide_atom rfl rfl rfl nofun rfl rfl rfl fun fuel ks => ?_
  refine .primary _ rfl (fun t rest ht => ?_) .refl
  rw [primary, run_bind_of_eq rfl]
  simp only [ht]
  rfl

theorem readsLeftSide_bool (value : Bool) : ReadsLeftSide (.bool value) := by
  cases value
  all_goals
    refine readsLeftSide_atom rfl rfl rfl nofun rfl rfl rfl fun fuel ks => ?_
    refine .primary _ rfl (fun t rest ht => ?_) .refl
    rw [primary, run_bind_of_eq rfl]
    simp only [ht]
    rfl

theorem readsLeftSide_number (text : String) : ReadsLeftSide (.number text) := by
  refine readsLeftSide_atom rfl rfl rfl nofun rfl rfl rfl fun fuel ks => ?_
  refine .primary _ rfl (fun t rest ht => ?_) .refl
  rw [primary, run_bind_of_eq rfl]
  simp only [ht]
  rfl

theorem readsLeftSide_string (text : String) : ReadsLeftSide (.string text) := by
  refine readsLeftSide_atom rfl rfl rfl nofun rfl rfl rfl fun fuel ks => ?_
  refine .primary _ rfl (fun t rest ht => ?_) .refl
  rw [primary, run_bind_of_eq rfl]
  simp only [ht]
  rfl

/-- A regular expression is read where it stands as a token and where it stands as a slash. -/
theorem readsLeftSide_regex (text : String) : ReadsLeftSide (.regex text) := by
  refine readsLeftSide_atom rfl rfl rfl nofun rfl rfl rfl fun fuel ks ambiguous ts hts => ?_
  rw [primary]
  generalize hkind : TokenKind.regex text = kind at hts
  cases hts with
  | token t rest =>
    refine ⟨_, _, rest, ?_⟩
    rw [run_bind_of_eq rfl]
    simp only [← hkind]
    rfl
  | regex slash retry rest =>
    cases hkind
    refine ⟨_, _, rest, ?_⟩
    rw [run_bind_of_eq rfl]
    simp only [slash, retry]
    rfl

/-! ## Fields, calls and constructions -/

theorem isBare_of_rank {o : Expr} (h : 14 ≤ o.rank) : o.isBare = false := by
  cases o with
  | newBare => simp [Expr.rank] at h
  | _ => rfl

theorem readsLeftSide_dot {o : Expr} (h : ReadsLeftSide o) (hrank : 14 ≤ o.rank) (field : String) :
    ReadsLeftSide (.dot o field) where
  head := h.head
  base := by
    intro fuel ks hfuel _
    exact h.base fuel ks hfuel fun hbare => by rw [isBare_of_rank hrank] at hbare; cases hbare
  chain := by
    intro fuel ks hfuel
    have hlinks := o.two_mul_links_le
    simp only [Expr.chain, Expr.links, Expr.base, List.length_append, List.length_cons,
      List.length_nil, List.append_assoc, List.cons_append, List.nil_append] at hfuel ⊢
    have hsum : fuel + (o.links + 1) = fuel + 1 + o.links := by omega
    rw [hsum]
    refine (h.chain (fuel + 1) _ (by omega)).trans ?_
    rw [callTail]
    exact .peek rfl (.skip rfl (Goes.fieldName.andThen .refl))
  fields := by
    intro hnot fuel ks hfuel
    have hlinks := o.two_mul_links_le
    simp only [Expr.chain, Expr.links, Expr.base, List.length_append, List.length_cons,
      List.length_nil, List.append_assoc, List.cons_append, List.nil_append] at hfuel ⊢
    have hsum : fuel + (o.links + 1) = fuel + 1 + o.links := by omega
    rw [hsum]
    refine (h.fields hnot (fuel + 1) _ (by omega)).trans ?_
    rw [memberTail]
    exact .peek rfl (.skip rfl (Goes.fieldName.andThen .refl))

theorem readsLeftSide_index {o p : Expr} (h : ReadsLeftSide o) (hrank : 14 ≤ o.rank)
    (hp : ReadsWhole .free p) : ReadsLeftSide (.index o p) where
  head := h.head
  base := by
    intro fuel ks hfuel _
    exact h.base fuel ks hfuel fun hbare => by rw [isBare_of_rank hrank] at hbare; cases hbare
  chain := by
    intro fuel ks hfuel
    have hlinks := o.two_mul_links_le
    simp only [Expr.chain, Expr.links, Expr.base, List.length_append, List.length_cons,
      List.length_nil, List.append_assoc, List.cons_append, List.nil_append] at hfuel ⊢
    have hsum : fuel + (o.links + 1) = fuel + 1 + o.links := by omega
    rw [hsum]
    refine (h.chain (fuel + 1) _ (by omega)).trans ?_
    rw [callTail]
    refine .peek rfl (.skip rfl (.andThen (hp.read (by omega) ?_ (by rintro ⟨⟩)) ?_))
    · exact .separator rfl rfl fun _ => rfl
    · exact Goes.expectMark.andThen .refl
  fields := by
    intro hnot fuel ks hfuel
    have hlinks := o.two_mul_links_le
    simp only [Expr.chain, Expr.links, Expr.base, List.length_append, List.length_cons,
      List.length_nil, List.append_assoc, List.cons_append, List.nil_append] at hfuel ⊢
    have hsum : fuel + (o.links + 1) = fuel + 1 + o.links := by omega
    rw [hsum]
    refine (h.fields hnot (fuel + 1) _ (by omega)).trans ?_
    rw [memberTail]
    refine .peek rfl (.skip rfl (.andThen (hp.read (by omega) ?_ (by rintro ⟨⟩)) ?_))
    · exact .separator rfl rfl fun _ => rfl
    · exact Goes.expectMark.andThen .refl

theorem one_le_length_moreArgKinds (es : List Expr) : 1 ≤ (moreArgKinds es).length := by
  cases es with
  | nil => exact Nat.le_refl 1
  | cons e es => exact Nat.succ_le_succ (Nat.zero_le _)

/-- What follows an argument ends it. -/
theorem ends_moreArgs (place : Place) (e : Expr) (es : List Expr) (ks : List TokenKind) :
    ∃ kind more, moreArgKinds es ++ ks = kind :: more ∧ Ends place e kind := by
  cases es with
  | nil => exact ⟨_, _, rfl, .separator rfl rfl fun _ => rfl⟩
  | cons e es => exact ⟨_, _, rfl, .separator rfl rfl fun _ => rfl⟩

/-- An argument and what follows it. -/
theorem goes_argument {α : Type} {e : Expr} {es : List Expr} (h : ReadsAssignment .free e)
    {fuel : Nat} {ks ks' : List TokenKind} {next : Expr → Reader α} {r : Reader α}
    (hfuel : 16 * e.kinds.length ≤ fuel + 4) (hnext : Goes (next e) (moreArgKinds es ++ ks) r ks') :
    Goes (assignment fuel .free >>= next) (e.kinds ++ (moreArgKinds es ++ ks)) r ks' := by
  obtain ⟨kind, more, hmore, hends⟩ := ends_moreArgs .free e es ks
  rw [hmore] at hnext ⊢
  exact .andThen (h.read hfuel hends) hnext

theorem goes_moreArguments : ∀ {es : List Expr}, (∀ e ∈ es, ReadsAssignment .free e) →
    ∀ {fuel : Nat} (ks : List TokenKind), 16 * (moreArgKinds es).length ≤ fuel + 8 →
      Goes (moreArguments fuel) (moreArgKinds es ++ ks) (pure es) ks
  | [], _, fuel, ks, hfuel => by
    obtain ⟨fuel, rfl⟩ : ∃ more, fuel = more + 1 :=
      ⟨fuel - 1, by simp only [moreArgKinds, List.length_singleton] at hfuel; omega⟩
    rw [moreArguments]
    exact .acceptNot (by rintro ⟨⟩) (by rintro ⟨⟩) (Goes.expectMark.andThen .refl)
  | e :: es, h, fuel, ks, hfuel => by
    obtain ⟨he, hes⟩ := List.forall_mem_cons.1 h
    have hpos := one_le_length_moreArgKinds es
    simp only [moreArgKinds, List.length_cons, List.length_append] at hfuel
    obtain ⟨fuel, rfl⟩ : ∃ more, fuel = more + 1 := ⟨fuel - 1, by omega⟩
    simp only [moreArguments, moreArgKinds, List.cons_append, List.append_assoc]
    refine .accept rfl (goes_argument he (by omega) ?_)
    exact .andThen (goes_moreArguments hes ks (by omega)) .refl

theorem goes_arguments {es : List Expr} (h : ∀ e ∈ es, ReadsAssignment .free e) {fuel : Nat}
    (ks : List TokenKind) (hfuel : 16 * (argKinds es).length ≤ fuel + 8) :
    Goes (arguments fuel) (.mark .lparen :: (argKinds es ++ ks)) (pure es) ks := by
  cases es with
  | nil =>
    obtain ⟨fuel, rfl⟩ : ∃ more, fuel = more + 1 :=
      ⟨fuel - 1, by simp only [argKinds, List.length_singleton] at hfuel; omega⟩
    rw [arguments]
    exact Goes.expectMark.andThen (.accept rfl .refl)
  | cons e es =>
    obtain ⟨he, hes⟩ := List.forall_mem_cons.1 h
    have hpos := one_le_length_moreArgKinds es
    have hlength := e.one_le_length_kinds
    simp only [argKinds, List.length_append] at hfuel
    obtain ⟨fuel, rfl⟩ : ∃ more, fuel = more + 1 := ⟨fuel - 1, by omega⟩
    simp only [arguments, argKinds, List.append_assoc]
    refine Goes.expectMark.andThen ?_
    have hrest : Goes (assignment fuel .free >>= fun first => moreArguments fuel >>= fun rest =>
        pure (first :: rest)) (e.kinds ++ (moreArgKinds es ++ ks)) (pure (e :: es)) ks :=
      goes_argument he (by omega) (.andThen (goes_moreArguments hes ks (by omega)) .refl)
    obtain ⟨more, hmore⟩ := e.kinds_eq_cons
    have hstarts := e.startsExpr_head
    rw [hmore, List.cons_append] at hrest ⊢
    refine .acceptNot (fun heq => ?_) (by rintro ⟨⟩) hrest
    rw [heq] at hstarts
    cases hstarts

theorem readsLeftSide_call {c : Expr} {args : List Expr} (h : ReadsLeftSide c)
    (hrank : 14 ≤ c.rank) (hargs : ∀ e ∈ args, ReadsAssignment .free e) :
    ReadsLeftSide (.call c args) where
  head := h.head
  base := by
    intro fuel ks hfuel _
    exact h.base fuel ks hfuel fun hbare => by rw [isBare_of_rank hrank] at hbare; cases hbare
  chain := by
    intro fuel ks hfuel
    have hlinks := c.two_mul_links_le
    simp only [Expr.chain, Expr.links, Expr.base, List.length_append, List.length_cons,
      List.append_assoc, List.cons_append] at hfuel ⊢
    have hsum : fuel + (c.links + 1) = fuel + 1 + c.links := by omega
    rw [hsum]
    refine (h.chain (fuel + 1) _ (by omega)).trans ?_
    rw [callTail]
    exact .peek rfl (.andThen (goes_arguments hargs ks (by omega)) .refl)
  fields hnot := absurd rfl hnot

/-- The callee of a construction. -/
theorem goes_callee {α : Type} {c : Expr} (h : ReadsLeftSide c) (hrank : c.rank ≠ 14) {fuel : Nat}
    {kind : TokenKind} {ks ks' : List TokenKind} {next : Expr → Reader α} {r : Reader α}
    (hfuel : 16 * c.kinds.length ≤ fuel + 9) (hbare : c.isBare = true → kind.extendsLeft = false)
    (hdot : kind ≠ .mark .dot) (hbracket : kind ≠ .mark .lbracket)
    (hnext : Goes (next c) (kind :: ks) r ks') :
    Goes (construction fuel >>= fun base => memberTail fuel base >>= next) (c.kinds ++ kind :: ks)
      r ks' := by
  have hlinks := c.two_mul_links_le
  have hpos := c.base.one_le_length_kinds
  have hkinds := c.kinds_base_chain
  rw [hkinds, List.length_append] at hfuel
  rw [hkinds, List.append_assoc]
  refine .andThen (h.base fuel _ (by omega) fun hyes => ?_) ?_
  · have hchain : c.chain = [] := by
      cases c with
      | newBare => rfl
      | _ => cases hyes
    exact ⟨kind, ks, by rw [hchain]; rfl, hbare hyes⟩
  · obtain ⟨fuel, rfl⟩ : ∃ more, fuel = more + 1 + c.links := ⟨fuel - c.links - 1, by omega⟩
    refine .andThen ?_ hnext
    exact (h.fields hrank (fuel + 1) _ (by omega)).trans (.memberTail_end hdot hbracket)

theorem readsLeftSide_new {c : Expr} {args : List Expr} (h : ReadsLeftSide c)
    (hrank : 15 ≤ c.rank) (hargs : ∀ e ∈ args, ReadsAssignment .free e) :
    ReadsLeftSide (.new c args) := by
  refine .of_base rfl rfl rfl rfl fun fuel ks hfuel _ => ?_
  have hpos := c.one_le_length_kinds
  simp only [Expr.kinds, List.length_append, List.length_cons, List.append_assoc,
    List.cons_append] at hfuel ⊢
  obtain ⟨fuel, rfl⟩ : ∃ more, fuel = more + 1 := ⟨fuel - 1, by omega⟩
  rw [construction]
  refine .accept rfl (goes_callee h (by omega) (by omega) ?_ (by rintro ⟨⟩) (by rintro ⟨⟩) ?_)
  · rw [isBare_of_rank (by omega)]
    rintro ⟨⟩
  · refine .peek rfl ?_
    exact .andThen (goes_arguments hargs ks (by omega)) .refl

theorem readsLeftSide_newBare {c : Expr} (h : ReadsLeftSide c) (hrank : c.rank ≠ 14) :
    ReadsLeftSide (.newBare c) := by
  refine .of_base rfl rfl rfl rfl fun fuel ks hfuel hbare => ?_
  obtain ⟨kind, more, rfl, hkind⟩ := hbare rfl
  have hpos := c.one_le_length_kinds
  simp only [Expr.kinds, List.length_cons, List.cons_append] at hfuel ⊢
  obtain ⟨fuel, rfl⟩ : ∃ more, fuel = more + 1 := ⟨fuel - 1, by omega⟩
  rw [construction]
  refine .accept rfl (goes_callee h hrank (by omega) (fun _ => hkind) ?_ ?_ ?_)
  · rintro rfl; cases hkind
  · rintro rfl; cases hkind
  · refine .peekAny ?_ ?_
    · rw [if_neg (by rintro rfl; cases hkind)]
      exact .refl
    · intro hregex
      obtain ⟨text, rfl⟩ := TokenKind.exists_of_isRegex hregex
      rfl

/-! ## Groups, arrays and objects -/

theorem readsLeftSide_group {inner : Expr} (h : ReadsWhole .free inner)
    (hgroup : inner.isGroup = false) : ReadsLeftSide (.group inner) := by
  refine .of_primary rfl (by rintro ⟨⟩) rfl rfl rfl fun fuel ks hfuel => ?_
  have hpos := inner.one_le_length_kinds
  simp only [Expr.kinds, List.length_cons, List.length_append, List.length_nil, List.cons_append,
    List.append_assoc, List.nil_append] at hfuel ⊢
  refine .primary (do
    let inner ← expr fuel .free
    expectMark .rparen
    return inner.grouped) rfl (fun t rest ht => ?_) ?_
  · rw [primary, run_bind_of_eq rfl]
    simp only [ht]
    rfl
  · have hgrouped : inner.grouped = .group inner := by
      cases inner with
      | group => cases hgroup
      | _ => rfl
    refine .andThen (h.read (by omega) (.separator rfl rfl fun _ => rfl) (by rintro ⟨⟩)) ?_
    refine Goes.expectMark.andThen ?_
    rw [hgrouped]
    exact .refl

/-- The values among the items are read. -/
theorem goes_arrayValue {e : Expr} {rest : List Item} (he : ReadsAssignment .free e) {fuel : Nat}
    {ks : List TokenKind} (missing : List Item) (hfuel : 16 * e.kinds.length ≤ fuel + 4)
    (hrest : rest ≠ [] → Goes (arrayItems fuel) (itemKinds rest ++ .mark .rbracket :: ks)
      (pure rest) ks) :
    Goes (do
      let e ← assignment fuel .free
      if ← accept (.mark .comma) then
        let rest ← arrayItems fuel
        return missing ++ .value e :: rest
      else
        expectMark .rbracket
        return missing ++ [.value e]) (itemKinds (.value e :: rest) ++ .mark .rbracket :: ks)
      (pure (missing ++ .value e :: rest)) ks := by
  rw [itemKinds, List.append_assoc, List.append_assoc]
  cases rest with
  | nil =>
    refine .andThen (he.read hfuel (.separator rfl rfl fun _ => rfl)) ?_
    exact .acceptNot nofun nofun (Goes.expectMark.andThen .refl)
  | cons item rest =>
    refine .andThen (he.read hfuel (.separator rfl rfl fun _ => rfl)) ?_
    exact .accept rfl (.andThen (hrest nofun) .refl)

theorem itemKinds_value (e : Expr) (rest : List Item) :
    ∃ more, itemKinds (.value e :: rest) = e.head :: more := by
  obtain ⟨more, hmore⟩ := e.kinds_eq_cons
  exact ⟨_, by rw [itemKinds, hmore]; rfl⟩

theorem head_ne_mark {e : Expr} {m : Mark} (h : (TokenKind.mark m).startsExpr = false) :
    e.head ≠ .mark m := by
  intro heq
  have hstarts := e.startsExpr_head
  rw [heq, h] at hstarts
  cases hstarts

/-- A run of commas and the value behind it, if there is one. -/
theorem goes_arrayStart {e : Expr} {rest : List Item} (he : ReadsAssignment .free e) {fuel : Nat}
    {ks : List TokenKind} (count : Nat) (hcount : count < fuel)
    (hfuel : 16 * e.kinds.length ≤ fuel + 4)
    (hrest : rest ≠ [] → Goes (arrayItems fuel) (itemKinds rest ++ .mark .rbracket :: ks)
      (pure rest) ks) :
    Goes (arrayItems (fuel + 1))
      (List.replicate count (.mark .comma) ++ (itemKinds (.value e :: rest)
        ++ .mark .rbracket :: ks))
      (pure ((if count = 0 then [] else [Item.elision count]) ++ .value e :: rest)) ks := by
  have hvalue := goes_arrayValue he (if count = 0 then [] else [Item.elision count]) hfuel hrest
  obtain ⟨more, hmore⟩ := itemKinds_value e rest
  rw [arrayItems]
  rw [hmore, List.cons_append] at hvalue ⊢
  refine .andThen (.commas hcount (head_ne_mark rfl)) ?_
  exact .acceptNot (head_ne_mark rfl) nofun hvalue

theorem goes_arrayItems : ∀ {items : List Item}, FormedItems items →
    (∀ e, .value e ∈ items → ReadsAssignment .free e) → ∀ {fuel : Nat} (ks : List TokenKind),
      16 * (itemKinds items).length + 2 ≤ fuel →
      Goes (arrayItems fuel) (itemKinds items ++ .mark .rbracket :: ks) (pure items) ks
  | [], _, _, fuel, ks, hfuel => by
    obtain ⟨fuel, rfl⟩ : ∃ more, fuel = more + 1 := ⟨fuel - 1, by omega⟩
    have hcommas : Goes (commas fuel) (.mark .rbracket :: ks) (pure 0) (.mark .rbracket :: ks) :=
      @Goes.commas ks (.mark .rbracket) 0 fuel (by omega) nofun
    rw [arrayItems]
    exact .andThen hcommas (.accept rfl .refl)
  | .value e :: rest, hformed, h, fuel, ks, hfuel => by
    have hlength : (itemKinds rest).length + e.kinds.length
        ≤ (itemKinds (.value e :: rest)).length := by
      simp only [itemKinds, List.length_append]
      omega
    have hpos := e.one_le_length_kinds
    obtain ⟨fuel, rfl⟩ : ∃ more, fuel = more + 1 := ⟨fuel - 1, by omega⟩
    refine goes_arrayStart (h e (List.mem_cons_self ..)) 0 (by omega) (by omega) fun _ => ?_
    exact goes_arrayItems hformed.2.2
      (fun e' he' => h e' (List.mem_cons_of_mem _ he')) ks (by omega)
  | [.elision count], hformed, _, fuel, ks, hfuel => by
    simp only [itemKinds, List.append_nil, List.length_replicate] at hfuel ⊢
    obtain ⟨fuel, rfl⟩ : ∃ more, fuel = more + 1 := ⟨fuel - 1, by omega⟩
    rw [arrayItems]
    refine .andThen (.commas (by omega) nofun) (.accept rfl ?_)
    rw [if_neg (Nat.ne_of_gt hformed.1)]
    exact .refl
  | .elision count :: .value e :: rest, hformed, h, fuel, ks, hfuel => by
    have hlength : count + (itemKinds rest).length + e.kinds.length
        ≤ (itemKinds (.elision count :: .value e :: rest)).length := by
      simp only [itemKinds, List.length_append, List.length_replicate]
      omega
    have hpos := e.one_le_length_kinds
    obtain ⟨hcount, -, hformed⟩ := hformed
    obtain ⟨fuel, rfl⟩ : ∃ more, fuel = more + 1 := ⟨fuel - 1, by omega⟩
    have hrest : Goes (arrayItems fuel) (itemKinds rest ++ .mark .rbracket :: ks) (pure rest) ks :=
      goes_arrayItems hformed.2.2
        (fun e' he' => h e' (List.mem_cons_of_mem _ (List.mem_cons_of_mem _ he'))) ks (by omega)
    have hvalue := h e (List.mem_cons_of_mem _ (List.mem_cons_self ..))
    have hstart := goes_arrayStart hvalue count (by omega) (by omega) fun _ => hrest
    rw [if_neg (Nat.ne_of_gt hcount)] at hstart
    rw [itemKinds, List.append_assoc]
    exact hstart
  | .elision _ :: .elision more :: rest, hformed, _, _, _, _ => absurd rfl (hformed.2.1 more rest)

theorem readsLeftSide_array {items : List Item} (hformed : FormedItems items)
    (h : ∀ e, .value e ∈ items → ReadsAssignment .free e) : ReadsLeftSide (.array items) := by
  refine .of_primary rfl nofun rfl rfl rfl fun fuel ks hfuel => ?_
  simp only [Expr.kinds, List.length_cons, List.length_append, List.length_nil, List.cons_append,
    List.append_assoc, List.nil_append] at hfuel ⊢
  refine .primary (do
    let items ← arrayItems fuel
    return .array items) rfl (fun t rest ht => ?_) ?_
  · rw [primary, run_bind_of_eq rfl]
    simp only [ht]
    rfl
  · exact .andThen (goes_arrayItems hformed h ks (by omega)) .refl

/-! ## Bodies -/

/-- The readers find the statements in their tokens, before a token that closes them. -/
def ReadsStatements (ss : List Stmt) : Prop :=
  ∀ (fuel : Nat) (kind : TokenKind) (ks : List TokenKind), 16 * (stmtKinds ss).length + 1 ≤ fuel →
    closesStatements kind = true →
    Goes (statements fuel) (stmtKinds ss ++ kind :: ks) (pure ss) (kind :: ks)

theorem ReadsStatements.braced {ss : List Stmt} (h : ReadsStatements ss) {fuel : Nat}
    (ks : List TokenKind) (hfuel : 16 * (stmtKinds ss).length + 2 ≤ fuel) :
    Goes (braced fuel) (bracedKinds (stmtKinds ss) ++ ks) (pure ss) ks := by
  obtain ⟨fuel, rfl⟩ : ∃ more, fuel = more + 1 := ⟨fuel - 1, by omega⟩
  simp only [Reader.braced, bracedKinds, List.cons_append, List.append_assoc, List.nil_append]
  refine Goes.expectMark.andThen (.andThen (h fuel _ ks (by omega) rfl) ?_)
  exact Goes.expectMark.andThen .refl

/-- A name that may be missing, before a parenthesis. -/
theorem goes_optionalName {α : Type} {next : Option String → Reader α} {ks ks' : List TokenKind}
    {r : Reader α} (name : Option String)
    (h : Goes (next name) (.mark .lparen :: ks) r ks') :
    Goes (do
      let name ← match ← peek with
        | .name id => do skip; pure (some id)
        | _ => pure none
      next name) (nameKinds name ++ .mark .lparen :: ks) r ks' := by
  cases name with
  | none => exact .peek rfl h
  | some id => exact .peek rfl (.skip rfl h)

theorem readsLeftSide_func {name : Option String} {params : List String} {body : List Stmt}
    (h : ReadsStatements body) : ReadsLeftSide (.func name params body) := by
  refine .of_primary rfl nofun rfl rfl rfl fun fuel ks hfuel => ?_
  have hparams := length_lt_length_paramKinds params
  simp only [Expr.kinds, List.length_cons, List.length_append, length_bracedKinds, List.cons_append,
    List.append_assoc] at hfuel ⊢
  refine .primary (do
    let name ← match ← peek with
      | .name id => do skip; pure (some id)
      | _ => pure none
    let ps ← Reader.params fuel
    let body ← Reader.braced fuel
    return Expr.func name ps body) rfl (fun t rest ht => ?_) ?_
  · rw [primary, run_bind_of_eq rfl]
    simp only [ht]
    rfl
  · have hrest : Goes (do
        let ps ← Reader.params fuel
        let body ← Reader.braced fuel
        return Expr.func name ps body) (paramKinds params ++ (bracedKinds (stmtKinds body) ++ ks))
        (pure (.func name params body)) ks :=
      .andThen (.params (by omega)) (.andThen (h.braced ks (by omega)) .refl)
    obtain ⟨more, hmore⟩ := paramKinds_eq_cons params
    rw [hmore, List.cons_append] at hrest ⊢
    exact goes_optionalName name hrest

/-! ## Objects -/

/-- The values and bodies of the property are read. -/
def ReadsProperty : Property → Prop
  | .field _ value => ReadsAssignment .free value
  | .getter _ body | .setter _ _ body => ReadsStatements body

/-- A property before the token that ends it. -/
theorem goes_property {p : Property} (h : ReadsProperty p) {fuel : Nat} {kind : TokenKind}
    {ks : List TokenKind} (hfuel : 16 * p.kinds.length ≤ fuel) (hkind : ∀ e, Ends .free e kind) :
    Goes (property fuel) (p.kinds ++ kind :: ks) (pure p) (kind :: ks) := by
  cases p with
  | field key value =>
    simp only [Property.kinds, List.length_cons, List.cons_append] at hfuel ⊢
    obtain ⟨fuel, rfl⟩ : ∃ more, fuel = more + 1 := ⟨fuel - 1, by omega⟩
    have hgetter : key.kind ≠ .getter := key.kind_ne (by nofun) (by nofun) (by nofun) (by nofun)
    have hsetter : key.kind ≠ .setter := key.kind_ne (by nofun) (by nofun) (by nofun) (by nofun)
    rw [property]
    refine .acceptNot hgetter nofun (.acceptNot hsetter nofun ?_)
    refine Goes.propertyKey.andThen (Goes.expectMark.andThen ?_)
    exact .andThen (ReadsAssignment.read h (by omega) (hkind value)) .refl
  | getter key body =>
    simp only [Property.kinds, List.length_cons, length_bracedKinds, List.cons_append] at hfuel ⊢
    obtain ⟨fuel, rfl⟩ : ∃ more, fuel = more + 1 := ⟨fuel - 1, by omega⟩
    rw [property]
    refine .accept rfl (Goes.propertyKey.andThen (Goes.expectMark.andThen ?_))
    refine Goes.expectMark.andThen (.andThen (ReadsStatements.braced h _ (by omega)) .refl)
  | setter key param body =>
    simp only [Property.kinds, List.length_cons, length_bracedKinds, List.cons_append] at hfuel ⊢
    obtain ⟨fuel, rfl⟩ : ∃ more, fuel = more + 1 := ⟨fuel - 1, by omega⟩
    rw [property]
    refine .acceptNot nofun nofun (.accept rfl (Goes.propertyKey.andThen ?_))
    refine Goes.expectMark.andThen (Goes.identifier.andThen (Goes.expectMark.andThen ?_))
    exact .andThen (ReadsStatements.braced h _ (by omega)) .refl

theorem Property.one_le_length_kinds (p : Property) : 1 ≤ p.kinds.length := by
  cases p <;> exact Nat.succ_le_succ (Nat.zero_le _)

theorem goes_objectProperties : ∀ {properties : List Property},
    (∀ p ∈ properties, ReadsProperty p) → ∀ {fuel : Nat} (ks : List TokenKind),
      16 * (propertyKinds properties).length + 2 ≤ fuel →
      Goes (objectProperties fuel) (propertyKinds properties ++ .mark .rbrace :: ks)
        (pure properties) ks
  | [], _, fuel, ks, hfuel => by
    obtain ⟨fuel, rfl⟩ : ∃ more, fuel = more + 1 := ⟨fuel - 1, by omega⟩
    rw [objectProperties]
    exact .accept rfl .refl
  | p :: properties, h, fuel, ks, hfuel => by
    obtain ⟨hp, hproperties⟩ := List.forall_mem_cons.1 h
    obtain ⟨fuel, rfl⟩ : ∃ more, fuel = more + 1 := ⟨fuel - 1, by omega⟩
    have hpos := Property.one_le_length_kinds p
    have hrest : Goes (do
        let p ← property fuel
        if ← accept (.mark .comma) then
          let rest ← objectProperties fuel
          return p :: rest
        else
          expectMark .rbrace
          return [p]) (propertyKinds (p :: properties) ++ .mark .rbrace :: ks)
        (pure (p :: properties)) ks := by
      simp only [propertyKinds, List.length_append] at hfuel
      rw [propertyKinds, List.append_assoc, List.append_assoc]
      cases properties with
      | nil =>
        refine .andThen (goes_property hp (by omega) fun _ => .separator rfl rfl fun _ => rfl) ?_
        exact .acceptNot nofun nofun (Goes.expectMark.andThen .refl)
      | cons q properties =>
        refine .andThen (goes_property hp (by omega) fun _ => .separator rfl rfl fun _ => rfl) ?_
        exact .accept rfl (.andThen (goes_objectProperties hproperties ks (by omega)) .refl)
    obtain ⟨kind, more, hmore, hkind⟩ : ∃ kind more, p.kinds = kind :: more ∧
        kind ≠ .mark .rbrace := by
      cases p with
      | field key value =>
        exact ⟨_, _, rfl, key.kind_ne (by nofun) (by nofun) (by nofun) (by nofun)⟩
      | getter | setter => exact ⟨_, _, rfl, nofun⟩
    rw [objectProperties]
    rw [propertyKinds, hmore] at hrest ⊢
    exact .acceptNot hkind nofun hrest

theorem readsLeftSide_object {properties : List Property}
    (h : ∀ p ∈ properties, ReadsProperty p) : ReadsLeftSide (.object properties) := by
  refine .of_primary rfl nofun rfl rfl rfl fun fuel ks hfuel => ?_
  simp only [Expr.kinds, List.length_cons, List.length_append, List.length_nil, List.cons_append,
    List.append_assoc, List.nil_append] at hfuel ⊢
  refine .primary (do
    let properties ← objectProperties fuel
    return .object properties) rfl (fun t rest ht => ?_) ?_
  · rw [primary, run_bind_of_eq rfl]
    simp only [ht]
    rfl
  · exact .andThen (goes_objectProperties h ks (by omega)) .refl

end

end Reader

end Espalier.Script
