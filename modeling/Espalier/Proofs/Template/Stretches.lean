import Espalier.Proofs.Template.Regular
import Mathlib.Data.List.Nodup

/-!
# Stretches of generated source

What a visit appends to the source of one function is a stretch of it: statements that are read the
same wherever they stand. Along a stretch the temporary variables of the function are those declared
before it and those that it declares, each of them once, and every such variable that is set or
switched on is among them (`Grows`). A function begins without any, so its body declares what it
uses (`Tidy`). Main statements: `Stretch.append`, `Stretch.hang`, `Stretch.iteration`,
`exists_stretch_subject` and `Stretches.switch`.
-/

namespace Espalier.Template

open Espalier.Script

/-! ## Scopes -/

/-- The reserved names among others. -/
def reserved (names : List String) : List String :=
  names.filter Marker.isReserved

theorem reserved_append (names names' : List String) :
    reserved (names ++ names') = reserved names ++ reserved names' :=
  List.filter_append ..

theorem isReserved_reserve (core : String) : Marker.isReserved (Marker.reserve core) = true := by
  have hchars : (Marker.reserve core).toList
      = (Marker.opening :: core.toList) ++ [Marker.closing] := by
    simp [Marker.reserve]
  rw [Marker.isReserved, hchars, List.getLast?_concat]
  rfl

/-- A scope declares the reserved variables that it sets or switches on, and none of them twice. -/
structure Tidy (body : List Stmt) : Prop where
  nodup : (reserved (varNamesAll body)).Nodup
  declared : ∀ name ∈ reserved (targetsAll body), name ∈ reserved (varNamesAll body)

theorem Tidy.count_eq_one {body : List Stmt} (h : Tidy body) {name : String}
    (hname : Marker.isReserved name = true) (htarget : name ∈ targetsAll body) :
    (varNamesAll body).count name = 1 := by
  have hmem := h.declared name (List.mem_filter.2 ⟨htarget, hname⟩)
  rw [← List.count_filter hname]
  exact List.count_eq_one_of_mem h.nodup hmem

/-- A part of a scope, with the variables it declares, those it sets or switches on and the bodies
of its functions. The temporary variables of the scope have grown by the declared ones. -/
structure Grows (declared declared' vars targets : List String) (bodies : List (List Stmt)) :
    Prop where
  declared_eq : declared' = declared ++ reserved vars
  nodup : declared.Nodup → declared'.Nodup
  targets : ∀ name ∈ reserved targets, name ∈ declared'
  bodies : ∀ body ∈ bodies, Tidy body

/-- Functions have variables of their own. -/
theorem Grows.of_tidy (declared : List String) {bodies : List (List Stmt)}
    (h : ∀ body ∈ bodies, Tidy body) : Grows declared declared [] [] bodies where
  declared_eq := (List.append_nil declared).symm
  nodup := id
  targets := List.forall_mem_nil _
  bodies := h

theorem Grows.nil (declared : List String) : Grows declared declared [] [] [] :=
  .of_tidy declared (List.forall_mem_nil _)

section
variable {declared declared' declared'' vars vars' targets targets' : List String}
  {bodies bodies' : List (List Stmt)}

theorem Grows.mem (h : Grows declared declared' vars targets bodies) {name : String}
    (hname : name ∈ declared) : name ∈ declared' := by
  rw [h.declared_eq]
  exact List.mem_append_left _ hname

theorem Grows.append (h : Grows declared declared' vars targets bodies)
    (h' : Grows declared' declared'' vars' targets' bodies') :
    Grows declared declared'' (vars ++ vars') (targets ++ targets') (bodies ++ bodies') where
  declared_eq := by rw [h'.declared_eq, h.declared_eq, reserved_append, List.append_assoc]
  nodup hnodup := h'.nodup (h.nodup hnodup)
  targets := by
    rw [reserved_append]
    exact List.forall_mem_append.2 ⟨fun name hname => h'.mem (h.targets name hname), h'.targets⟩
  bodies := List.forall_mem_append.2 ⟨h.bodies, h'.bodies⟩

end

/-- The statements make the temporary variables of a scope grow. -/
def GrowsBy (declared declared' : List String) (ss : List Stmt) : Prop :=
  Grows declared declared' (varNamesAll ss) (targetsAll ss) (stmtFunctionBodies ss)

/-- The clauses make the temporary variables of a scope grow. -/
def GrowsByClauses (declared declared' : List String) (cs : List Clause) : Prop :=
  Grows declared declared' (varNamesClauses cs) (targetsClauses cs) (clauseFunctionBodies cs)

section
variable {declared declared' declared'' : List String} {ss ss' : List Stmt}

theorem GrowsBy.append (h : GrowsBy declared declared' ss) (h' : GrowsBy declared' declared'' ss') :
    GrowsBy declared declared'' (ss ++ ss') := by
  rw [GrowsBy, varNamesAll_append, targetsAll_append, stmtFunctionBodies_append]
  exact Grows.append h h'

/-- The body of a function begins without temporary variables. -/
theorem GrowsBy.tidy (h : GrowsBy [] declared ss) : Tidy ss where
  nodup := by
    have hnodup := h.nodup List.nodup_nil
    rwa [h.declared_eq] at hnodup
  declared name hname := by
    have hmem := h.targets name hname
    rwa [h.declared_eq] at hmem

theorem GrowsBy.tidy_bodies (h : GrowsBy [] declared ss) :
    ∀ scope ∈ ss :: stmtFunctionBodies ss, Tidy scope :=
  List.forall_mem_cons.2 ⟨h.tidy, h.bodies⟩

/-- One statement. -/
theorem GrowsBy.single {s : Stmt}
    (h : Grows declared declared' s.varNames s.targets s.functionBodies) :
    GrowsBy declared declared' [s] := by
  rw [GrowsBy, varNamesAll, varNamesAll, targetsAll, targetsAll, stmtFunctionBodies,
    stmtFunctionBodies, List.append_nil, List.append_nil, List.append_nil]
  exact h

theorem GrowsBy.of_single {s : Stmt} (h : GrowsBy declared declared' [s]) :
    Grows declared declared' s.varNames s.targets s.functionBodies := by
  rwa [GrowsBy, varNamesAll, varNamesAll, targetsAll, targetsAll, stmtFunctionBodies,
    stmtFunctionBodies, List.append_nil, List.append_nil, List.append_nil] at h

/-- Code of the author adds no temporary variable. -/
theorem growsBy_of_isAloof (h : isAloof ss = true) (declared : List String) :
    GrowsBy declared declared ss := by
  have hnone : ∀ body ∈ ss :: stmtFunctionBodies ss,
      reserved (varNamesAll body) = [] ∧ reserved (targetsAll body) = [] := by
    intro body hbody
    have hall := List.all_eq_true.1 h body hbody
    simp only [List.all_eq_true, List.forall_mem_append, Bool.not_eq_true'] at hall
    exact ⟨List.filter_eq_nil_iff.2 fun name hname => by simp [hall.1 name hname],
      List.filter_eq_nil_iff.2 fun name hname => by simp [hall.2 name hname]⟩
  obtain ⟨⟨hvars, htargets⟩, hbodies⟩ := List.forall_mem_cons.1 hnone
  refine ⟨by rw [hvars, List.append_nil], id, ?_, fun body hbody => ?_⟩
  · rw [htargets]
    exact List.forall_mem_nil _
  · obtain ⟨hvars, htargets⟩ := hbodies body hbody
    exact ⟨by rw [hvars]; exact List.nodup_nil, by rw [htargets]; exact List.forall_mem_nil _⟩

end

/-! ## Stretches of source -/

/-- A stretch of the source of one function: it is these statements wherever it stands, and they
make the temporary variables grow. -/
structure Stretch (declared declared' : List String) (text : List Char) (ss : List Stmt) :
    Prop where
  phrase : Phrase text ss
  grows : GrowsBy declared declared' ss

section
variable {declared declared' declared'' : List String} {a b : List Char} {ss ss' : List Stmt}

theorem Stretch.nil (declared : List String) : Stretch declared declared [] [] :=
  ⟨.nil, .nil declared⟩

theorem Stretch.append (h : Stretch declared declared' a ss)
    (h' : Stretch declared' declared'' b ss') : Stretch declared declared'' (a ++ b) (ss ++ ss') :=
  ⟨h.phrase.append h'.phrase, h.grows.append h'.grows⟩

/-- Code of the author. -/
theorem stretch_of_isAloof (hphrase : Phrase a ss) (haloof : isAloof ss = true)
    (declared : List String) : Stretch declared declared a ss :=
  ⟨hphrase, growsBy_of_isAloof haloof declared⟩

theorem Stretch.block (h : Stretch declared declared' a ss) :
    Stretch declared declared' ("\x7b\n".toList ++ a ++ "\x7d\n".toList) [.block ss] :=
  ⟨h.phrase.block, .single h.grows⟩

/-- A head of a statement before a stretch in braces. -/
theorem Stretch.hang {head : List Char} {s : Stmt} (hs : s.hangs = true)
    (hhead : Passage head s.headKinds) (hown : Own [s]) (h : Stretch declared declared' a ss) :
    Stretch declared declared' (head ++ ("\x7b\n".toList ++ a ++ "\x7d\n".toList))
      [s.hang ss] where
  phrase := h.phrase.hang hs hhead hown.formed.1 (Bool.and_eq_true_iff.1 hown.linked).1
  grows := by
    refine .single ?_
    rw [s.varNames_hang hs, s.targets_hang hs, s.functionBodies_hang hs]
    exact (growsBy_of_isAloof hown.aloof declared).of_single.append h.grows

/-- What stands behind the first function of an iteration: nothing but the end, or the function for
an empty collection. -/
structure Ending (tail : List Char) (others : List Expr) : Prop where
  passage : Passage tail (moreArgKinds others ++ [.mark .semi])
  formed : FormedArgs others
  linked : linkedExprs others = true
  targets : exprTargets others = []
  bodies : ∀ body ∈ exprFunctionBodies others, Tidy body

theorem ending_nil : Ending ");\n".toList [] :=
  ⟨passage_end, trivial, rfl, rfl, List.forall_mem_nil _⟩

theorem Stretch.ending (h : Stretch [] declared a ss) :
    Ending (",function()\x7b\n".toList ++ a ++ "\x7d".toList ++ ");\n".toList)
      [.func none [] ss] where
  passage := passage_alternative h.phrase
  formed := ⟨⟨nofun, List.forall_mem_nil _, h.phrase.formed⟩, Nat.le_add_left 1 14, trivial⟩
  linked := by rw [linkedExprs, Expr.linked, h.phrase.linked]; rfl
  targets := rfl
  bodies := by
    rw [exprFunctionBodies, exprFunctionBodies, List.append_nil]
    exact h.grows.tidy_bodies

/-- An iteration. Its functions have temporary variables of their own. -/
theorem Stretch.iteration {front tail : List Char} {id : String} {e : Expr} {names : List String}
    {others : List Expr} (h : Stretch [] declared' a ss)
    (hfront : Passage front (.name id :: eachKinds e names))
    (hown : Own [.expr (.call (.name "f") [e, .func none names []])]) (hid : IsName id)
    (hothers : Ending tail others) (declared : List String) :
    Stretch declared declared (front ++ a ++ '\x7d' :: tail)
      [.expr (.call (.name id) (e :: .func none names ss :: others))] where
  phrase := phrase_iteration hfront hown hid h.phrase hothers.passage hothers.formed hothers.linked
  grows := by
    have hall := (growsBy_of_isAloof hown.aloof declared).of_single
    have hcollection : Grows declared declared [] e.targets e.functionBodies := by
      refine ⟨hall.declared_eq, hall.nodup, fun name hname => hall.targets name ?_,
        fun body hbody => hall.bodies body
          (List.mem_append_right _ (List.mem_append_left _ hbody))⟩
      simpa [Stmt.targets, Expr.targets, exprTargets] using hname
    have hfunctions : Grows declared declared [] (exprTargets others)
        ((ss :: stmtFunctionBodies ss) ++ exprFunctionBodies others) := by
      rw [hothers.targets]
      exact .of_tidy declared (List.forall_mem_append.2 ⟨h.grows.tidy_bodies, hothers.bodies⟩)
    exact .single (hcollection.append hfunctions)

end

/-! ## Choices -/

theorem mem_declaring (declared : List String) (name : String) :
    name ∈ declaring declared name := by
  rw [declaring]
  split
  case isTrue hmem => exact hmem
  case isFalse => exact List.mem_append_right declared (List.mem_singleton_self name)

/-- A variable that was declared before is set. -/
theorem grows_assigned {declared : List String} {name : String} (hmem : name ∈ declared) :
    Grows declared declared [] [name] [] where
  declared_eq := (List.append_nil declared).symm
  nodup := id
  targets _ htarget := List.mem_singleton.1 (List.mem_of_mem_filter htarget) ▸ hmem
  bodies := List.forall_mem_nil _

/-- A temporary variable is declared and set. -/
theorem grows_declared {declared : List String} {name : String}
    (hname : Marker.isReserved name = true) (hmem : name ∉ declared) :
    Grows declared (declared ++ [name]) [name] [name] [] := by
  have hreserved : reserved [name] = [name] := List.filter_cons_of_pos hname
  refine ⟨by rw [hreserved], fun hnodup => ?_, ?_, List.forall_mem_nil _⟩
  · exact List.nodup_append_comm.1 (List.nodup_cons.2 ⟨hmem, hnodup⟩)
  · rw [hreserved]
    exact List.forall_mem_singleton.2
      (List.mem_append_right declared (List.mem_singleton_self name))

/-- The line that sets the variable of a choice; the first one in a function declares it. -/
def subjectLine (declared : List String) (name subject : String) : List Char :=
  (if name ∈ declared then [] else "var ".toList) ++ assignLine name.toList subject.toList

theorem exists_stretch_subject {core subject : String} (h : isSubject subject.toList = true)
    (hword : IsWord (Marker.reserve core)) (declared : List String) :
    ∃ ss, Stretch declared (declaring declared (Marker.reserve core))
      (subjectLine declared (Marker.reserve core) subject) ss := by
  obtain ⟨e, hassign, hvar, haloof⟩ := exists_subject hword h
  have hvalue : ∀ d, Grows d d [] e.targets e.functionBodies := by
    intro d
    have hall := (growsBy_of_isAloof haloof d).of_single
    refine ⟨hall.declared_eq, hall.nodup, fun name hname => hall.targets name ?_, hall.bodies⟩
    show name ∈ reserved (["f"] ++ [] ++ e.targets)
    rw [reserved_append]
    exact List.mem_append_right _ hname
  rw [declaring, subjectLine]
  split
  case isTrue hmem => exact ⟨_, hassign, .single ((grows_assigned hmem).append (hvalue _))⟩
  case isFalse hmem =>
    have hgrows := (grows_declared (isReserved_reserve core) hmem).append (hvalue _)
    refine ⟨_, hvar, .single ?_⟩
    show Grows _ _ [Marker.reserve core] ((Marker.reserve core :: e.targets) ++ [])
      (e.functionBodies ++ [])
    rw [List.append_nil, List.append_nil]
    exact hgrows

/-- Clauses of a switch, in the source of one function. -/
structure Stretches (declared declared' : List String) (text : List Char) (cs : List Clause) :
    Prop where
  phrases : Phrases text cs
  grows : GrowsByClauses declared declared' cs

section
variable {declared declared' declared'' : List String} {a b : List Char} {ss : List Stmt}
  {cs : List Clause}

theorem Stretches.nil (declared : List String) : Stretches declared declared [] [] :=
  ⟨.nil, .nil declared⟩

theorem Stretches.skip (ha : Passage a []) (h : Stretches declared declared' b cs) :
    Stretches declared declared' (a ++ b) cs :=
  ⟨h.phrases.skip ha, h.grows⟩

/-- A branch with a label before others. -/
theorem exists_stretches_on {label : List Char} (hlabel : isLabel label = true)
    (ha : Stretch declared declared' a ss) (hb : Stretches declared' declared'' b cs) :
    ∃ e, Stretches declared declared'' (caseLine label ++ a ++ b) (.on e ss :: cs) := by
  obtain ⟨e, hpassage, hown⟩ := exists_label hlabel
  have hformed : FormedClauses [.on e []] := hown.formed.1.2.1
  have hlinked : linkedClauses [.on e []] = true :=
    (Bool.and_eq_true_iff.1 (Bool.and_eq_true_iff.1 hown.linked).1).2
  have hlabel : Grows declared declared [] e.targets e.functionBodies := by
    have hall := (growsBy_of_isAloof hown.aloof declared).of_single
    refine ⟨hall.declared_eq, hall.nodup, fun name hname => hall.targets name ?_,
      fun body hbody => hall.bodies body ?_⟩
    · simpa [Stmt.targets, targetsClauses, targetsAll, reserved_append] using .inr (.inr hname)
    · simpa [Stmt.functionBodies, clauseFunctionBodies, stmtFunctionBodies] using .inr hbody
  exact ⟨e, hb.phrases.on hpassage hformed.1 (Bool.and_eq_true_iff.1 hlinked).1 ha.phrase,
    (hlabel.append ha.grows).append hb.grows⟩

theorem Stretch.otherwise (ha : Stretch declared declared' a ss)
    (hb : Stretches declared' declared'' b cs) :
    Stretches declared declared'' ("default:\n".toList ++ a ++ b) (.otherwise ss :: cs) :=
  ⟨hb.phrases.otherwise ha.phrase, Grows.append ha.grows hb.grows⟩

/-- A switch on a variable that is declared. -/
theorem Stretches.switch {core : String} (h : Stretches declared declared' a cs)
    (hword : IsWord (Marker.reserve core)) (hmem : Marker.reserve core ∈ declared)
    (hcount : cs.countP (·.isOtherwise) ≤ 1) :
    Stretch declared declared' ("switch(".toList ++ (Marker.reserve core).toList
        ++ ")\x7b\n".toList ++ a ++ "\x7d\n".toList)
      [.switch (.name (Marker.reserve core)) cs] :=
  ⟨h.phrases.switch (isName_reserve hword) hword (wordToken_reserve core) hcount,
    .single ((grows_assigned hmem).append h.grows)⟩

end

end Espalier.Template
