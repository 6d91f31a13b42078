import Espalier.Proofs.Script.Passage
import Espalier.Proofs.Script.Scopes
import Espalier.Proofs.Script.Transcript

/-!
# Statements wherever they stand

`Phrase` says of a text that it is read as certain statements wherever it stands. Phrases may stand
in sequence, in braces, behind the head of a statement and in the clauses of a switch. Main
statement: `Phrase.parse_eq`.
-/

namespace Espalier.Script

open Espalier.Text
open Reader (bracedKinds paramKinds)

/-! ## Phrases -/

/-- The text is these statements of the grammar, wherever it stands. -/
structure Phrase (text : List Char) (ss : List Stmt) : Prop where
  passage : Passage text (stmtKinds ss)
  formed : FormedAll ss
  linked : linkedAll ss = true
  plain : startsPlain ss = true

theorem Phrase.nil : Phrase [] [] :=
  ⟨.nil, trivial, rfl, rfl⟩

section
variable {a b : List Char} {ss ss' : List Stmt}

theorem Phrase.append (ha : Phrase a ss) (hb : Phrase b ss') : Phrase (a ++ b) (ss ++ ss') where
  passage := by
    rw [stmtKinds_append]
    exact ha.passage.append hb.passage
  formed := formedAll_append ha.formed hb.formed
  linked := linkedAll_append ha.linked hb.linked hb.plain
  plain := startsPlain_append ha.plain hb.plain

/-- What may be passed without a token. -/
theorem Passage.phrase (h : Passage a []) : Phrase a [] :=
  ⟨h, trivial, rfl, rfl⟩

/-- One statement. -/
theorem Phrase.single {s : Stmt} (hpassage : Passage a s.kinds) (hformed : s.Formed)
    (hlinked : s.linked = true) (hplain : s.head.isRegex = false) : Phrase a [s] where
  passage := by
    rw [stmtKinds, stmtKinds, List.append_nil]
    exact hpassage
  formed := ⟨hformed, trivial⟩
  linked := by
    rw [linkedAll, linkedAll, hlinked, startsPlain]
    simp
  plain := by
    rw [startsPlain, List.head?_cons, Option.all_some, hplain]
    rfl

/-- Statements in braces. -/
theorem Phrase.braced (h : Phrase a ss) :
    Passage ("\x7b\n".toList ++ a ++ "\x7d\n".toList) (bracedKinds (stmtKinds ss)) := by
  have hopen : Passage "\x7b\n".toList [.mark .lbrace] := @passage_markLine .lbrace rfl
  have hclose : Passage "\x7d\n".toList [.mark .rbrace] := @passage_markLine .rbrace rfl
  exact (hopen.append h.passage).append hclose

theorem Phrase.block (h : Phrase a ss) :
    Phrase ("\x7b\n".toList ++ a ++ "\x7d\n".toList) [.block ss] :=
  .single h.braced h.formed h.linked rfl

end

/-! ## Heads of statements -/

/-- The statement with other statements in the empty braces that it ends with. -/
def Stmt.hang (body : List Stmt) : Stmt → Stmt
  | .block [] => .block body
  | .ifThen test yes => .ifThen test (yes.hang body)
  | .ifElse test yes no => .ifElse test yes (no.hang body)
  | .loop start test next inner => .loop start test next (inner.hang body)
  | .loopIn item collection inner => .loopIn item collection (inner.hang body)
  | .loopVarIn item collection inner => .loopVarIn item collection (inner.hang body)
  | .while test inner => .while test (inner.hang body)
  | .withScope scope inner => .withScope scope (inner.hang body)
  | .label name inner => .label name (inner.hang body)
  | s => s

/-- The statement ends with empty braces that belong to none of its functions and handlers. -/
def Stmt.hangs : Stmt → Bool
  | .block body => body.isEmpty
  | .ifThen _ inner | .ifElse _ _ inner | .loop _ _ _ inner | .loopIn _ _ inner
  | .loopVarIn _ _ inner | .while _ inner | .withScope _ inner | .label _ inner => inner.hangs
  | _ => false

/-- The tokens of a statement up to the braces that it ends with. -/
def Stmt.headKinds : Stmt → List TokenKind
  | .ifThen test inner =>
    .keyword .if :: .mark .lparen :: (test.kinds ++ .mark .rparen :: inner.headKinds)
  | .ifElse test yes inner =>
    .keyword .if :: .mark .lparen :: (test.kinds ++ .mark .rparen
      :: (yes.kinds ++ .keyword .else :: inner.headKinds))
  | .loop start test next inner =>
    .keyword .for :: .mark .lparen :: (start.kinds ++ (optionalKinds test ++ .mark .semi
      :: (optionalKinds next ++ .mark .rparen :: inner.headKinds)))
  | .loopIn item collection inner =>
    .keyword .for :: .mark .lparen :: (item.kinds ++ .keyword .in
      :: (collection.kinds ++ .mark .rparen :: inner.headKinds))
  | .loopVarIn item collection inner =>
    .keyword .for :: .mark .lparen :: .keyword .var :: (item.kinds ++ .keyword .in
      :: (collection.kinds ++ .mark .rparen :: inner.headKinds))
  | .while test inner =>
    .keyword .while :: .mark .lparen :: (test.kinds ++ .mark .rparen :: inner.headKinds)
  | .withScope scope inner =>
    .keyword .with :: .mark .lparen :: (scope.kinds ++ .mark .rparen :: inner.headKinds)
  | .label name inner => .name name :: .mark .colon :: inner.headKinds
  | _ => []

section
variable {body : List Stmt}

theorem Stmt.kinds_hang : ∀ {s : Stmt}, s.hangs = true →
    (s.hang body).kinds = s.headKinds ++ bracedKinds (stmtKinds body)
  | .block [], _ => rfl
  | .ifThen _ inner, h | .ifElse _ _ inner, h | .loop _ _ _ inner, h | .loopIn _ _ inner, h
  | .loopVarIn _ _ inner, h | .while _ inner, h | .withScope _ inner, h | .label _ inner, h => by
    simp [hang, kinds, headKinds, inner.kinds_hang h]

theorem Stmt.formed_hang (hbody : FormedAll body) : ∀ {s : Stmt}, s.hangs = true → s.Formed →
    (s.hang body).Formed
  | .block [], _, _ => hbody
  | .ifElse _ _ _, h, hs | .loop _ _ _ _, h, hs | .loopIn _ _ _, h, hs | .loopVarIn _ _ _, h, hs =>
    ⟨hs.1, hs.2.1, hs.2.2.1, formed_hang hbody h hs.2.2.2⟩
  | .ifThen _ _, h, hs | .while _ _, h, hs | .withScope _ _, h, hs | .label _ _, h, hs =>
    ⟨hs.1, formed_hang hbody h hs.2⟩

theorem Stmt.linked_hang (hbody : linkedAll body = true) : ∀ {s : Stmt}, s.hangs = true →
    s.linked = true → (s.hang body).linked = true
  | .block [], _, _ => hbody
  | .ifThen _ inner, h, hs | .ifElse _ _ inner, h, hs | .loop _ _ _ inner, h, hs
  | .loopIn _ _ inner, h, hs | .loopVarIn _ _ inner, h, hs | .while _ inner, h, hs
  | .withScope _ inner, h, hs | .label _ inner, h, hs => by
    simp only [linked, Bool.and_eq_true] at hs
    simp [hang, linked, hs, inner.linked_hang hbody h]

theorem Stmt.isRegex_head_hang : ∀ {s : Stmt}, s.hangs = true → (s.hang body).head.isRegex = false
  | .block [], _ | .ifThen _ _, _ | .ifElse _ _ _, _ | .loop _ _ _ _, _ | .loopIn _ _ _, _
  | .loopVarIn _ _ _, _ | .while _ _, _ | .withScope _ _, _ | .label _ _, _ => rfl

theorem Stmt.varNames_hang : ∀ {s : Stmt}, s.hangs = true →
    (s.hang body).varNames = s.varNames ++ varNamesAll body
  | .block [], _ => rfl
  | .ifThen _ inner, h | .ifElse _ _ inner, h | .loop _ _ _ inner, h | .loopIn _ _ inner, h
  | .loopVarIn _ _ inner, h | .while _ inner, h | .withScope _ inner, h | .label _ inner, h => by
    simp [hang, varNames, inner.varNames_hang h]

theorem Stmt.targets_hang : ∀ {s : Stmt}, s.hangs = true →
    (s.hang body).targets = s.targets ++ targetsAll body
  | .block [], _ => rfl
  | .ifThen _ inner, h | .ifElse _ _ inner, h | .loop _ _ _ inner, h | .loopIn _ _ inner, h
  | .loopVarIn _ _ inner, h | .while _ inner, h | .withScope _ inner, h | .label _ inner, h => by
    simp [hang, targets, inner.targets_hang h]

theorem Stmt.functionBodies_hang : ∀ {s : Stmt}, s.hangs = true →
    (s.hang body).functionBodies = s.functionBodies ++ stmtFunctionBodies body
  | .block [], _ => rfl
  | .ifThen _ inner, h | .ifElse _ _ inner, h | .loop _ _ _ inner, h | .loopIn _ _ inner, h
  | .loopVarIn _ _ inner, h | .while _ inner, h | .withScope _ inner, h | .label _ inner, h => by
    simp [hang, functionBodies, inner.functionBodies_hang h]

end

/-- A head of a statement, with statements in braces behind it. -/
theorem Phrase.hang {head a : List Char} {s : Stmt} {body : List Stmt} (hs : s.hangs = true)
    (hhead : Passage head s.headKinds) (hformed : s.Formed) (hlinked : s.linked = true)
    (h : Phrase a body) :
    Phrase (head ++ ("\x7b\n".toList ++ a ++ "\x7d\n".toList)) [s.hang body] := by
  refine .single ?_ (s.formed_hang h.formed hs hformed) (s.linked_hang h.linked hs hlinked)
    (s.isRegex_head_hang hs)
  rw [s.kinds_hang hs]
  exact hhead.append h.braced

/-! ## Switches -/

/-- The text is these clauses of a switch, wherever it stands. -/
structure Phrases (text : List Char) (cs : List Clause) : Prop where
  passage : Passage text (clauseKinds cs)
  formed : FormedClauses cs
  linked : linkedClauses cs = true

theorem Phrases.nil : Phrases [] [] :=
  ⟨.nil, trivial, rfl⟩

section
variable {a b label : List Char} {ss : List Stmt} {cs : List Clause}

/-- Text without tokens before clauses. -/
theorem Phrases.skip (h : Phrases b cs) (ha : Passage a []) : Phrases (a ++ b) cs :=
  ⟨ha.append h.passage, h.formed, h.linked⟩

theorem Phrases.on {e : Expr} (hb : Phrases b cs)
    (hlabel : Passage label (.keyword .case :: (e.kinds ++ [.mark .colon])))
    (hformed : e.Formed .free) (hlinked : e.linked = true) (ha : Phrase a ss) :
    Phrases (label ++ a ++ b) (.on e ss :: cs) where
  passage := by
    have hall := (hlabel.append ha.passage).append hb.passage
    simpa [clauseKinds] using hall
  formed := ⟨hformed, ha.formed, hb.formed⟩
  linked := by rw [linkedClauses, hlinked, ha.linked, hb.linked]; rfl

theorem Phrases.otherwise (hb : Phrases b cs) (ha : Phrase a ss) :
    Phrases ("default:\n".toList ++ a ++ b) (.otherwise ss :: cs) where
  passage := by
    have hlabel : Passage "default:\n".toList [.keyword .default, .mark .colon] :=
      passage_of_isLine (by decide +kernel)
    have hall := (hlabel.append ha.passage).append hb.passage
    simpa [clauseKinds] using hall
  formed := ⟨ha.formed, hb.formed⟩
  linked := by rw [linkedClauses, ha.linked, hb.linked]; rfl

/-- A switch on a name. -/
theorem Phrases.switch {name : String} (h : Phrases a cs) (hname : IsName name)
    (hword : IsWord name) (htoken : wordToken name = .name name)
    (hcount : cs.countP (·.isOtherwise) ≤ 1) :
    Phrase ("switch(".toList ++ name.toList ++ ")\x7b\n".toList ++ a ++ "\x7d\n".toList)
      [.switch (.name name) cs] := by
  refine .single ?_ ⟨hname, h.formed, hcount⟩ h.linked rfl
  have hkeyword : IsWord "switch" := by decide
  have hswitch : wordToken "switch" = .keyword .switch := by decide
  have hopen : Passage "\x7b\n".toList [.mark .lbrace] := @passage_markLine .lbrace rfl
  have hclose : Passage "\x7d\n".toList [.mark .rbrace] := @passage_markLine .rbrace rfl
  have hclauses := (hopen.append h.passage).append hclose
  have hrparen : Passage (')' :: _) _ := @Passage.mark _ _ hclauses .rparen rfl
  have hsubject := hrparen.word hword (by decide) (by decide) fun _ => by decide
  have hlparen : Passage ('(' :: _) _ := @Passage.mark _ _ hsubject .lparen rfl
  have hall := hlparen.word hkeyword (by decide) (by decide) fun _ => by decide
  rw [hswitch, htoken] at hall
  simpa [Stmt.kinds, Expr.kinds, bracedKinds] using hall

end

/-! ## Programs -/

theorem Spells.of_nil {ambiguous : Bool} {ks : List TokenKind} (h : Spells ambiguous [] ks) :
    ks = [] := by
  cases h
  rfl

/-- A text is as long as what its tokens stand for, but for the end of the text. -/
theorem Spells.length_le {s : LexState} {cs : List Char} {ambiguous : Bool} {ks : List TokenKind}
    (h : Spells ambiguous (s.tokens cs) ks) : ks.length ≤ cs.length + 1 := by
  induction hn : cs.length using Nat.strongRecOn generalizing s cs ambiguous ks with
  | _ n ih =>
    subst hn
    have hrest : ∀ {x rest : List Char} {t : LexState} {found : Bool} {left : List TokenKind},
        x ≠ [] → cs = x ++ rest → Spells found (t.tokens rest) left →
        left.length + 1 ≤ cs.length + 1 := by
      intro x rest t found left hx hcs hleft
      have hlt := length_lt_of_append hx hcs
      have hlength := ih _ hlt hleft rfl
      omega
    cases hlook : s.look cs with
    | stop kind =>
      rw [tokens_stop hlook] at h
      cases h with
      | token t hnone =>
        rw [hnone.of_nil]
        exact Nat.le_add_left 1 _
      | regex _ hretry => cases hretry
    | skip t rest =>
      rw [tokens_skip hlook] at h
      obtain ⟨x, hx, hcs⟩ := (gapText_of_look hlook).exists_append
      exact Nat.le_of_succ_le (hrest hx hcs h)
    | lineSemi rest =>
      rw [tokens_lineSemi hlook] at h
      obtain ⟨x, hx, hcs⟩ := (lineEnd_of_look hlook).exists_append
      cases h with
      | token t hleft => exact hrest hx hcs hleft
      | regex _ hretry => cases hretry
    | token kind retry rest =>
      rw [tokens_token hlook] at h
      obtain ⟨x, hx, hcs⟩ := (tokenText_of_look hlook).exists_append
      cases h with
      | token t hleft => exact hrest hx hcs hleft
      | regex _ hretry hleft =>
        obtain ⟨again, hagain, hregex⟩ := Option.bind_eq_some_iff.1 hretry
        obtain ⟨⟨text, more⟩, hread, heq⟩ := Option.map_eq_some_iff.1 hregex
        cases heq
        have hchars := (tokenText_of_look hlook).chars_of_retry hagain
        rw [hchars] at hread
        exact hrest (readRegex_ne_nil hread) (readRegex_append hread).symm hleft

/-- A text that is a phrase is the program of its statements. -/
theorem Phrase.parse_eq {source : String} {program : Program}
    (h : Phrase source.toList program) : parse source = some program := by
  have hend : ∀ s : LexState, Spells false (s.tokens []) [.eof] := by
    intro s
    rw [tokens_nil]
    exact .token _ (.nil _)
  have hspells := h.passage [] [.eof] hend {}
  rw [List.append_nil] at hspells
  have hlength := hspells.length_le
  rw [List.length_append, List.length_singleton, String.length_toList] at hlength
  exact parse_of_spells h.formed h.linked hspells (Nat.le_of_succ_le_succ hlength)

end Espalier.Script
