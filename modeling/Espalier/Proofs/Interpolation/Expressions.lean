import Espalier.Proofs.Interpolation.Pieces
import Espalier.Proofs.Scan.Tokens
import Espalier.Proofs.Template.Generated
import Mathlib.Data.List.TakeWhile

/-!
# Expressions in interpolated text

The text of an expression is cut out of an interpolated text as a whole, whatever stands behind it.
That it is an expression is said by the reader of programs: the text is read behind `x = `. The
reader and the machine have to take the same slashes for divisions (`Scan.showing`). Main statement:
`interpolate_expression`; `interpolate_step_division` is a division that the machine takes for the
start of a regular expression.
-/

namespace Espalier.Scan

open Espalier.Script Espalier.Text

/-! ## Slashes are read once -/

/-- A slash is ambiguous only after marks behind which the machine expects an operand. -/
theorem expectsOperand_of_ambiguous {before : Option TokenKind}
    (h : before.any (·.isAmbiguous) = true) : expectsOperand before = true := by
  cases before with
  | none => cases h
  | some kind =>
    rw [Option.any_some] at h
    unfold TokenKind.isAmbiguous at h
    split at h <;> first | rfl | cases h

/-- Where the machine takes every token for what it is, no slash has to be read again. -/
theorem settled_of_showing (s : LexState) (cs : List Char)
    (h : showing s.previous (s.tokens cs) = true) : Settled (s.tokens cs) := by
  induction s, cs using LexState.look_induction with
  | stop s cs kind hlook =>
    rw [tokens_stop hlook]
    exact List.forall_mem_singleton.2 rfl
  | skip s cs s' rest hlook ih =>
    rw [tokens_skip hlook] at h ⊢
    rw [← (gapText_of_look hlook).previous_eq] at h
    exact ih h
  | lineSemi s cs rest hlook ih =>
    rw [tokens_lineSemi hlook] at h ⊢
    exact List.forall_mem_cons.2 ⟨rfl, ih h⟩
  | token s cs kind retry rest hlook ih =>
    have htext := tokenText_of_look hlook
    rw [tokens_token hlook] at h ⊢
    rw [showing, if_neg htext.kind_ne_lineSemi, Bool.and_eq_true] at h
    refine List.forall_mem_cons.2 ⟨?_, ih (by rw [previous_after]; exact h.2)⟩
    cases htext with
    | word | number | string | regex | mark => rfl
    | @slash m _ hslash =>
      have hbefore : expectsOperand s.previous = false := by simpa [shows, hslash] using h.1
      refine if_neg fun hany => ?_
      rw [expectsOperand_of_ambiguous hany] at hbefore
      cases hbefore

/-! ## Blank text is no expression -/

theorem isBlank_of_isPlain {c : Char} (h : isPlain c = true) : isBlank c = false := by
  rw [isPlain, Bool.and_eq_true, Bool.not_eq_true'] at h
  exact h.2

theorem isBlank_of_mark (m : Mark) : ∀ c ∈ m.text.toList, isBlank c = false := by
  have hnone : m.text.toList.any isBlank = false := by
    cases m with
    | binary op => cases op <;> decide
    | assign op => cases op <;> decide
    | _ => decide
  exact fun c hc => Bool.eq_false_iff.2 (List.any_eq_false.1 hnone c hc)

/-- A token does not begin with a blank. -/
theorem isBlank_of_tokenText {s : LexState} {c : Char} {cs rest : List Char} {kind : TokenKind}
    {retry : Option Retry} (h : TokenText s (c :: cs) kind retry rest) : isBlank c = false := by
  have hfirst : ∀ {w : List Char}, (∀ d ∈ w, isBlank d = false) → w ≠ [] → c :: cs = w ++ rest →
      isBlank c = false := by
    intro w hw hne heq
    cases w with
    | nil => exact absurd rfl hne
    | cons d w =>
      cases heq
      exact hw c List.mem_cons_self
  generalize htext : c :: cs = text at h
  cases h with
  | @word w rest hne hread =>
    refine hfirst (fun d hd => ?_) hne htext
    have hmem : d ∈ (readName (w ++ rest)).1 := by rwa [hread]
    exact isBlank_of_isPlain (isQuiet_iff.1 (isQuiet_of_name (mem_readName hmem))).1
  | @number w rest hne hread =>
    have hoperand := operand_readNumber (w ++ rest)
    rw [hread] at hoperand
    exact hfirst (fun d hd => isBlank_of_isPlain (hoperand.plain d hd)) hne htext
  | string hmark =>
    cases htext
    obtain rfl | rfl := hmark <;> decide
  | regex =>
    cases htext
    decide
  | @slash m => exact hfirst (isBlank_of_mark m) m.text_ne_nil htext
  | @mark m => exact hfirst (isBlank_of_mark m) m.text_ne_nil htext

/-- What is passed over in blanks leaves blanks. -/
theorem blank_of_gapText {s s' : LexState} {w rest : List Char} (hw : ∀ c ∈ w, isBlank c = true)
    (h : GapText s (w ++ [';']) s' rest) :
    ∃ w', (∀ c ∈ w', isBlank c = true) ∧ rest = w' ++ [';'] := by
  have hleft : ∀ piece : List Char, piece.getLast? ≠ some ';' → piece ++ rest = w ++ [';'] →
      ∃ w', (∀ c ∈ w', isBlank c = true) ∧ rest = w' ++ [';'] := by
    intro piece hlast heq
    obtain ⟨w', rfl, hrest⟩ := exists_rest_of_append heq hlast
    exact ⟨w', fun c hc => hw c (List.mem_append_right _ hc), hrest⟩
  have hslash : ∀ {cs : List Char}, w ++ [';'] ≠ '/' :: cs := by
    intro cs heq
    cases w with
    | nil => cases heq
    | cons c w =>
      cases heq
      exact absurd (hw '/' List.mem_cons_self) (by decide)
  generalize htext : w ++ [';'] = text at h
  cases h with
  | @space c _ hspace =>
    refine hleft [c] ?_ htext.symm
    rintro ⟨⟩
    exact absurd hspace (by decide)
  | lineEnd hline =>
    cases hline with
    | newline => exact hleft ['\n'] (by decide) htext.symm
    | «return» => exact hleft ['\r'] (by decide) htext.symm
    | both => exact hleft ['\r', '\n'] (by decide) htext.symm
  | blockComment | lineComment => exact absurd htext hslash

/-- The token ends a statement, or is none. -/
def endsShort (kind : TokenKind) : Prop :=
  kind = .mark .semi ∨ kind = .lineSemi ∨ kind = .invalid

/-- Behind blanks comes the semicolon, if no character before it is out of place. -/
theorem nextKind_of_blank (s : LexState) (cs : List Char)
    (h : ∃ w, (∀ c ∈ w, isBlank c = true) ∧ cs = w ++ [';']) :
    endsShort (Reader.nextKind (s.tokens cs)) := by
  induction s, cs using LexState.look_induction with
  | stop s cs kind hlook =>
    obtain ⟨w, hw, rfl⟩ := h
    rw [tokens_stop hlook]
    obtain ⟨-, hnil⟩ | hkind := stop_of_look hlook
    · exact absurd hnil (by simp)
    · exact .inr (.inr hkind)
  | skip s cs s' rest hlook ih =>
    obtain ⟨w, hw, rfl⟩ := h
    rw [tokens_skip hlook]
    exact ih (blank_of_gapText hw (gapText_of_look hlook))
  | lineSemi s cs rest hlook ih =>
    rw [tokens_lineSemi hlook]
    exact .inr (.inl rfl)
  | token s cs kind retry rest hlook ih =>
    obtain ⟨w, hw, rfl⟩ := h
    cases w with
    | nil =>
      cases hlook.symm.trans (show s.look [';'] = .token (.mark .semi) none [] from rfl)
      rw [tokens_token hlook]
      exact .inl rfl
    | cons c w =>
      have hc := isBlank_of_tokenText (tokenText_of_look hlook)
      rw [hw c List.mem_cons_self] at hc
      cases hc

end Espalier.Scan

namespace Espalier.Script.Reader

/-- No expression without commas is read where a statement ends. -/
theorem run_assignment_short {ts : List Token} (h : Scan.endsShort (nextKind ts)) (fuel : Nat)
    (place : Place) : (assignment fuel place).run ts = none := by
  match ts with
  | [] => obtain h | h | h := h <;> cases h
  | ⟨kind, line, retry⟩ :: ts =>
    -- assignment, left-hand side, construction and primary expression
    match fuel with
    | 0 | 1 | 2 | 3 => obtain rfl | rfl | rfl := h <;> rfl
    | fuel + 4 => obtain rfl | rfl | rfl := h <;> rfl

/-- Nothing is read of an assignment without its right side. -/
theorem run_statements_short {name eq : Token} {ts : List Token} {id : String}
    (hname : name.kind = .name id) (heq : eq.kind = .mark (.assign .plain))
    (h : Scan.endsShort (nextKind ts)) (fuel : Nat) :
    (statements fuel).run (name :: eq :: ts) = none := by
  obtain ⟨_, line, retry⟩ := name
  obtain ⟨_, line', retry'⟩ := eq
  cases hname
  cases heq
  have htail : ∀ fuel, (assignmentTail fuel .statement (.name id)).run
      (⟨.mark (.assign .plain), line', retry'⟩ :: ts) = none := by
    intro fuel
    cases fuel with
    | zero => rfl
    | succ fuel =>
      rw [assignmentTail]
      show ((assignment fuel Place.statement.next).run ts).bind _ = none
      rw [run_assignment_short h]
      rfl
  have hexpr : ∀ fuel, (expr fuel .statement).run
      (⟨.name id, line, retry⟩ :: ⟨.mark (.assign .plain), line', retry'⟩ :: ts) = none := by
    intro fuel
    obtain _ | _ | _ | _ | _ | fuel := fuel
    case succ.succ.succ.succ.succ =>
      show ((assignmentTail (fuel + 3) .statement (.name id)).run
        (⟨.mark (.assign .plain), line', retry'⟩ :: ts)).bind _ = none
      rw [htail]
      rfl
    all_goals rfl
  obtain _ | _ | _ | fuel := fuel
  case succ.succ.succ =>
    show ((((expr fuel .statement).run
        (⟨.name id, line, retry⟩ :: ⟨.mark (.assign .plain), line', retry'⟩ :: ts)).bind _).bind _)
      = none
    rw [hexpr]
    rfl
  all_goals rfl

end Espalier.Script.Reader

namespace Espalier

open Espalier.Script Espalier.Scan Espalier.Text Interpolation

/-! ## Behind `x = ` -/

/-- The state in which the text behind `x = ` is read. -/
def assigned : LexState :=
  (({} : LexState).after (.name "x")).after (.mark (.assign .plain))

theorem tokenize_assignment (e : String) :
    tokenize ("x = " ++ e ++ ";") = ⟨.name "x", false, none⟩ ::
      ⟨.mark (.assign .plain), false, none⟩ :: assigned.tokens (e.toList ++ [';']) := by
  have htext : ("x = " ++ e ++ ";").toList
      = 'x' :: ' ' :: '=' :: ' ' :: (e.toList ++ [';']) := by
    simp
  rw [tokenize, htext]
  generalize e.toList ++ [';'] = cs
  calc ({} : LexState).tokens ('x' :: ' ' :: '=' :: ' ' :: cs)
      = ⟨.name "x", false, none⟩ ::
          (({} : LexState).after (.name "x")).tokens (' ' :: '=' :: ' ' :: cs) := tokens_token rfl
    _ = ⟨.name "x", false, none⟩ ::
          (({} : LexState).after (.name "x")).tokens ('=' :: ' ' :: cs) :=
        congrArg _ (tokens_skip rfl)
    _ = ⟨.name "x", false, none⟩ :: ⟨.mark (.assign .plain), false, none⟩ ::
          assigned.tokens (' ' :: cs) := congrArg _ (tokens_token rfl)
    _ = _ := congrArg _ (congrArg _ (tokens_skip rfl))

/-- Text that has nothing but blanks at its ends is blank. -/
theorem isBlank_of_strip {cs : List Char} (h : strip cs = []) : ∀ c ∈ cs, isBlank c = true := by
  have hdrop : ∀ c ∈ cs.dropWhile isBlank, isBlank c = true := by
    rw [strip, stripRight, List.reverse_eq_nil_iff, List.dropWhile_eq_nil_iff] at h
    exact fun c hc => h c (List.mem_reverse.2 hc)
  rw [← List.takeWhile_append_dropWhile (p := isBlank) (l := cs)]
  exact List.forall_mem_append.2 ⟨List.all_eq_true.1 List.all_takeWhile, hdrop⟩

section
variable {e : String} {program : Program} (hparse : parse ("x = " ++ e ++ ";") = some program)
include hparse

/-- An expression is not blank. -/
theorem strip_ne_nil_of_parse : strip e.toList ≠ [] := by
  intro hblank
  have hshort : Scan.endsShort (Reader.nextKind (assigned.tokens (e.toList ++ [';']))) :=
    nextKind_of_blank _ _ ⟨_, isBlank_of_strip hblank, rfl⟩
  rw [parse, parseTokens, tokenize_assignment, Reader.run_statements_short rfl rfl hshort] at hparse
  cases hparse

/-- The text of an expression is balanced, if the machine takes its tokens for what they are. -/
theorem balanced_of_parse (hshown : showing none (tokenize ("x = " ++ e ++ ";")) = true)
    (hcomment : ¬['/', '/'] <:+: e.toList) (hmark : '\ufeff' ∉ e.toList) :
    Balanced true e.toList := by
  obtain ⟨front, last, htokens, hlast, hcross⟩ :=
    crossAll_of_parse hparse (settled_of_showing _ _ hshown)
  rw [tokenize_assignment] at hshown htokens
  match front with
  | [] => cases htokens
  | [_] => exact absurd (List.cons.inj (List.cons.inj htokens).2).2 (tokens_ne_nil _ _)
  | name :: eq :: front =>
    simp only [List.cons_append, List.cons.injEq] at htokens
    obtain ⟨rfl, rfl, htokens⟩ := htokens
    exact unwinds_of_tokens _ htokens hlast hcross hshown hcomment hmark

end

/-- An expression is cut out of a text as it stands, if the machine takes its tokens for what they
are: its divisions and regular expressions, and the line ends in its literals. It holds no `//`,
which the machine would take for a comment that goes on behind its end, and no byte-order mark,
which is no blank. -/
theorem interpolate_expression {e tail : String} {op : AssignOp} {value : Expr}
    (hparse : parse ("x = " ++ e ++ ";") = some [.expr (.assign op (.name "x") value)])
    (hcomment : ¬['/', '/'] <:+: e.toList) (htail : Template.opensInterpolation tail.toList = false)
    (hshown : showing none (tokenize ("x = " ++ e ++ ";")) = true) (hmark : '\ufeff' ∉ e.toList) :
    interpolate ("#\x7b" ++ e ++ "\x7d" ++ tail) = (⟨.text, e⟩ :: (interpolate tail).1, none) := by
  have hbalanced := balanced_of_parse hparse hshown hcomment hmark
  have hcut : closedBy "\x7d" ("#\x7b" ++ e ++ "\x7d" ++ tail).length 2
      (e.toList ++ '\x7d' :: tail.toList) = .ok ⟨e.toList, '\x7d', tail.toList⟩ :=
    closedBy_brace_iff.2 ⟨rfl, rfl, hbalanced⟩
  have hne := strip_ne_nil_of_parse hparse
  have htext : ("#\x7b" ++ e ++ "\x7d" ++ tail).toList
      = '#' :: '\x7b' :: (e.toList ++ '\x7d' :: tail.toList) := by
    simp
  rw [interpolate, htext, segmentsFrom_opened rfl, Nat.zero_add, hcut]
  simp only [List.isEmpty_iff, if_neg hne]
  rw [Template.segmentsFrom_of_plain htail, interpolate, Template.segmentsFrom_of_plain htail]
  simp [literal]

/-- A division after a bracket, and a brace in a regular expression. -/
theorem interpolate_expression_regex :
    parse "x = a[i] / 2 + f(\x7bb: /\x7d/g\x7d);" = some [.expr (.assign .plain (.name "x")
      (.binary .add (.binary .div (.index (.name "a") (.name "i")) (.number "2"))
        (.call (.name "f") [.object [.field (.name "b") (.regex "/\x7d/g")]])))] ∧
    interpolate "#\x7ba[i] / 2 + f(\x7bb: /\x7d/g\x7d)\x7d." =
      ([⟨.text, "a[i] / 2 + f(\x7bb: /\x7d/g\x7d)"⟩, ⟨.text, "\x22.\x22"⟩], none) := by
  have htokens : tokenize "x = a[i] / 2 + f(\x7bb: /\x7d/g\x7d);" =
      [TokenKind.name "x", .mark (.assign .plain), .name "a", .mark .lbracket, .name "i",
        .mark .rbracket, .mark (.binary .div), .number "2", .mark (.binary .add), .name "f",
        .mark .lparen, .mark .lbrace, .name "b", .mark .colon, .regex "/\x7d/g", .mark .rbrace,
        .mark .rparen, .mark .semi, .eof].map (⟨·, false, none⟩) := by
    decide +kernel
  have hparse : parse "x = a[i] / 2 + f(\x7bb: /\x7d/g\x7d);"
      = some [.expr (.assign .plain (.name "x")
        (.binary .add (.binary .div (.index (.name "a") (.name "i")) (.number "2"))
          (.call (.name "f") [.object [.field (.name "b") (.regex "/\x7d/g")]])))] := by
    rw [parse, htokens]
    rfl
  have hshown : showing none (tokenize "x = a[i] / 2 + f(\x7bb: /\x7d/g\x7d);") = true := by
    rw [htokens]
    decide
  have htail : Template.opensInterpolation ".".toList = false := rfl
  have htext : "x = a[i] / 2 + f(\x7bb: /\x7d/g\x7d);"
      = "x = " ++ "a[i] / 2 + f(\x7bb: /\x7d/g\x7d)" ++ ";" := by decide
  have hcut := interpolate_expression (htext ▸ hparse) (by decide +kernel) htail
    (htext ▸ hshown) (by decide +kernel)
  have hrest : (interpolate ".").1 = [⟨.text, "\x22.\x22"⟩] := by
    rw [Template.interpolate_of_plain htail]
    decide
  have hwhole : "#\x7b" ++ "a[i] / 2 + f(\x7bb: /\x7d/g\x7d)" ++ "\x7d" ++ "."
      = "#\x7ba[i] / 2 + f(\x7bb: /\x7d/g\x7d)\x7d." := by decide
  rw [hwhole, hrest] at hcut
  exact ⟨hparse, hcut⟩

/-- A slash behind an increment divides, but the machine takes it for the start of a regular
expression, which does not end. -/
theorem interpolate_step_division :
    parse "x = a++ / 2;" = some [.expr (.assign .plain (.name "x")
      (.binary .div (.step (.name "a") .increment) (.number "2")))] ∧
    ¬['/', '/'] <:+: "a++ / 2".toList ∧
    interpolate "#\x7ba++ / 2\x7d" = ([], some ⟨.openRegex, 6⟩) := by
  have htokens : tokenize "x = a++ / 2;" = [⟨.name "x", false, none⟩,
      ⟨.mark (.assign .plain), false, none⟩, ⟨.name "a", false, none⟩,
      ⟨.mark .increment, false, none⟩,
      ⟨.mark (.binary .div), false,
        some ⟨⟨some (.mark .increment), .token, false, [], false⟩, "/ 2;".toList⟩⟩,
      ⟨.number "2", false, none⟩, ⟨.mark .semi, false, none⟩, ⟨.eof, false, none⟩] := by
    decide +kernel
  refine ⟨?_, by decide +kernel, ?_⟩
  · rw [parse, htokens]
    rfl
  · have htext : "#\x7ba++ / 2\x7d".toList
        = ['#', '\x7b', 'a', '+', '+', ' ', '/', ' ', '2', '\x7d'] := by decide
    rw [interpolate, htext, segmentsFrom_opened rfl]
    rfl

end Espalier
