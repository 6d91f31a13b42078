import Espalier.Proofs.Scan.Balanced

/-!
# What a successful reading has read

The converse of `Balanced.passes`: when the machine finds an unmatched bracket, the text before it
is balanced. The invariant relates the state to the text that is still to be read: `Closes` says
that a text closes the open frames one after the other, with balanced text in between, and
`Completes` adds the literal or comment that the machine is in the middle of.

`CodeStep` says once what a step in code can do; everything else about code is derived from it.
-/

namespace Espalier.Scan

open Espalier.Text

/-! ## Steps in code -/

/-- The steps from a state in code, with the character that each one takes. -/
inductive CodeStep (stack : List Frame) (operand : Bool) (position : Nat) (c : Char)
    (next : Option Char) : State → Event → Prop
  | quote : c = '\x22' ∨ c = '\x27' →
      CodeStep stack operand position c next ⟨.quoted c position false, stack, operand⟩ .covered
  | backtick : c = '\x60' →
      CodeStep stack operand position c next ⟨.code, .template :: stack, operand⟩ .covered
  | lineComment : c = '/' → next = some '/' →
      CodeStep stack operand position c next ⟨.lineComment, stack, operand⟩ .covered
  | blockComment : c = '/' → next = some '*' →
      CodeStep stack operand position c next ⟨.blockComment position true, stack, operand⟩ .covered
  | regex : c = '/' → next ≠ some '/' → next ≠ some '*' → operand = true →
      CodeStep stack operand position c next ⟨.regex position false false, stack, operand⟩ .covered
  | opener {frame : Frame} : Frame.ofOpener? c = some frame →
      CodeStep stack operand position c next ⟨.code, frame :: stack, true⟩ (.plain stack.length)
  | closer {frame : Frame} {rest : List Frame} : stack = frame :: rest → frame ≠ .template →
      frame.closer = c →
      CodeStep stack operand position c next ⟨.code, rest, beforeOperand c⟩ (.plain rest.length)
  | unmatched : stack = [] → isCloser c = true →
      CodeStep stack operand position c next ⟨.code, [], beforeOperand c⟩ .unmatched
  | ordinary : isOrdinary c = true →
      (c = '/' → operand = false ∧ next ≠ some '/' ∧ next ≠ some '*') →
      CodeStep stack operand position c next ⟨.code, stack, operandAfter operand c⟩
        (.plain stack.length)

section
variable {stack : List Frame} {operand : Bool} {position : Nat} {c : Char} {next : Option Char}
  {s' : State} {event : Event}

theorem CodeStep.of_codeChar (hquote : ¬(c = '\x22' ∨ c = '\x27')) (htick : c ≠ '\x60')
    (hslash : c = '/' → operand = false ∧ next ≠ some '/' ∧ next ≠ some '*')
    (h : State.codeChar ⟨.code, stack, operand⟩ position c = .ok (s', event)) :
    CodeStep stack operand position c next s' event := by
  unfold State.codeChar at h
  split at h
  case h_1 frame hopener =>
    cases h
    obtain ⟨rfl, -⟩ | ⟨rfl, -⟩ | ⟨rfl, -⟩ := ofOpener?_eq_some hopener
    all_goals exact .opener hopener
  case h_2 hopener =>
    split at h
    case isTrue hcloser =>
      have hafter : State.operandAfter ⟨.code, stack, operand⟩ c = beforeOperand c := by
        obtain rfl | rfl | rfl := closer_cases hcloser <;> rfl
      unfold State.close at h
      rw [hafter] at h
      split at h
      case h_1 hempty =>
        cases h
        cases hempty
        exact .unmatched rfl hcloser
      case h_2 frame rest hcons =>
        split at h
        case isTrue hmatch =>
          cases h
          refine .closer hcons ?_ hmatch
          rintro rfl
          rw [← hmatch] at hcloser
          cases hcloser
        case isFalse => cases h
    case isFalse hcloser =>
      cases h
      refine .ordinary ?_ hslash
      simp only [not_or] at hquote
      simp [isOrdinary, hquote, htick, hopener, hcloser]

theorem CodeStep.of_inCode
    (h : State.inCode ⟨.code, stack, operand⟩ position c next = .ok (s', event)) :
    CodeStep stack operand position c next s' event := by
  unfold State.inCode at h
  split at h
  case isTrue hquote => cases h; exact .quote hquote
  case isFalse hquote =>
  split at h
  case isTrue htick => cases h; exact .backtick htick
  case isFalse htick =>
  split at h
  case isTrue hline => cases h; exact .lineComment hline.1 hline.2
  case isFalse hline =>
  split at h
  case isTrue hblock => cases h; exact .blockComment hblock.1 hblock.2
  case isFalse hblock =>
  split at h
  case isTrue hregex =>
    cases h
    exact .regex hregex.1 (fun hn => hline ⟨hregex.1, hn⟩) (fun hn => hblock ⟨hregex.1, hn⟩)
      hregex.2
  case isFalse hregex =>
    refine .of_codeChar hquote htick (fun hc => ⟨?_, ?_, ?_⟩) h
    · exact Bool.eq_false_iff.2 fun ho => hregex ⟨hc, ho⟩
    · exact fun hn => hline ⟨hc, hn⟩
    · exact fun hn => hblock ⟨hc, hn⟩

end

/-! ## Texts that close what is open -/

/-- The text closes the open frames, innermost first, and ends in balanced text. -/
def Closes : (stack : List Frame) → (operand : Bool) → List Char → Prop
  | [], operand, w => Balanced operand w
  | .template :: stack, _, w =>
    ∃ text rest, w = text ++ rest ∧ TemplateText text ∧ Closes stack false rest
  | frame :: stack, operand, w =>
    ∃ inner rest, w = inner ++ frame.closer :: rest ∧ Balanced operand inner ∧
      Closes stack (beforeOperand frame.closer) rest

theorem closes_cons {frame : Frame} (h : frame ≠ .template) {stack : List Frame} {operand : Bool}
    {w : List Char} : Closes (frame :: stack) operand w ↔
      ∃ inner rest, w = inner ++ frame.closer :: rest ∧ Balanced operand inner ∧
        Closes stack (beforeOperand frame.closer) rest := by
  cases frame with
  | template => exact absurd rfl h
  | round | square | curly => rfl

/-- A token in front of the innermost balanced text. The token may look at the text that follows. -/
theorem Closes.front {stack : List Frame} {operand operand' : Bool} {w : List Char}
    (hstack : stack.head? ≠ some .template) (token : List Char) (h : Closes stack operand' w)
    (htoken : ∀ v, v <+: w → Balanced operand' v → Balanced operand (token ++ v)) :
    Closes stack operand (token ++ w) := by
  cases stack with
  | nil => exact htoken w (List.prefix_refl w) h
  | cons frame stack =>
    have hframe : frame ≠ .template := fun heq => hstack (congrArg some heq)
    obtain ⟨inner, rest, rfl, hinner, hrest⟩ := (closes_cons hframe).1 h
    exact (closes_cons hframe).2 ⟨token ++ inner, rest, by rw [List.append_assoc],
      htoken inner (List.prefix_append _ _) hinner, hrest⟩

/-- An ordinary character at the start of balanced text is a character of its own, unless it is a
slash. -/
theorem Balanced.of_ordinary {operand : Bool} {c : Char} {cs : List Char} (hc : isOrdinary c = true)
    (hslash : c ≠ '/') (h : Balanced operand (c :: cs)) : Balanced (operandAfter operand c) cs := by
  cases h with
  | quoted hmark => rcases hmark with rfl | rfl <;> cases hc
  | regex | blockComment | lineComment => exact absurd rfl hslash
  | template => cases hc
  | group hopener => obtain ⟨rfl, -⟩ | ⟨rfl, -⟩ | ⟨rfl, -⟩ := ofOpener?_eq_some hopener <;> cases hc
  | char _ _ hcs => exact hcs

/-- A blank at the start of balanced text changes nothing. -/
theorem Balanced.of_blank {operand : Bool} {c : Char} {cs : List Char} (hc : isBlank c = true)
    (h : Balanced operand (c :: cs)) : Balanced operand cs := by
  have hcs := h.of_ordinary (isOrdinary_of_isBlank hc) (ne_of_isBlank hc List.mem_cons_self)
  rwa [operandAfter, if_pos hc] at hcs

theorem Closes.of_newline {stack : List Frame} {operand : Bool} {cs : List Char}
    (hstack : stack.head? ≠ some .template) (h : Closes stack operand ('\n' :: cs)) :
    Closes stack operand cs := by
  cases stack with
  | nil => exact Balanced.of_blank rfl h
  | cons frame stack =>
    have hframe : frame ≠ .template := fun heq => hstack (congrArg some heq)
    obtain ⟨inner, rest, heq, hinner, hrest⟩ := (closes_cons hframe).1 h
    cases inner with
    | nil => cases frame <;> cases heq
    | cons d inner =>
      cases heq
      exact (closes_cons hframe).2 ⟨inner, rest, rfl, hinner.of_blank rfl, hrest⟩

/-! ## Texts that complete a state -/

/-- Like `P`, but behind one more character if there is one to pass. -/
def Behind (one : Bool) (P : List Char → Prop) (w : List Char) : Prop :=
  match one with
  | true => ∃ c rest, w = c :: rest ∧ P rest
  | false => P w

/-- The text completes what the machine is in the middle of, and closes the open frames. -/
def Completes (s : State) (w : List Char) : Prop :=
  match s.mode with
  | .code => Closes s.stack s.operand w
  | .skip => ∃ c rest, w = c :: rest ∧ Closes s.stack s.operand rest
  | .quoted mark _ escaped =>
    ∃ text rest, w = text ++ rest ∧ Behind escaped (QuotedText mark) text ∧
      Closes s.stack false rest
  | .lineComment =>
    ∃ d text rest, w = d :: (text ++ '\n' :: rest) ∧ '\n' ∉ text ∧
      Closes s.stack s.operand ('\n' :: rest)
  | .blockComment _ opening =>
    ∃ text rest, w = text ++ rest ∧ Behind opening CommentText text ∧
      Closes s.stack s.operand rest
  | .regex _ inClass escaped =>
    ∃ text flags rest, w = text ++ (flags ++ rest) ∧ Behind escaped (RegexText inClass) text ∧
      flags.all isFlag = true ∧ Closes s.stack false rest
  | .flags =>
    ∃ flags rest, w = flags ++ rest ∧ flags.all isFlag = true ∧ Closes s.stack s.operand rest

/-- What the machine knows of the next character by having looked ahead. -/
def Ready (s : State) (next : Option Char) : Prop :=
  match s.mode with
  | .flags => next.any isFlag = true
  | .lineComment => next ≠ some '\n'
  | _ => True

section
variable {stack : List Frame} {operand : Bool} {position : Nat} {c : Char} {next : Option Char}
  {s s' : State} {event : Event} {w : List Char}

/-- The next character begins every text that begins what is to be read. -/
theorem startsComment_eq_false_of_next {v : List Char} (hv : v <+: w)
    (hnext : ∀ d rest, w = d :: rest → next = some d) (hline : next ≠ some '/')
    (hblock : next ≠ some '*') : startsComment v = false := by
  rw [startsComment_eq_false]
  cases v with
  | nil => exact ⟨nofun, nofun⟩
  | cons d v =>
    obtain ⟨rest, rfl⟩ := hv
    rw [List.head?_cons, ← hnext d _ rfl]
    exact ⟨hline, hblock⟩

/-- A step in code. -/
theorem Completes.codeStep (hstack : stack.head? ≠ some .template)
    (hstep : CodeStep stack operand position c next s' event) (hevent : event ≠ .unmatched)
    (hnext : ∀ d rest, w = d :: rest → next = some d) (h : Completes s' w) :
    Closes stack operand (c :: w) := by
  cases hstep with
  | quote hmark =>
    obtain ⟨text, rest, rfl, htext, hrest⟩ := h
    exact hrest.front hstack (c :: text) fun v _ hv => .quoted hmark htext hv
  | backtick hc =>
    subst hc
    obtain ⟨text, rest, rfl, htext, hrest⟩ := h
    exact hrest.front hstack ('\x60' :: text) fun v _ hv => .template htext hv
  | lineComment hc hn =>
    obtain ⟨d, text, rest, rfl, htext, hrest⟩ := h
    obtain rfl : d = '/' := Option.some.inj ((hnext _ _ rfl).symm.trans hn)
    subst hc
    have hclose := (hrest.of_newline hstack).front hstack ('/' :: '/' :: (text ++ ['\n']))
      fun v _ hv => by simpa using Balanced.lineComment htext hv
    simpa using hclose
  | blockComment hc hn =>
    obtain ⟨text, rest, rfl, ⟨d, inner, rfl, hinner⟩, hrest⟩ := h
    obtain rfl : d = '*' := Option.some.inj ((hnext _ _ rfl).symm.trans hn)
    subst hc
    exact hrest.front hstack ('/' :: '*' :: inner) fun v _ hv => .blockComment hinner hv
  | regex hc hline hblock hoperand =>
    obtain ⟨text, flags, rest, rfl, htext, hflags, hrest⟩ := h
    subst hc hoperand
    have hstart : startsComment text = false :=
      startsComment_eq_false_of_next (List.prefix_append _ _) hnext hline hblock
    have hclose := hrest.front hstack ('/' :: (text ++ flags)) fun v _ hv => by
      simpa using Balanced.regex hstart htext hflags hv
    simpa using hclose
  | @opener frame hopener =>
    have hframe := ne_template_of_ofOpener? hopener
    obtain ⟨inner, rest, rfl, hinner, hrest⟩ := (closes_cons hframe).1 h
    have hclose : Closes stack operand (c :: (inner ++ [frame.closer]) ++ rest) :=
      hrest.front hstack _ fun v _ hv => by simpa using Balanced.group hopener hinner hv
    simpa using hclose
  | closer hcons hframe hcloser =>
    subst hcons hcloser
    exact (closes_cons hframe).2 ⟨[], w, rfl, .nil, h⟩
  | unmatched => exact absurd rfl hevent
  | ordinary hordinary hslash =>
    refine Closes.front hstack [c] h fun v hv hbalanced => .char hordinary (fun hc => ?_) hbalanced
    obtain ⟨hoperand, hline, hblock⟩ := hslash hc
    exact ⟨hoperand, startsComment_eq_false_of_next hv hnext hline hblock⟩

/-- A step in the text of a template literal. -/
theorem Completes.templateStep (hnext : ∀ d rest, w = d :: rest → next = some d)
    (h : Completes (State.inTemplate ⟨.code, .template :: stack, operand⟩ stack c next) w) :
    Closes (.template :: stack) operand (c :: w) := by
  unfold State.inTemplate at h
  split at h
  case isTrue hslash =>
    obtain ⟨d, _, rfl, text, rest, rfl, htext, hrest⟩ := h
    subst hslash
    exact ⟨_, rest, rfl, .escape htext, hrest⟩
  case isFalse hslash =>
  split at h
  case isTrue htick =>
    subst htick
    exact ⟨['\x60'], w, rfl, .close, h⟩
  case isFalse htick =>
  split at h
  case isTrue hdollar =>
    obtain ⟨d, _, rfl, hclose⟩ := h
    obtain rfl : d = '\x7b' := Option.some.inj ((hnext _ _ rfl).symm.trans hdollar.2)
    obtain ⟨inner, _, rfl, hinner, text, rest, rfl, htext, hrest⟩ := hclose
    obtain ⟨rfl, -⟩ := hdollar
    refine ⟨'$' :: '\x7b' :: (inner ++ '\x7d' :: text), rest, ?_, .substitution hinner htext, hrest⟩
    simp [Frame.closer]
  case isFalse hdollar =>
    obtain ⟨text, rest, rfl, htext, hrest⟩ := h
    refine ⟨c :: text, rest, rfl, .char hslash htick (fun hd => hdollar ⟨hd.1, ?_⟩) htext, hrest⟩
    cases text with
    | nil => cases hd.2
    | cons d text => rw [hnext d _ rfl, ← hd.2]; rfl

theorem Completes.quotedStep {mark : Char} {start : Nat} {escaped : Bool}
    (hstep : State.step ⟨.quoted mark start escaped, stack, operand⟩ position c next
      = .ok (s', event)) (h : Completes s' w) :
    Completes ⟨.quoted mark start escaped, stack, operand⟩ (c :: w) := by
  cases escaped with
  | true =>
    cases hstep
    obtain ⟨text, rest, rfl, htext, hrest⟩ := h
    exact ⟨c :: text, rest, rfl, ⟨c, text, rfl, htext⟩, hrest⟩
  | false =>
    simp only [State.step, Bool.false_eq_true, if_false] at hstep
    split at hstep
    case isTrue hslash =>
      cases hstep
      obtain ⟨_, rest, rfl, ⟨d, text, rfl, htext⟩, hrest⟩ := h
      subst hslash
      exact ⟨'\x5c' :: d :: text, rest, rfl, .escape htext, hrest⟩
    case isFalse hslash =>
    split at hstep
    case isTrue hmark =>
      cases hstep
      subst hmark
      exact ⟨[c], w, rfl, .close, h⟩
    case isFalse hmark =>
    split at hstep
    case isTrue => cases hstep
    case isFalse hline =>
      cases hstep
      obtain ⟨text, rest, rfl, htext, hrest⟩ := h
      exact ⟨c :: text, rest, rfl, .char hslash hmark hline htext, hrest⟩

/-- Behind a regular expression come its flags, if there are any. -/
theorem Completes.afterRegex (h : Completes ⟨Scan.afterRegex next, stack, operand⟩ w) :
    ∃ flags rest, w = flags ++ rest ∧ flags.all isFlag = true ∧ Closes stack operand rest := by
  unfold Scan.afterRegex at h
  split at h
  case isTrue => exact h
  case isFalse => exact ⟨[], w, rfl, rfl, h⟩

theorem Completes.regexStep {inClass : Bool} {start : Nat} {escaped : Bool}
    (hstep : State.step ⟨.regex start inClass escaped, stack, operand⟩ position c next
      = .ok (s', event)) (h : Completes s' w) :
    Completes ⟨.regex start inClass escaped, stack, operand⟩ (c :: w) := by
  cases escaped with
  | true =>
    cases hstep
    obtain ⟨text, flags, rest, rfl, htext, hrest⟩ := h
    exact ⟨c :: text, flags, rest, rfl, ⟨c, text, rfl, htext⟩, hrest⟩
  | false =>
    simp only [State.step, Bool.false_eq_true, if_false] at hstep
    split at hstep
    case isTrue hslash =>
      cases hstep
      obtain ⟨_, flags, rest, rfl, ⟨d, text, rfl, htext⟩, hrest⟩ := h
      subst hslash
      exact ⟨'\x5c' :: d :: text, flags, rest, rfl, .escape htext, hrest⟩
    case isFalse hslash =>
    split at hstep
    case isTrue => cases hstep
    case isFalse hline =>
    split at hstep
    case isTrue hclass =>
      cases hstep
      obtain ⟨text, flags, rest, rfl, htext, hrest⟩ := h
      refine ⟨c :: text, flags, rest, rfl, ?_, hrest⟩
      subst hclass
      by_cases hclose : c = ']'
      · subst hclose
        exact .closeClass (by simpa [Behind] using htext)
      · exact .classChar hslash hline hclose (by simpa [Behind, hclose] using htext)
    case isFalse hclass =>
    obtain rfl : inClass = false := Bool.eq_false_iff.2 hclass
    split at hstep
    case isTrue hopen =>
      cases hstep
      obtain ⟨text, flags, rest, rfl, htext, hrest⟩ := h
      subst hopen
      exact ⟨'[' :: text, flags, rest, rfl, .openClass htext, hrest⟩
    case isFalse hopen =>
    split at hstep
    case isTrue hend =>
      cases hstep
      obtain ⟨flags, rest, rfl, hflags, hrest⟩ := h.afterRegex
      subst hend
      exact ⟨['/'], flags, rest, rfl, .close, hflags, hrest⟩
    case isFalse hend =>
      cases hstep
      obtain ⟨text, flags, rest, rfl, htext, hrest⟩ := h
      exact ⟨c :: text, flags, rest, rfl, .char hslash hline hopen hend htext, hrest⟩

theorem Completes.blockCommentStep {start : Nat} {opening : Bool}
    (hstep : State.step ⟨.blockComment start opening, stack, operand⟩ position c next
      = .ok (s', event)) (hnext : ∀ d rest, w = d :: rest → next = some d) (h : Completes s' w) :
    Completes ⟨.blockComment start opening, stack, operand⟩ (c :: w) := by
  cases opening with
  | true =>
    cases hstep
    obtain ⟨text, rest, rfl, htext, hrest⟩ := h
    exact ⟨c :: text, rest, rfl, ⟨c, text, rfl, htext⟩, hrest⟩
  | false =>
    simp only [State.step, Bool.false_eq_true, if_false] at hstep
    split at hstep
    case isTrue hend =>
      cases hstep
      obtain ⟨d, rest, rfl, hrest⟩ := h
      obtain rfl : d = '/' := Option.some.inj ((hnext _ _ rfl).symm.trans hend.2)
      obtain ⟨rfl, -⟩ := hend
      exact ⟨['*', '/'], rest, rfl, .close, hrest⟩
    case isFalse hend =>
      cases hstep
      obtain ⟨text, rest, rfl, htext, hrest⟩ := h
      refine ⟨c :: text, rest, rfl, .char (fun hd => hend ⟨hd.1, ?_⟩) htext, hrest⟩
      cases text with
      | nil => cases hd.2
      | cons d text => rw [hnext d _ rfl, ← hd.2]; rfl

theorem Completes.lineCommentStep {stop : Char} {after : List Char}
    (hstep : State.step ⟨.lineComment, stack, operand⟩ position c next = .ok (s', event))
    (hstop : stop ≠ '\n') (hnext : next = (w ++ stop :: after).head?)
    (h : Completes s' w) : Completes ⟨.lineComment, stack, operand⟩ (c :: w) := by
  cases hstep
  by_cases hline : next = some '\n'
  · rw [if_pos hline] at h
    cases w with
    | nil => exact absurd (Option.some.inj (hnext.symm.trans hline)) hstop
    | cons d w =>
      obtain rfl : d = '\n' := Option.some.inj (hnext.symm.trans hline)
      exact ⟨c, [], w, rfl, List.not_mem_nil, h⟩
  · rw [if_neg hline] at h
    obtain ⟨d, text, rest, rfl, htext, hrest⟩ := h
    refine ⟨c, d :: text, rest, rfl, ?_, hrest⟩
    rw [List.mem_cons, not_or]
    exact ⟨fun heq => hline (hnext.trans (congrArg some heq.symm)), htext⟩

/-- Every step that meets no unmatched bracket: what completes the state behind it completes the
state before it, with its character in front. What stops the text is no line end. -/
theorem Completes.step {stop : Char} {after : List Char}
    (hstep : s.step position c next = .ok (s', event)) (hevent : event ≠ .unmatched)
    (hready : Ready s (some c)) (hstop : stop ≠ '\n')
    (hnext : next = (w ++ stop :: after).head?) (h : Completes s' w) : Completes s (c :: w) := by
  have hhead : ∀ d rest, w = d :: rest → next = some d := by
    rintro d rest rfl
    exact hnext
  obtain ⟨mode, stack, operand⟩ := s
  cases mode with
  | code =>
    by_cases hstack : stack.head? = some .template
    · obtain ⟨stack, rfl⟩ := List.head?_eq_some_iff.1 hstack
      cases hstep
      exact h.templateStep hhead
    · rw [step_code hstack] at hstep
      exact h.codeStep hstack (.of_inCode hstep) hevent hhead
  | skip =>
    cases hstep
    exact ⟨c, w, rfl, h⟩
  | quoted => exact h.quotedStep hstep
  | lineComment => exact h.lineCommentStep hstep hstop hnext
  | blockComment => exact h.blockCommentStep hstep hhead
  | regex => exact h.regexStep hstep
  | flags =>
    cases hstep
    obtain ⟨flags, rest, rfl, hflags, hrest⟩ := h.afterRegex
    exact ⟨c :: flags, rest, rfl, by rw [List.all_cons, hflags, Bool.and_true]; exact hready, hrest⟩

/-- A step from code, inside a template literal or not. -/
theorem step_code_cases (hstep : State.step ⟨.code, stack, operand⟩ position c next
      = .ok (s', event)) :
    (∃ rest, stack = .template :: rest ∧ event = .covered ∧
      s' = State.inTemplate ⟨.code, stack, operand⟩ rest c next) ∨
    CodeStep stack operand position c next s' event := by
  by_cases hstack : stack.head? = some .template
  · obtain ⟨rest, rfl⟩ := List.head?_eq_some_iff.1 hstack
    cases hstep
    exact .inl ⟨rest, rfl, rfl, rfl⟩
  · rw [step_code hstack] at hstep
    exact .inr (.of_inCode hstep)

/-- What a step has looked ahead to. -/
theorem Ready.step (hstep : s.step position c next = .ok (s', event)) : Ready s' next := by
  obtain ⟨mode, stack, operand⟩ := s
  have hregex : ∀ operand, Ready ⟨afterRegex next, stack, operand⟩ next := by
    intro operand
    unfold afterRegex
    split
    case isTrue hflag => exact hflag
    case isFalse => trivial
  cases mode with
  | code =>
    obtain ⟨rest, rfl, rfl, rfl⟩ | hcode := step_code_cases hstep
    · unfold State.inTemplate
      repeat' split
      all_goals trivial
    · cases hcode with
      | lineComment _ hn => subst hn; exact nofun
      | _ => trivial
  | skip => cases hstep; trivial
  | quoted =>
    simp only [State.step] at hstep
    repeat' split at hstep
    all_goals cases hstep <;> trivial
  | lineComment =>
    cases hstep
    by_cases hline : next = some '\n'
    · simp only [if_pos hline, Ready]
    · simp only [Ready, if_neg hline]
      exact hline
  | blockComment =>
    simp only [State.step] at hstep
    repeat' split at hstep
    all_goals (cases hstep; trivial)
  | regex =>
    simp only [State.step] at hstep
    repeat' split at hstep
    all_goals cases hstep <;> first | trivial | exact hregex _
  | flags => cases hstep; exact hregex _

/-- Only a closing bracket outside all frames is unmatched. -/
theorem step_unmatched (hstep : s.step position c next = .ok (s', .unmatched)) :
    s.mode = .code ∧ s.stack = [] ∧ isCloser c = true := by
  obtain ⟨mode, stack, operand⟩ := s
  cases mode with
  | code =>
    obtain ⟨rest, -, hevent, -⟩ | hcode := step_code_cases hstep
    · cases hevent
    · cases hcode with
      | unmatched hstack hcloser => exact ⟨rfl, hstack, hcloser⟩
  | skip | lineComment | flags => cases hstep
  | quoted | blockComment | regex =>
    simp only [State.step] at hstep
    repeat' split at hstep
    all_goals cases hstep

end

/-- A text before an unmatched bracket completes the state it was read from. -/
theorem completes_of_upToUnmatched {size : Nat} {cs : List Char} : ∀ {s : State} {position : Nat}
    {cut : Cut}, Ready s cs.head? → upToUnmatched size s position cs = .ok (some cut) →
    isCloser cut.closer = true ∧ Completes s cut.body := by
  induction cs with
  | nil =>
    intro s position cut _ h
    simp only [upToUnmatched] at h
    split at h <;> cases h
  | cons c cs ih =>
    intro s position cut hready h
    cases hstep : s.step position c cs.head? with
    | error fault => rw [upToUnmatched, hstep] at h; cases h
    | ok r =>
      obtain ⟨s', event⟩ := r
      by_cases hevent : event = .unmatched
      · subst hevent
        rw [upToUnmatched, hstep] at h
        cases h
        obtain ⟨hmode, hstack, hcloser⟩ := step_unmatched hstep
        refine ⟨hcloser, ?_⟩
        rw [Completes, hmode, hstack]
        exact .nil
      · rw [upToUnmatched_cons hstep hevent] at h
        cases hrest : upToUnmatched size s' (position + 1) cs with
        | error fault => rw [hrest] at h; cases h
        | ok found =>
          cases found with
          | none => rw [hrest] at h; cases h
          | some found =>
            rw [hrest] at h
            cases h
            obtain ⟨hcloser, hcompletes⟩ := ih (.step hstep) hrest
            exact ⟨hcloser, hcompletes.step hstep hevent hready (ne_newline_of_isCloser hcloser)
              (congrArg List.head? (upToUnmatched_append hrest))⟩

end Espalier.Scan
