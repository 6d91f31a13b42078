import Espalier.Scan.Span

/-!
# Balanced text

What may stand between an opening bracket and the bracket that closes it, as a grammar: literals,
comments, groups in brackets and other characters, one after the other. Whether a slash may begin a
regular expression depends on what stands before it, so `Balanced` carries a flag that says whether
an operand is expected.

The grammar does not speak of a stack. Main statement here: the machine reads balanced text without
touching the frames that are open around it (`Balanced.passes`), and likewise the rest of a template
literal closes the literal's frame (`TemplateText.passes`).
-/

namespace Espalier.Scan

open Espalier.Text

/-! ## The grammar -/

/-- The inside of a string literal and the quote that ends it. A backslash covers the character
after it. -/
inductive QuotedText (mark : Char) : List Char → Prop
  | close : QuotedText mark [mark]
  | escape {c : Char} {cs : List Char} : QuotedText mark cs → QuotedText mark ('\x5c' :: c :: cs)
  | char {c : Char} {cs : List Char} : c ≠ '\x5c' → c ≠ mark → c ≠ '\n' → QuotedText mark cs →
      QuotedText mark (c :: cs)

/-- The inside of a regular expression and the slash that ends it; `inClass` between square
brackets, where a slash does not end it. -/
inductive RegexText : (inClass : Bool) → List Char → Prop
  | close : RegexText false ['/']
  | escape {inClass : Bool} {c : Char} {cs : List Char} : RegexText inClass cs →
      RegexText inClass ('\x5c' :: c :: cs)
  | openClass {cs : List Char} : RegexText true cs → RegexText false ('[' :: cs)
  | closeClass {cs : List Char} : RegexText false cs → RegexText true (']' :: cs)
  | classChar {c : Char} {cs : List Char} : c ≠ '\x5c' → c ≠ '\n' → c ≠ ']' → RegexText true cs →
      RegexText true (c :: cs)
  | char {c : Char} {cs : List Char} : c ≠ '\x5c' → c ≠ '\n' → c ≠ '[' → c ≠ '/' →
      RegexText false cs → RegexText false (c :: cs)

/-- The inside of a block comment and its end, which is the first star before a slash. -/
inductive CommentText : List Char → Prop
  | close : CommentText ['*', '/']
  | char {c : Char} {cs : List Char} : ¬(c = '*' ∧ cs.head? = some '/') → CommentText cs →
      CommentText (c :: cs)

/-- The character is no quote, no backtick and no bracket. -/
def isOrdinary (c : Char) : Bool :=
  c != '\x22' && c != '\x27' && c != '\x60' && (Frame.ofOpener? c).isNone && !isCloser c

/-- Whether an operand is expected after an ordinary character; blanks change nothing. -/
def operandAfter (operand : Bool) (c : Char) : Bool :=
  if isBlank c then operand else beforeOperand c

/-- A slash before this text begins a comment. -/
def startsComment (cs : List Char) : Bool :=
  cs.head? == some '/' || cs.head? == some '*'

mutual

/-- Balanced text; `operand` says whether an operand is expected at its start. -/
inductive Balanced : (operand : Bool) → List Char → Prop
  | nil {operand : Bool} : Balanced operand []
  | quoted {operand : Bool} {mark : Char} {text cs : List Char} : mark = '\x22' ∨ mark = '\x27' →
      QuotedText mark text → Balanced false cs → Balanced operand (mark :: (text ++ cs))
  | regex {text flags cs : List Char} : startsComment text = false → RegexText false text →
      flags.all isFlag → Balanced false cs → Balanced true ('/' :: (text ++ (flags ++ cs)))
  | blockComment {operand : Bool} {text cs : List Char} : CommentText text → Balanced operand cs →
      Balanced operand ('/' :: '*' :: (text ++ cs))
  | lineComment {operand : Bool} {text cs : List Char} : '\n' ∉ text → Balanced operand cs →
      Balanced operand ('/' :: '/' :: (text ++ '\n' :: cs))
  | template {operand : Bool} {text cs : List Char} : TemplateText text → Balanced false cs →
      Balanced operand ('\x60' :: (text ++ cs))
  | group {operand : Bool} {opener : Char} {frame : Frame} {inner cs : List Char} :
      Frame.ofOpener? opener = some frame → Balanced true inner →
      Balanced (beforeOperand frame.closer) cs →
      Balanced operand (opener :: (inner ++ frame.closer :: cs))
  | char {operand : Bool} {c : Char} {cs : List Char} : isOrdinary c = true →
      (c = '/' → operand = false ∧ startsComment cs = false) →
      Balanced (operandAfter operand c) cs → Balanced operand (c :: cs)

/-- The inside of a template literal and the backtick that ends it. -/
inductive TemplateText : List Char → Prop
  | close : TemplateText ['\x60']
  | escape {c : Char} {cs : List Char} : TemplateText cs → TemplateText ('\x5c' :: c :: cs)
  /-- A substitution holds balanced text. -/
  | substitution {inner cs : List Char} : Balanced true inner → TemplateText cs →
      TemplateText ('$' :: '\x7b' :: (inner ++ '\x7d' :: cs))
  | char {c : Char} {cs : List Char} : c ≠ '\x5c' → c ≠ '\x60' →
      ¬(c = '$' ∧ cs.head? = some '\x7b') → TemplateText cs → TemplateText (c :: cs)

end

/-! ## Passing over text -/

/-- A result for what follows `w` as a result for the text with `w` in front. -/
def withFront (w : List Char) : Except Fault (Option Cut) → Except Fault (Option Cut)
  | .ok (some cut) => .ok (some { cut with body := w ++ cut.body })
  | other => other

theorem withFront_append (u v : List Char) (r : Except Fault (Option Cut)) :
    withFront (u ++ v) r = withFront u (withFront v r) := by
  match r with
  | .ok (some cut) => simp [withFront]
  | .ok none | .error _ => rfl

/-- Reading `w` before `rest` leads from one state to another, and no unmatched bracket is met on
the way. -/
def Passes (size : Nat) (s : State) (position : Nat) (w rest : List Char) (s' : State) : Prop :=
  upToUnmatched size s position (w ++ rest)
    = withFront w (upToUnmatched size s' (position + w.length) rest)

section
variable {size position : Nat} {s s' s'' : State} {u v w rest : List Char} {c : Char}
  {event : Event}

theorem Passes.nil : Passes size s position [] rest s := by
  rw [Passes, List.nil_append, List.length_nil, Nat.add_zero]
  rcases upToUnmatched size s position rest with _ | _ | _ <;> rfl

theorem Passes.append (hu : Passes size s position u (v ++ rest) s')
    (hv : Passes size s' (position + u.length) v rest s'') :
    Passes size s position (u ++ v) rest s'' := by
  rw [Passes, List.append_assoc, hu, hv, withFront_append, List.length_append, Nat.add_assoc]

/-- A step that meets no unmatched bracket puts its character in front. -/
theorem upToUnmatched_cons {cs : List Char} (hstep : s.step position c cs.head? = .ok (s', event))
    (hevent : event ≠ .unmatched) :
    upToUnmatched size s position (c :: cs)
      = withFront [c] (upToUnmatched size s' (position + 1) cs) := by
  rw [upToUnmatched, hstep]
  cases event with
  | unmatched => exact absurd rfl hevent
  | covered | plain depth =>
    simp only
    rcases upToUnmatched size s' (position + 1) cs with _ | _ | _ <;> rfl

/-- One step, then the rest. -/
theorem Passes.cons (hstep : s.step position c (v ++ rest).head? = .ok (s', event))
    (hevent : event ≠ .unmatched) (hv : Passes size s' (position + 1) v rest s'') :
    Passes size s position (c :: v) rest s'' := by
  rw [Passes, List.cons_append, upToUnmatched_cons hstep hevent, hv, ← withFront_append,
    List.length_cons, Nat.add_assoc, Nat.add_comm 1]
  rfl

/-- One character of a literal or comment, then the rest. -/
theorem Passes.covered (hstep : s.step position c (v ++ rest).head? = .ok (s', .covered))
    (hv : Passes size s' (position + 1) v rest s'') :
    Passes size s position (c :: v) rest s'' :=
  .cons hstep nofun hv

/-! ## Literals and comments -/

variable {stack : List Frame} {operand : Bool} {start : Nat}

theorem QuotedText.passes {mark : Char} {text : List Char} (h : QuotedText mark text)
    (hmark : mark ≠ '\x5c') (position : Nat) :
    Passes size ⟨.quoted mark start false, stack, operand⟩ position text rest
      ⟨.code, stack, false⟩ := by
  induction h generalizing position with
  | close =>
    refine .covered ?_ .nil
    simp [State.step, hmark]
  | escape _ ih =>
    exact .covered rfl (.covered rfl (ih _))
  | char hslash hne hline _ ih =>
    refine .covered ?_ (ih _)
    simp [State.step, hslash, hne, hline]

theorem RegexText.passes {inClass : Bool} {text : List Char} (h : RegexText inClass text)
    (position : Nat) :
    Passes size ⟨.regex start inClass false, stack, operand⟩ position text rest
      ⟨afterRegex rest.head?, stack, false⟩ := by
  induction h generalizing position with
  | close => exact .covered rfl .nil
  | escape _ ih => exact .covered rfl (.covered rfl (ih _))
  | openClass _ ih => exact .covered rfl (ih _)
  | closeClass _ ih => exact .covered rfl (ih _)
  | classChar hslash hline hclose _ ih =>
    refine .covered ?_ (ih _)
    simp [State.step, hslash, hline, hclose]
  | char hslash hline hopen hend _ ih =>
    refine .covered ?_ (ih _)
    simp [State.step, hslash, hline, hopen, hend]

theorem CommentText.head?_append {text : List Char} (h : CommentText text) :
    (text ++ rest).head? = text.head? := by
  cases h with
  | close | char => rfl

theorem CommentText.passes {text : List Char} (h : CommentText text) (position : Nat) :
    Passes size ⟨.blockComment start false, stack, operand⟩ position text rest
      ⟨.code, stack, operand⟩ := by
  induction h generalizing position with
  | close => exact .covered rfl (.covered rfl .nil)
  | char hend htail ih =>
    refine .covered ?_ (ih _)
    rw [htail.head?_append]
    simp [State.step, hend]

/-- A line comment is passed from its second slash on. -/
theorem passes_lineComment {text : List Char} (h : '\n' ∉ text) (c : Char) (position : Nat) :
    Passes size ⟨.lineComment, stack, operand⟩ position (c :: text) ('\n' :: rest)
      ⟨.code, stack, operand⟩ := by
  induction text generalizing c position with
  | nil => exact .covered rfl .nil
  | cons d text ih =>
    rw [List.mem_cons, not_or] at h
    refine .covered ?_ (ih h.2 d _)
    have hd : ¬ d = '\n' := fun heq => h.1 heq.symm
    simp [State.step, hd]

/-! ## Steps in code -/

/-- The quotes, the backtick and the brackets. -/
def delimiters : List Char :=
  ['\x22', '\x27', '\x60', '(', '[', '\x7b', ')', ']', '\x7d']

theorem isOrdinary_iff : isOrdinary c = true ↔ c ∉ delimiters := by
  have opener : (Frame.ofOpener? c).isNone = true ↔ c ≠ '(' ∧ c ≠ '[' ∧ c ≠ '\x7b' := by
    unfold Frame.ofOpener?
    split <;> simp_all
  simp [isOrdinary, delimiters, isCloser, opener, and_assoc]

theorem ne_of_isOrdinary {d : Char} (h : isOrdinary c = true) (hd : d ∈ delimiters) : c ≠ d := by
  rintro rfl
  exact isOrdinary_iff.1 h hd

/-- A blank is neither a slash nor a delimiter. -/
theorem ne_of_isBlank {d : Char} (h : isBlank c = true) (hd : d ∈ '/' :: delimiters) : c ≠ d := by
  rintro rfl
  exact List.any_eq_false.1 (by decide : ('/' :: delimiters).any isBlank = false) c hd h

theorem isOrdinary_of_isBlank (h : isBlank c = true) : isOrdinary c = true :=
  isOrdinary_iff.2 fun hmem => ne_of_isBlank h (List.mem_cons_of_mem _ hmem) rfl

theorem ofOpener?_eq_some {frame : Frame} (h : Frame.ofOpener? c = some frame) :
    c = '(' ∧ frame = .round ∨ c = '[' ∧ frame = .square ∨ c = '\x7b' ∧ frame = .curly := by
  unfold Frame.ofOpener? at h
  split at h <;> simp_all

theorem closer_cases (h : isCloser c = true) : c = ')' ∨ c = ']' ∨ c = '\x7d' := by
  simpa [isCloser, or_assoc] using h

theorem ne_newline_of_isCloser (h : isCloser c = true) : c ≠ '\n' := by
  rintro rfl
  cases h

theorem step_code (h : stack.head? ≠ some .template) (next : Option Char) :
    State.step ⟨.code, stack, operand⟩ position c next
      = State.inCode ⟨.code, stack, operand⟩ position c next := by
  match stack, h with
  | [], _ | .round :: _, _ | .square :: _, _ | .curly :: _, _ => rfl
  | .template :: _, h => exact absurd rfl h

section
variable (hstack : stack.head? ≠ some .template) {next : Option Char}
include hstack

theorem step_quote (h : c = '\x22' ∨ c = '\x27') :
    State.step ⟨.code, stack, operand⟩ position c next
      = .ok (⟨.quoted c position false, stack, operand⟩, .covered) := by
  rw [step_code hstack, State.inCode, if_pos h]

theorem step_backtick :
    State.step ⟨.code, stack, operand⟩ position '\x60' next
      = .ok (⟨.code, .template :: stack, operand⟩, .covered) := by
  rw [step_code hstack]
  rfl

theorem step_lineComment :
    State.step ⟨.code, stack, operand⟩ position '/' (some '/')
      = .ok (⟨.lineComment, stack, operand⟩, .covered) := by
  rw [step_code hstack]
  rfl

theorem step_blockComment :
    State.step ⟨.code, stack, operand⟩ position '/' (some '*')
      = .ok (⟨.blockComment position true, stack, operand⟩, .covered) := by
  rw [step_code hstack]
  rfl

theorem step_regex (hline : next ≠ some '/') (hblock : next ≠ some '*') :
    State.step ⟨.code, stack, true⟩ position '/' next
      = .ok (⟨.regex position false false, stack, true⟩, .covered) := by
  rw [step_code hstack]
  simp [State.inCode, hline, hblock]

theorem step_opener {frame : Frame} (h : Frame.ofOpener? c = some frame) :
    State.step ⟨.code, stack, operand⟩ position c next
      = .ok (⟨.code, frame :: stack, true⟩, .plain stack.length) := by
  rw [step_code hstack]
  obtain ⟨rfl, rfl⟩ | ⟨rfl, rfl⟩ | ⟨rfl, rfl⟩ := ofOpener?_eq_some h
  all_goals rfl

/-- An ordinary character changes the flag and nothing else. -/
theorem step_ordinary (h : isOrdinary c = true)
    (hslash : c = '/' → operand = false ∧ next ≠ some '/' ∧ next ≠ some '*') :
    State.step ⟨.code, stack, operand⟩ position c next
      = .ok (⟨.code, stack, operandAfter operand c⟩, .plain stack.length) := by
  have hchar : State.codeChar ⟨.code, stack, operand⟩ position c
      = .ok (⟨.code, stack, operandAfter operand c⟩, .plain stack.length) := by
    simp only [isOrdinary, Bool.and_eq_true, Option.isNone_iff_eq_none, Bool.not_eq_true'] at h
    simp [State.codeChar, h.1.2, h.2, State.operandAfter, operandAfter]
  have hquote : ¬(c = '\x22' ∨ c = '\x27') :=
    fun hc => hc.elim (ne_of_isOrdinary h (by decide)) (ne_of_isOrdinary h (by decide))
  rw [step_code hstack, State.inCode, if_neg hquote, if_neg (ne_of_isOrdinary h (by decide)),
    if_neg fun hc => (hslash hc.1).2.1 hc.2, if_neg fun hc => (hslash hc.1).2.2 hc.2,
    if_neg fun hc => ?_, hchar]
  have := (hslash hc.1).1
  simp_all

theorem step_newline :
    State.step ⟨.code, stack, operand⟩ position '\n' next
      = .ok (⟨.code, stack, operand⟩, .plain stack.length) :=
  step_ordinary hstack rfl nofun

end

/-- A bracket closes the innermost frame. -/
theorem step_closer {frame : Frame} {next : Option Char} (h : frame ≠ .template) :
    State.step ⟨.code, frame :: stack, operand⟩ position frame.closer next
      = .ok (⟨.code, stack, beforeOperand frame.closer⟩, .plain stack.length) := by
  cases frame with
  | template => exact absurd rfl h
  | round | square | curly => rfl

/-! ## Flags

The flags of a regular expression are ordinary characters after which no operand is expected, so it
makes no difference whether the machine reads them as flags or as code.
-/

theorem not_isFlag_of_beforeOperand {c : Char} (h : beforeOperand c = true) : isFlag c = false := by
  have all : ("(,=:[!&|?\x7b\x7d;+-*%<>~^".toList.all (!isFlag ·)) = true := by decide
  exact Bool.not_eq_true' _ ▸ List.all_eq_true.1 all c (List.contains_iff_mem.1 h)

theorem operandAfter_flag (h : isFlag c = true) : operandAfter false c = false := by
  rw [operandAfter]
  split
  · rfl
  · rw [Bool.eq_false_iff]
    intro hbefore
    rw [not_isFlag_of_beforeOperand hbefore] at h
    cases h

theorem isOrdinary_of_isFlag (h : isFlag c = true) : isOrdinary c = true ∧ c ≠ '/' := by
  have none : (('/' :: delimiters).all (!isFlag ·)) = true := by decide
  have all : ∀ c ∈ '/' :: delimiters, isFlag c = false := fun c hc =>
    Bool.not_eq_true' _ ▸ List.all_eq_true.1 none c hc
  refine ⟨isOrdinary_iff.2 fun hmem => ?_, ?_⟩
  · rw [all c (List.mem_cons_of_mem _ hmem)] at h
    cases h
  · rintro rfl
    rw [all '/' (List.mem_cons_self ..)] at h
    cases h

theorem upToUnmatched_flags (hstack : stack.head? ≠ some .template) (cs : List Char)
    (position : Nat) :
    upToUnmatched size ⟨afterRegex cs.head?, stack, false⟩ position cs
      = upToUnmatched size ⟨.code, stack, false⟩ position cs := by
  induction cs generalizing position with
  | nil => rfl
  | cons c cs ih =>
    by_cases hflag : isFlag c = true
    · obtain ⟨hordinary, hne⟩ := isOrdinary_of_isFlag hflag
      have hmode : afterRegex (c :: cs).head? = .flags := if_pos hflag
      have hflags : State.step ⟨.flags, stack, false⟩ position c cs.head?
          = .ok (⟨afterRegex cs.head?, stack, false⟩, .covered) := rfl
      have hcode : State.step ⟨.code, stack, false⟩ position c cs.head?
          = .ok (⟨.code, stack, false⟩, .plain stack.length) := by
        rw [step_ordinary hstack hordinary fun heq => absurd heq hne, operandAfter_flag hflag]
      rw [hmode, upToUnmatched_cons hflags nofun, upToUnmatched_cons hcode nofun, ih]
    · have hmode : afterRegex (c :: cs).head? = .code := if_neg hflag
      rw [hmode]

end

/-! ## Balanced text -/

section
variable {size position : Nat} {stack : List Frame} {s' : State} {w rest : List Char}

/-- Behind a regular expression the machine goes on as in code. -/
theorem Passes.afterRegex (hstack : stack.head? ≠ some .template)
    (h : Passes size ⟨.code, stack, false⟩ position w rest s') :
    Passes size ⟨Scan.afterRegex (w ++ rest).head?, stack, false⟩ position w rest s' := by
  rw [Passes, upToUnmatched_flags hstack, h]

theorem passes_flags (hstack : stack.head? ≠ some .template) {flags : List Char}
    (hflags : flags.all isFlag = true) (position : Nat) :
    Passes size ⟨.code, stack, false⟩ position flags rest ⟨.code, stack, false⟩ := by
  induction flags generalizing position with
  | nil => exact .nil
  | cons c flags ih =>
    rw [List.all_cons, Bool.and_eq_true] at hflags
    obtain ⟨hordinary, hne⟩ := isOrdinary_of_isFlag hflags.1
    refine .cons (step_ordinary hstack hordinary fun heq => absurd heq hne) nofun ?_
    rw [operandAfter_flag hflags.1]
    exact ih hflags.2 _

theorem RegexText.head?_append {inClass : Bool} {text : List Char} (h : RegexText inClass text) :
    (text ++ rest).head? = text.head? := by
  cases h with
  | close | escape | openClass | closeClass | classChar | char => rfl

theorem TemplateText.head?_append {text : List Char} (h : TemplateText text) :
    (text ++ rest).head? = text.head? := by
  cases h with
  | close | escape | substitution | char => rfl

theorem startsComment_eq_false {cs : List Char} :
    startsComment cs = false ↔ cs.head? ≠ some '/' ∧ cs.head? ≠ some '*' := by
  simp [startsComment]

/-- A closing bracket behind a text makes no comment of the slash before it. -/
theorem startsComment_append {cs : List Char} {closer : Char} (h : isCloser closer = true)
    (hcs : startsComment cs = false) : startsComment (cs ++ closer :: rest) = false := by
  cases cs with
  | nil => obtain rfl | rfl | rfl := closer_cases h <;> rfl
  | cons => exact hcs

theorem isCloser_closer {frame : Frame} (h : frame ≠ .template) : isCloser frame.closer = true := by
  cases frame with
  | template => exact absurd rfl h
  | round | square | curly => rfl

theorem head?_cons_ne {frame : Frame} (h : frame ≠ .template) (stack : List Frame) :
    (frame :: stack).head? ≠ some .template :=
  fun htop => h (Option.some.inj htop)

theorem ne_template_of_ofOpener? {c : Char} {frame : Frame} (h : Frame.ofOpener? c = some frame) :
    frame ≠ .template := by
  rintro rfl
  obtain ⟨-, h⟩ | ⟨-, h⟩ | ⟨-, h⟩ := ofOpener?_eq_some h <;> cases h

end

section
variable {size : Nat}

mutual

/-- The machine reads balanced text up to a closing bracket and comes back to the frames that were
open. -/
theorem Balanced.passes {closer : Char} {after : List Char} (hcloser : isCloser closer = true) :
    ∀ {operand : Bool} {w : List Char}, Balanced operand w → ∀ {stack : List Frame},
    stack.head? ≠ some .template → ∀ position : Nat,
    ∃ operand', Passes size ⟨.code, stack, operand⟩ position w (closer :: after)
      ⟨.code, stack, operand'⟩
  | operand, _, .nil, _, _, _ => ⟨operand, .nil⟩
  | _, _, .quoted hmark htext hcs, stack, hstack, position => by
    obtain ⟨operand', hrest⟩ := hcs.passes hcloser hstack _
    refine ⟨operand', .covered (step_quote hstack hmark) (.append (htext.passes ?_ _) hrest)⟩
    rcases hmark with rfl | rfl <;> decide
  | _, _, .regex hstart htext hflags hcs, stack, hstack, position => by
    obtain ⟨operand', hrest⟩ := hcs.passes hcloser hstack _
    have hnext := startsComment_eq_false.1 hstart
    refine ⟨operand', .covered (step_regex hstack ?_ ?_) (.append (htext.passes _)
      (.afterRegex hstack (.append (passes_flags hstack hflags _) hrest)))⟩
    · rw [List.append_assoc, htext.head?_append]
      exact hnext.1
    · rw [List.append_assoc, htext.head?_append]
      exact hnext.2
  | _, _, .blockComment htext hcs, stack, hstack, position => by
    obtain ⟨operand', hrest⟩ := hcs.passes hcloser hstack _
    exact ⟨operand', .covered (step_blockComment hstack)
      (.covered rfl (.append (htext.passes _) hrest))⟩
  | _, _, .lineComment htext hcs, stack, hstack, position => by
    obtain ⟨operand', hrest⟩ := hcs.passes hcloser hstack _
    exact ⟨operand', .covered (step_lineComment hstack)
      (.append (passes_lineComment htext '/' _) (.cons (step_newline hstack) nofun hrest))⟩
  | _, _, .template htext hcs, stack, hstack, position => by
    obtain ⟨operand', hrest⟩ := hcs.passes hcloser hstack _
    exact ⟨operand', .covered (step_backtick hstack) (.append (htext.passes ..) hrest)⟩
  | _, _, .group hopener hinner hcs, stack, hstack, position => by
    have hframe := ne_template_of_ofOpener? hopener
    obtain ⟨_, hgroup⟩ := hinner.passes (isCloser_closer hframe) (head?_cons_ne hframe stack) _
    obtain ⟨operand', hrest⟩ := hcs.passes hcloser hstack _
    exact ⟨operand', .cons (step_opener hstack hopener) nofun
      (.append hgroup (.cons (step_closer hframe) nofun hrest))⟩
  | _, _, .char hordinary hslash hcs, stack, hstack, position => by
    obtain ⟨operand', hrest⟩ := hcs.passes hcloser hstack _
    refine ⟨operand', .cons (step_ordinary hstack hordinary fun heq => ?_) nofun hrest⟩
    obtain ⟨hoperand, hcomment⟩ := hslash heq
    exact ⟨hoperand, startsComment_eq_false.1 (startsComment_append hcloser hcomment)⟩

/-- The machine reads the rest of a template literal and closes the literal's frame. -/
theorem TemplateText.passes :
    ∀ {text : List Char}, TemplateText text → ∀ (stack : List Frame) (operand : Bool)
      (rest : List Char) (position : Nat),
    Passes size ⟨.code, .template :: stack, operand⟩ position text rest ⟨.code, stack, false⟩
  | _, .close, _, _, _, _ => .covered rfl .nil
  | _, .escape hcs, _, _, _, _ => .covered rfl (.covered rfl (hcs.passes ..))
  | _, .substitution hinner hcs, stack, operand, rest, position => by
    have hcurly : Frame.curly ≠ .template := nofun
    obtain ⟨_, hcode⟩ :=
      hinner.passes (isCloser_closer hcurly) (head?_cons_ne hcurly (.template :: stack)) _
    exact .covered rfl (.covered rfl
      (.append hcode (.cons (step_closer hcurly) nofun (hcs.passes ..))))
  | _, .char hslash htick hdollar hcs, stack, operand, rest, position => by
    have hrest := hcs.passes stack operand rest (position + 1)
    refine .covered ?_ hrest
    rw [hcs.head?_append]
    simp [State.step, State.inTemplate, hslash, htick, hdollar]

end

end

end Espalier.Scan
