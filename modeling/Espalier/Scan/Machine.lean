import Espalier.Scan.Fault
import Espalier.Text.Blank
import Espalier.Text.Word

/-!
# Reading past brackets, literals and comments

A template text only shows where an embedded expression begins. Where it ends is decided by a small
machine that reads one character at a time, looking one character ahead. It keeps the brackets that
are open and passes over everything inside string literals, regular expressions, comments and the
text of template literals, so that a bracket there is not counted.

A slash begins a regular expression only where an operand may begin, that is at the start and after
the characters of `beforeOperand`; elsewhere it divides.
-/

namespace Espalier.Scan

open Espalier.Text

/-- What is open around the current character. -/
inductive Frame where
  | round | square | curly
  /-- The text of a template literal. -/
  | template
  deriving DecidableEq, Repr

/-- The character that closes a frame. -/
def Frame.closer : Frame → Char
  | .round => ')'
  | .square => ']'
  | .curly => '\x7d'
  | .template => '\x60'

/-- The frame that an opening bracket opens. -/
def Frame.ofOpener? : Char → Option Frame
  | '(' => some .round
  | '[' => some .square
  | '\x7b' => some .curly
  | _ => none

/-- The character is a closing bracket. -/
def isCloser (c : Char) : Bool :=
  c == ')' || c == ']' || c == '\x7d'

/-- After these characters an operand may begin. -/
def beforeOperand (c : Char) : Bool :=
  "(,=:[!&|?\x7b\x7d;+-*%<>~^".toList.contains c

/-- The character belongs to the flags after a regular expression. -/
def isFlag (c : Char) : Bool :=
  isAlphanumeric c || c == '_' || c == '$'

/-- What the machine is in the middle of. -/
inductive Mode where
  /-- Code, or the text of a template literal when the innermost frame is one. -/
  | code
  /-- The next character has been looked at already and is passed over. -/
  | skip
  /-- Inside a string literal that began at `start`. -/
  | quoted (mark : Char) (start : Nat) (escaped : Bool)
  | lineComment
  /-- Inside a block comment; `opening` while its first two characters are being passed. -/
  | blockComment (start : Nat) (opening : Bool)
  | regex (start : Nat) (inClass escaped : Bool)
  /-- Inside the flags of a regular expression. -/
  | flags
  deriving DecidableEq, Repr

/-- The machine's state between two characters. -/
structure State where
  mode : Mode := .code
  stack : List Frame := []
  operand : Bool := true
  deriving DecidableEq, Repr

/-- What one character is, besides its effect on the state. -/
inductive Event where
  /-- Part of a literal, a comment or a template's text. -/
  | covered
  /-- A character of code, inside `depth` open brackets. A bracket counts as outside itself. -/
  | plain (depth : Nat)
  /-- A closing bracket when none is open. -/
  | unmatched
  deriving DecidableEq, Repr

/-- After a regular expression or its flags: whether more flags follow. -/
def afterRegex (next : Option Char) : Mode :=
  if next.any isFlag then .flags else .code

/-- A character of a template literal's own text; `rest` are the frames around the literal. -/
def State.inTemplate (s : State) (rest : List Frame) (c : Char) (next : Option Char) : State :=
  if c = '\x5c' then { s with mode := .skip }
  else if c = '\x60' then { s with stack := rest, operand := false }
  else if c = '$' ∧ next = some '\x7b' then
    { mode := .skip, stack := .curly :: s.stack, operand := true }
  else s

/-- The operand flag after a character of code; blanks leave it alone. -/
def State.operandAfter (s : State) (c : Char) : Bool :=
  if isBlank c then s.operand else beforeOperand c

/-- A closing bracket. -/
def State.close (s : State) (position : Nat) (c : Char) : Except Fault (State × Event) :=
  match s.stack with
  | [] => .ok ({ s with operand := s.operandAfter c }, .unmatched)
  | frame :: rest =>
    if frame.closer = c then
      .ok ({ s with stack := rest, operand := s.operandAfter c }, .plain rest.length)
    else
      .error ⟨.mismatch frame.closer c, position⟩

/-- A character of code that begins no literal and no comment. -/
def State.codeChar (s : State) (position : Nat) (c : Char) : Except Fault (State × Event) :=
  match Frame.ofOpener? c with
  | some frame =>
    .ok ({ s with stack := frame :: s.stack, operand := s.operandAfter c },
      .plain s.stack.length)
  | none =>
    if isCloser c then s.close position c
    else .ok ({ s with operand := s.operandAfter c }, .plain s.stack.length)

/-- A character of code. -/
def State.inCode (s : State) (position : Nat) (c : Char) (next : Option Char) :
    Except Fault (State × Event) :=
  if c = '\x22' ∨ c = '\x27' then .ok ({ s with mode := .quoted c position false }, .covered)
  else if c = '\x60' then .ok ({ s with stack := .template :: s.stack }, .covered)
  else if c = '/' ∧ next = some '/' then .ok ({ s with mode := .lineComment }, .covered)
  else if c = '/' ∧ next = some '*' then
    .ok ({ s with mode := .blockComment position true }, .covered)
  else if c = '/' ∧ s.operand then .ok ({ s with mode := .regex position false false }, .covered)
  else s.codeChar position c

/-- Read one character, seeing the one after it. -/
def State.step (s : State) (position : Nat) (c : Char) (next : Option Char) :
    Except Fault (State × Event) :=
  match s.mode with
  | .code =>
    match s.stack with
    | .template :: rest => .ok (s.inTemplate rest c next, .covered)
    | _ => s.inCode position c next
  | .skip => .ok ({ s with mode := .code }, .covered)
  | .quoted mark start escaped =>
    if escaped then .ok ({ s with mode := .quoted mark start false }, .covered)
    else if c = '\x5c' then .ok ({ s with mode := .quoted mark start true }, .covered)
    else if c = mark then .ok ({ s with mode := .code, operand := false }, .covered)
    else if c = '\n' then .error ⟨.openString, start⟩
    else .ok (s, .covered)
  | .lineComment =>
    .ok ({ s with mode := if next = some '\n' then .code else .lineComment }, .covered)
  | .blockComment start opening =>
    if opening then .ok ({ s with mode := .blockComment start false }, .covered)
    else if c = '*' ∧ next = some '/' then .ok ({ s with mode := .skip }, .covered)
    else .ok (s, .covered)
  | .regex start inClass escaped =>
    if escaped then .ok ({ s with mode := .regex start inClass false }, .covered)
    else if c = '\x5c' then .ok ({ s with mode := .regex start inClass true }, .covered)
    else if c = '\n' then .error ⟨.openRegex, start⟩
    else if inClass then .ok ({ s with mode := .regex start (c ≠ ']') false }, .covered)
    else if c = '[' then .ok ({ s with mode := .regex start true false }, .covered)
    else if c = '/' then .ok ({ s with mode := afterRegex next, operand := false }, .covered)
    else .ok (s, .covered)
  | .flags => .ok ({ s with mode := afterRegex next }, .covered)

/-- What is wrong with a text of `size` characters that ends in this state. -/
def State.faultAtEnd (s : State) (size : Nat) : Option Fault :=
  match s.mode with
  | .quoted _ start _ => some ⟨.openString, start⟩
  | .blockComment start _ => some ⟨.openComment, start⟩
  | .regex start _ _ => some ⟨.openRegex, start⟩
  | .code | .skip | .lineComment | .flags =>
    if s.stack.isEmpty then none else some ⟨.unclosed, size⟩

end Espalier.Scan
