import Espalier.Script.Literal
import Espalier.Script.Token
import Espalier.Text.Blank

/-!
# From text to tokens

White space and comments are dropped. A slash begins a regular expression unless the token before it
can end an operand, or white space other than blanks and tabs stands directly before the slash.
A closing parenthesis ends an operand, unless it ends the head of an `if`, a `for` or a `while`; no
comment and no line end may stand directly before or behind the parentheses of such a head. After a
closing brace, an increment or a decrement the slash is first taken for division, and the token
keeps what is needed to read the text again with a regular expression.

The words `return`, `break`, `continue` and `throw` are followed by a semicolon when the line ends
directly after them.
-/

namespace Espalier.Script

open Espalier.Text

/-- White space between tokens, other than line ends. -/
def spaceTable : List (Nat × Nat) := [
  (0x9, 0x9), (0xb, 0xc), (0x20, 0x20), (0xa0, 0xa0), (0x1680, 0x1680), (0x2000, 0x200a),
  (0x2028, 0x2029), (0x202f, 0x202f), (0x205f, 0x205f), (0x3000, 0x3000), (0xfeff, 0xfeff)]

/-- The character is white space between tokens. -/
def isSpace (c : Char) : Bool :=
  inRanges spaceTable c

/-- The character is white space but neither a blank nor a tab. -/
def isWideSpace (c : Char) : Bool :=
  isSpace c && c != ' ' && c != '\t'

/-- The token may be the end of an operand, so that a slash after it divides. -/
def TokenKind.endsOperand : TokenKind → Bool
  | .name _ | .number _ | .string _ | .regex _ => true
  | .keyword .true | .keyword .false | .keyword .null | .keyword .this => true
  | .mark .increment | .mark .decrement | .mark .rparen | .mark .rbracket | .mark .rbrace => true
  | _ => false

/-- A slash after the token may divide or begin a regular expression. -/
def TokenKind.isAmbiguous : TokenKind → Bool
  | .mark .rbrace | .mark .increment | .mark .decrement => true
  | _ => false

/-- The line end after the token ends the statement. -/
def TokenKind.endsAtLine : TokenKind → Bool
  | .keyword .return | .keyword .break | .keyword .continue | .keyword .throw => true
  | _ => false

/-- The parenthesis after the token belongs to the head of a statement. -/
def TokenKind.opensHead : TokenKind → Bool
  | .keyword .if | .keyword .for | .keyword .while => true
  | _ => false

/-- The head of a statement ends here: nothing but white space stands behind its parenthesis, no
comment and no line end. -/
def LexState.atHeadEnd (s : LexState) : Bool :=
  s.closedHead && s.gap == .token

/-- The text before may be the end of an operand. -/
def LexState.endsOperand (s : LexState) : Bool :=
  match s.previous with
  | some (.mark .rparen) => !s.atHeadEnd
  | some kind => kind.endsOperand
  | none => false

/-- A slash is taken for division. -/
def LexState.divides (s : LexState) : Bool :=
  s.wideSpace || s.endsOperand

/-- The state behind a gap. -/
def LexState.withGap (s : LexState) (gap : Gap) : LexState :=
  { s with gap, wideSpace := false }

/-- The state after a token. -/
def LexState.after (s : LexState) (kind : TokenKind) : LexState :=
  let next := { s.withGap .token with previous := some kind }
  match kind with
  | .mark .lparen =>
    { next with parens := (s.gap == .token && s.previous.any (·.opensHead)) :: s.parens }
  | .mark .rparen =>
    { next with parens := s.parens.tail, closedHead := s.parens.head?.getD false }
  | _ => next

/-- The text begins with a blank and an identifier. -/
def blankThenName : List Char → Bool
  | blank :: c :: _ => isBlank blank && isNameStart c
  | _ => false

/-- The token of a word, given what follows it. -/
def wordKind (word : String) (rest : List Char) : TokenKind :=
  if word = "get" ∧ blankThenName rest then .getter
  else if word = "set" ∧ blankThenName rest then .setter
  else
    match Keyword.ofText? word with
    | some keyword => .keyword keyword
    | none => .name word

/-- What the start of a text turns out to be. -/
inductive Lexed where
  /-- Nothing, or text that is no token. -/
  | stop (kind : TokenKind)
  /-- White space or a comment. -/
  | skip (state : LexState) (rest : List Char)
  /-- A semicolon supplied at a line end. -/
  | lineSemi (rest : List Char)
  | token (kind : TokenKind) (retry : Option Retry) (rest : List Char)

/-- A token read by one of the readers of words and literals. -/
def Lexed.ofPart (make : String → TokenKind) : Option Part → Lexed
  | some (text, rest) => .token (make (String.ofList text)) none rest
  | none => .stop .invalid

/-- A line end. -/
def LexState.lineEnd (s : LexState) (rest : List Char) : Lexed :=
  if s.gap = .token ∧ s.previous.any (·.endsAtLine) then .lineSemi rest
  else .skip (s.withGap .lineEnd) rest

/-- A mark, with the way to read it again if it is a slash. -/
def Lexed.ofMark (retry : Option Retry) (cs : List Char) : Lexed :=
  match Mark.read? cs with
  | some (mark, rest) => .token (.mark mark) retry rest
  | none => .stop .invalid

/-- A slash that begins no comment. -/
def LexState.slash (s : LexState) (cs : List Char) : Lexed :=
  if s.divides then
    Lexed.ofMark (if s.previous.any (·.isAmbiguous) then some ⟨s, cs⟩ else none) cs
  else Lexed.ofPart .regex (readRegex cs)

/-- Look at the start of a text. -/
def LexState.look (s : LexState) : List Char → Lexed
  | [] => .stop .eof
  | '\r' :: '\n' :: rest => s.lineEnd rest
  | '/' :: '/' :: rest => .skip (s.withGap .comment) (rest.dropWhile (!endsLine ·))
  | '/' :: '*' :: rest =>
    match afterBlockComment rest with
    | some rest => .skip (s.withGap .comment) rest
    | none => .stop .invalid
  | '.' :: digit :: rest =>
    if digit.isDigit then Lexed.ofPart .number (some (readNumber ('.' :: digit :: rest)))
    else .token (.mark .dot) none (digit :: rest)
  | c :: rest =>
    if c = '\n' ∨ c = '\r' then s.lineEnd rest
    else if isSpace c then .skip { s with wideSpace := s.wideSpace || isWideSpace c } rest
    else if c = '/' then s.slash (c :: rest)
    else if c = '\x22' ∨ c = '\x27' then
      Lexed.ofPart .string ((readQuoted c rest).map (Part.prepend [c]))
    else if c.isDigit then Lexed.ofPart .number (some (readNumber (c :: rest)))
    else if isNameStart c then
      let (word, rest) := readName (c :: rest)
      .token (wordKind (String.ofList word) rest) none rest
    else Lexed.ofMark none (c :: rest)

/-- The tokens of a text. Every step takes at least one character, so that `fuel` may be any number
above the length of the text. The last token is the end of the text or no token. -/
def tokensFrom : (fuel : Nat) → LexState → List Char → List Token
  | 0, _, _ => [⟨.invalid, false, none⟩]
  | fuel + 1, s, cs =>
    match s.look cs with
    | .stop kind => [⟨kind, s.gap == .lineEnd, none⟩]
    | .skip s' rest => tokensFrom fuel s' rest
    | .lineSemi rest =>
      ⟨.lineSemi, false, none⟩ :: tokensFrom fuel (s.withGap .lineEnd) rest
    | .token kind retry rest =>
      ⟨kind, s.gap == .lineEnd, retry⟩ :: tokensFrom fuel (s.after kind) rest

/-- The tokens of a text from a state on. -/
def LexState.tokens (s : LexState) (cs : List Char) : List Token :=
  tokensFrom (cs.length + 1) s cs

/-- The tokens of a program text. -/
def tokenize (source : String) : List Token :=
  ({} : LexState).tokens source.toList

/-- Read on with a regular expression: its text, and the tokens that follow it. -/
def Retry.regex? (r : Retry) : Option (String × List Token) :=
  (readRegex r.chars).map fun (text, rest) =>
    let regex := String.ofList text
    (regex, (r.state.after (.regex regex)).tokens rest)

end Espalier.Script
