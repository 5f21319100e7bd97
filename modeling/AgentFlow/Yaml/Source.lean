import AgentFlow.Yaml.Error

/-!
# Reading a YAML source

A source is what is left of a text, with the place it has been read up to. Reading on past the end
gives null characters, which no document holds.

* `Source.span`: the longest row of characters of a class.
* `Source.lineBreak`: a line break of any kind.
-/

namespace AgentFlow.Yaml

/-! ## Character classes -/

/-- The characters that a document may hold. -/
def isPrintable (c : Char) : Bool :=
  let n := c.toNat
  n == 0x09 || n == 0x0A || n == 0x0D || (0x20 ≤ n && n ≤ 0x7E) || n == 0x85
    || (0xA0 ≤ n && n ≤ 0xD7FF) || (0xE000 ≤ n && n ≤ 0xFFFD) || 0x10000 ≤ n

/-- Whether a character breaks a line of a scalar. -/
def isBreak (c : Char) : Bool :=
  c == '\n' || c == '\r' || c == '\u0085' || c == '\u2028' || c == '\u2029'

/-- Whether a character ends a line, or the text. -/
def isLineEnd (c : Char) : Bool := c == '\x00' || isBreak c

/-- Whether a character is a blank or a tab. -/
def isSpace (c : Char) : Bool := c == ' ' || c == '\t'

/-- Whether a character ends a token: a blank, a tab or the end of a line. -/
def isGap (c : Char) : Bool := isSpace c || isLineEnd c

/-- Whether a character may follow a header or a name on its line: a blank or any break. -/
def isBlankOrBreak (c : Char) : Bool := c == '\x00' || c == ' ' || isBreak c

/-! ## Sources -/

/-- What is left of a text, and how far it has been read. -/
structure Source where
  rest : List Char
  index : Nat
  line : Nat
  column : Nat
  deriving Inhabited

namespace Source

/-- The source of a whole text. -/
def ofChars (cs : List Char) : Source := ⟨cs, 0, 0, 0⟩

/-- The character a number of places ahead. -/
def peekAt (s : Source) (n : Nat) : Char := s.rest.getD n '\x00'

/-- The next character. -/
def peek (s : Source) : Char := s.rest.headD '\x00'

/-- The source past its next character. A line ends with a line feed, or with a carriage return
that no line feed follows; a byte order mark has no column. -/
def advance (s : Source) : Source :=
  match s.rest with
  | [] => s
  | c :: rest =>
    if c == '\n' || (c == '\r' && rest.head? != some '\n') then
      ⟨rest, s.index + 1, s.line + 1, 0⟩
    else if c == '\uFEFF' then ⟨rest, s.index + 1, s.line, s.column⟩
    else ⟨rest, s.index + 1, s.line, s.column + 1⟩

/-- The source past a number of characters. -/
def advanceBy : Nat → Source → Source
  | 0, s => s
  | n + 1, s => advanceBy n s.advance

/-- The longest row of characters of a class, and the source past it. -/
def span (p : Char → Bool) (s : Source) : List Char × Source :=
  let cs := s.rest.takeWhile p
  (cs, s.advanceBy cs.length)

/-- The source past the longest row of characters of a class. -/
def skip (p : Char → Bool) (s : Source) : Source := (s.span p).2

/-- A line break, if one is next, and the source past it. All but the two separators of Unicode
count as a line feed. -/
def lineBreak (s : Source) : List Char × Source :=
  let c := s.peek
  if c == '\r' && s.peekAt 1 == '\n' then (['\n'], s.advanceBy 2)
  else if c == '\n' || c == '\r' || c == '\u0085' then (['\n'], s.advance)
  else if c == '\u2028' || c == '\u2029' then ([c], s.advance)
  else ([], s)

/-- Whether the next three characters are `mark` three times, with a gap after them. -/
def isMark (mark : Char) (s : Source) : Bool :=
  s.peek == mark && s.peekAt 1 == mark && s.peekAt 2 == mark && isGap (s.peekAt 3)

/-- Whether a mark between documents is next. -/
def isDocumentMark (s : Source) : Bool := s.isMark '-' || s.isMark '.'

/-- Characters that make up no token, here. -/
def fail {α : Type} (s : Source) : Except Fault α := .error (.token (some s.line))

end Source

end AgentFlow.Yaml
