import AgentFlow.Script.Tree
import AgentFlow.Text.Units

/-!
# Reading a script

A cursor is a place in a script: the characters that are left, the number of bytes before them,
and the comments passed so far. Tokens are read on demand, because what a slash or a brace begins
depends on the rule that asks for it. A reader leaves the cursor right after its last token; blanks
and comments are passed in front of the next one.

* `Cursor.skip`: past blanks and comments.
* `Cursor.punct?`, `Cursor.word?`, `Cursor.keyword?`: the tokens.
* `Cursor.endsStatement`: where a statement may end without a semicolon.
* `Cursor.passMarkup`: past comments in the style of markup, where one may begin.
-/

namespace AgentFlow.Script

/-- A place in a script. Comments are kept latest first. -/
structure Cursor where
  rest : List Char
  offset : Nat
  comments : List Tree := []
  /-- Whether the place is inside brackets, where no statement can end. -/
  inner : Bool := false
  deriving Inhabited

/-! ## Character classes -/

/-- The characters that end a line. -/
def isLineEnd (c : Char) : Bool :=
  c == '\n' || c == '\r' || c == '\u2028' || c == '\u2029'

/-- The white space of a script: blanks, line ends, space separators and marks without width. -/
def isSpace (c : Char) : Bool :=
  let n := c.toNat
  (0x09 ≤ n && n ≤ 0x0D) || n == 0x20 || n == 0xA0 || n == 0x1680 || (0x2000 ≤ n && n ≤ 0x200B)
    || n == 0x2028 || n == 0x2029 || n == 0x202F || n == 0x205F || n == 0x2060 || n == 0x3000
    || n == 0xFEFF

/-- The white space that may stand in front of the end of a line that ends a statement. -/
def isLineSpace (c : Char) : Bool :=
  let closed : List Char := ['\u00A0', '\u2007', '\u200B', '\u202F', '\u2060', '\uFEFF']
  isSpace c && !closed.contains c

/-- The ASCII characters that no name contains. -/
def punctuation : List Char :=
  [':', ';', '\x60', '"', '\'', '@', '#', '.', ',', '|', '^', '&', '<', '=', '>', '+', '-', '*',
    '/', '\\', '%', '?', '!', '~', '(', ')', '[', ']', '\x7b', '\x7d']

/-- Whether a character may stand inside a name. -/
def isNamePart (c : Char) : Bool :=
  0x20 < c.toNat && !isSpace c && !punctuation.contains c

/-- Whether a character may begin a name. -/
def isNameStart (c : Char) : Bool := isNamePart c && !c.isDigit

/-- Whether a character makes a longer name of a word that is an operator. -/
def isWordLetter (c : Char) : Bool := c.isAlpha || (0x80 ≤ c.toNat && isNamePart c)

namespace Cursor

/-- The cursor at the start of a script. -/
def ofChars (cs : List Char) : Cursor := { rest := cs, offset := 0 }

/-- The cursor past a number of characters. -/
def drop (c : Cursor) : Nat → Cursor
  | 0 => c
  | n + 1 =>
    match c.rest with
    | [] => c
    | ch :: rest => drop { c with rest := rest, offset := c.offset + ch.utf8Size } n

/-- The characters between a cursor and a later one. -/
def textTo (c d : Cursor) : List Char := bytePrefix (d.offset - c.offset) c.rest

/-- The node that spans the characters between a cursor and a later one. -/
def node (c d : Cursor) (kind : Kind) (children : List (Label × Tree)) : Tree :=
  .node kind c.offset d.offset (c.textTo d) children

/-! ## Blanks and comments -/

/-- What kind of text between tokens is being passed. Blanks are open as long as the end of a line
among them ends a statement. A comment knows where it began and its characters so far, latest
first. -/
inductive Gap where
  | blank (isOpen : Bool)
  | line (start : Nat) (text : List Char)
  | block (start : Nat) (text : List Char)

/-- The node of a comment that ends at a byte offset. -/
def commentNode (start stop : Nat) (reversed : List Char) : Tree :=
  .node .comment start stop reversed.reverse []

/-- Passes blanks and comments, on request only to the end of the line. Also given is what stands
behind the first end of a line that ends a statement, if there is one. -/
def skipFrom (isBlank : Char → Bool) (oneLine : Bool) (gap : Gap) (behind : Option (List Char))
    (offset : Nat) (comments : List Tree) : List Char → Cursor × Option (List Char)
  | [] =>
    match gap with
    | .blank _ => ({ rest := [], offset, comments }, behind)
    | .line start text | .block start text =>
      ({ rest := [], offset, comments := commentNode start offset text :: comments }, behind)
  | ch :: rest =>
    let next := offset + ch.utf8Size
    match gap with
    | .line start text =>
      if isLineEnd ch then
        let comments := commentNode start offset text :: comments
        if oneLine then ({ rest := ch :: rest, offset, comments }, behind)
        else
          skipFrom isBlank oneLine (.blank true)
            (if behind.isNone && ch == '\n' then some rest else behind) next comments rest
      else skipFrom isBlank oneLine (.line start (ch :: text)) behind next comments rest
    | .block start text =>
      if ch == '/' && text.head? == some '*' && text.length > 2 then
        skipFrom isBlank oneLine (.blank true) behind next
          (commentNode start next (ch :: text) :: comments) rest
      else skipFrom isBlank oneLine (.block start (ch :: text)) behind next comments rest
    | .blank isOpen =>
      if isLineEnd ch && oneLine then ({ rest := ch :: rest, offset, comments }, behind)
      else if isBlank ch then
        skipFrom isBlank oneLine (.blank (isOpen && isLineSpace ch))
          (if behind.isNone && isOpen && ch == '\n' then some rest else behind) next comments rest
      else if ch == '/' && rest.head? == some '/' then
        skipFrom isBlank oneLine (.line offset [ch]) behind next comments rest
      else if ch == '/' && rest.head? == some '*' then
        skipFrom isBlank oneLine (.block offset [ch]) behind next comments rest
      else ({ rest := ch :: rest, offset, comments }, behind)

/-- The cursor at the next token. -/
def skip (c : Cursor) : Cursor :=
  { (skipFrom isSpace false (.blank true) none c.offset c.comments c.rest).1 with
    inner := c.inner }

/-- The cursor past the blanks and comments on its line. -/
def skipLine (c : Cursor) : Cursor :=
  { (skipFrom isSpace true (.blank true) none c.offset c.comments c.rest).1 with inner := c.inner }

/-- What stands behind the first end of a line before the next token, if a line ends there. -/
def nextLine? (c : Cursor) : Option (List Char) :=
  (skipFrom isSpace false (.blank true) none c.offset c.comments c.rest).2

/-- Whether a line ends before the next token. -/
def newlineAhead (c : Cursor) : Bool := c.nextLine?.isSome

/-- The length of a comment that begins with `<!--` or `-->`, if one stands there. -/
def markupLength? (cs : List Char) : Option Nat :=
  if "<!--".toList.isPrefixOf cs || "-->".toList.isPrefixOf cs then
    some (cs.takeWhile fun c => c == '\r' || !isLineEnd c).length
  else none

/-- The cursor past comments that begin with `<!--` or `-->`. They are told from operators by their
place only: one where an operand, an entry or a statement may begin. -/
def passMarkup : Nat → Cursor → Cursor
  | 0, c => c
  | fuel + 1, c =>
    let b := c.skip
    match markupLength? b.rest with
    | some n =>
      let d := b.drop n
      passMarkup fuel { d with comments := b.node d .other [] :: d.comments }
    | none => c

/-- The cursor past all such comments. -/
def skipMarkup (c : Cursor) : Cursor := passMarkup c.rest.length c

/-- Whether no token is left. -/
def atEnd (c : Cursor) : Bool := c.skip.rest.isEmpty

/-- The first character of the next token. -/
def peek? (c : Cursor) : Option Char := c.skip.rest.head?

/-- Whether the next token begins with some characters. -/
def looksAt (c : Cursor) (s : String) : Bool := s.toList.isPrefixOf c.skip.rest

/-! ## Tokens -/

/-- The cursor past the given punctuation. -/
def punct? (c : Cursor) (s : String) : Option Cursor :=
  let c := c.skip
  if s.toList.isPrefixOf c.rest then some (c.drop s.length) else none

/-- The cursor past an equals sign that is not part of a longer operator. -/
def equals? (c : Cursor) : Option Cursor := do
  let d ← c.punct? "="
  match d.rest.head? with
  | some '=' => none
  | some '>' => none
  | _ => some d

/-- The length of a Unicode escape at the start of a name, if there is one. -/
def nameEscape? : List Char → Option Nat
  | '\\' :: 'u' :: '\x7b' :: rest =>
    let ds := rest.takeWhile (· != '\x7d')
    if ds.isEmpty || ds.length == rest.length then none else some (ds.length + 4)
  | '\\' :: 'u' :: rest => if 4 ≤ rest.length then some 6 else none
  | _ => none

/-- The number of characters of the name at the start of a row of characters. -/
def nameLength : Nat → List Char → Nat
  | 0, _ => 0
  | fuel + 1, cs =>
    match cs with
    | [] => 0
    | c :: rest =>
      if isNamePart c then nameLength fuel rest + 1
      else
        match nameEscape? cs with
        | some n => n + nameLength fuel (cs.drop n)
        | none => 0

/-- The name at the cursor, reserved or not: where it stands, its text and the cursor past it. -/
def word? (c : Cursor) : Option (Cursor × String × Cursor) :=
  let c := c.skip
  let starts :=
    match c.rest with
    | [] => false
    | ch :: _ => isNameStart ch || (nameEscape? c.rest).isSome
  if starts then
    let d := c.drop (nameLength (c.rest.length + 1) c.rest)
    some (c, String.ofList (c.textTo d), d)
  else none

/-- The text of the name at the cursor. -/
def nextWord (c : Cursor) : String :=
  match c.word? with
  | some (_, w, _) => w
  | none => ""

/-- The cursor past a word. -/
def keyword? (c : Cursor) (w : String) : Option Cursor := do
  let (_, v, d) ← c.word?
  if v == w then some d else none

/-- The cursor past one of some words. -/
def keywords? (c : Cursor) (ws : List String) : Option Cursor := do
  let (_, v, d) ← c.word?
  if ws.contains v then some d else none

/-- The cursor past any of the given words, however many stand there. -/
def skipWords (ws : List String) : Nat → Cursor → Cursor
  | 0, c => c
  | fuel + 1, c =>
    match c.keywords? ws with
    | some d => skipWords ws fuel d
    | none => c

/-! ## Ends of statements -/

/-- The characters that go on with a statement on the line before. -/
def continuing : List Char :=
  ['\x60', ',', '.', ';', '*', '%', '>', '<', '=', '?', '^', '|', '&', '/', ':']

/-- Whether a statement may end in front of what starts a new line. Operators go on with the
statement before them, and so do brackets behind a value. -/
def startsStatement (behindValue : Bool) : List Char → Bool
  | [] => true
  | '+' :: rest => rest.head? == some '+'
  | '-' :: rest => rest.head? == some '-'
  | '!' :: rest => rest.head? != some '='
  | 'i' :: 'n' :: rest =>
    match rest with
    | [] => false
    | c :: _ =>
      if !isWordLetter c then false
      else !("stanceof".toList.isPrefixOf rest && !((rest.drop 8).head?.any isWordLetter))
  | c :: _ => !continuing.contains c && !(behindValue && (c == '(' || c == '['))

/-- Whether a line ends at the cursor and the next one starts a statement. -/
def endsLine (behindValue : Bool) (c : Cursor) : Bool :=
  match c.nextLine? with
  | none => false
  | some line =>
    startsStatement behindValue (skipFrom isLineSpace false (.blank true) none 0 [] line).1.rest

/-- Whether nothing may go on with the value in front of the cursor, for a statement ends there. -/
def endsValue (c : Cursor) : Bool := !c.inner && c.endsLine true

/-- Whether a statement may end at the cursor without a semicolon: before a closing brace, at the
end, or where a line ends and the next one starts a statement. -/
def endsStatement (behindValue : Bool) (c : Cursor) : Bool :=
  match c.skip.rest with
  | [] => true
  | '\x7d' :: _ => true
  | _ => c.endsLine behindValue

/-- The cursor past the end of a statement. -/
def semicolon? (behindValue : Bool) (c : Cursor) : Option Cursor :=
  match c.punct? ";" with
  | some d => some d
  | none => if c.endsStatement behindValue then some c else none

end Cursor

end AgentFlow.Script
