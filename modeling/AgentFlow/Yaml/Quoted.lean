import AgentFlow.Text.Digit
import AgentFlow.Yaml.Plain

/-!
# Quoted scalars

Between single quotes a quote is written twice and nothing else is special. Between double quotes a
backslash starts an escape, and a break after it joins two lines. In both, blanks around a line
break are dropped and breaks are folded as in a plain scalar.
-/

namespace AgentFlow.Yaml

/-- The character of an escape of one letter. -/
def simpleEscape? : Char → Option Char
  | '0' => some '\x00'
  | 'a' => some '\x07'
  | 'b' => some '\x08'
  | 't' => some '\t'
  | '\t' => some '\t'
  | 'n' => some '\n'
  | 'v' => some '\x0b'
  | 'f' => some '\x0c'
  | 'r' => some '\r'
  | 'e' => some '\x1b'
  | ' ' => some ' '
  | '"' => some '"'
  | '/' => some '/'
  | '\\' => some '\\'
  | 'N' => some '\u0085'
  | '_' => some '\u00a0'
  | 'L' => some '\u2028'
  | 'P' => some '\u2029'
  | _ => none

/-- The number of hexadecimal digits after the letter of an escape. -/
def escapeWidth? : Char → Option Nat
  | 'x' => some 2
  | 'u' => some 4
  | 'U' => some 8
  | _ => none

/-- The empty lines after a line break between quotes. -/
def quotedBreaks : Nat → Source → Except Fault (List Char × Source)
  | 0, s => .ok ([], s)
  | fuel + 1, s =>
    if s.isDocumentMark then s.fail
    else
      let s := s.skip isSpace
      if isBreak s.peek then do
        let (b, s) := s.lineBreak
        let (bs, s) ← quotedBreaks fuel s
        .ok (b ++ bs, s)
      else .ok ([], s)

/-- The text of an escape, whose backslash has been read. -/
def quotedEscape (s : Source) : Except Fault (Text × Source) :=
  match simpleEscape? s.peek, escapeWidth? s.peek with
  | some c, _ => .ok ([.char c], s.advance)
  | none, some width =>
    let s := s.advance
    let ds := s.rest.take width
    if ds.length == width && ds.all (isDigitOf 16) then
      match CodePoint.ofNat? (ofDigits 16 ds) with
      | some p => .ok ([p], s.advanceBy width)
      | none => .error (.escapeRange (ofDigits 16 ds))
    else s.fail
  | none, none =>
    if isBreak s.peek then do
      let (_, s) := s.lineBreak
      let (bs, s) ← quotedBreaks (s.rest.length + 1) s
      .ok (Text.ofChars bs, s)
    else s.fail

/-- A gap between quotes: the blanks, or the breaks folded. -/
def quotedGap (s : Source) : Except Fault (Text × Source) :=
  let (blanks, s) := s.span isSpace
  if s.rest.isEmpty then s.fail
  else if isBreak s.peek then do
    let (b, s) := s.lineBreak
    let (bs, s) ← quotedBreaks (s.rest.length + 1) s
    .ok (Text.ofChars (foldBreaks b bs), s)
  else .ok (Text.ofChars blanks, s)

/-- The rest of a quoted scalar up to its closing quote. -/
def quotedRest (quote : Char) : Nat → Source → Except Fault (Text × Source)
  | 0, s => s.fail
  | fuel + 1, s =>
    let c := s.peek
    if c == quote then
      if quote == '\'' && s.peekAt 1 == '\'' then do
        let (t, s) ← quotedRest quote fuel (s.advanceBy 2)
        .ok (.char '\'' :: t, s)
      else .ok ([], s.advance)
    else if c == '\\' && quote == '"' then do
      let (p, s) ← quotedEscape s.advance
      let (t, s) ← quotedRest quote fuel s
      .ok (p ++ t, s)
    else if isSpace c || isBreak c || c == '\x00' then do
      let (gap, s) ← quotedGap s
      let (t, s) ← quotedRest quote fuel s
      .ok (gap ++ t, s)
    else do
      let (t, s) ← quotedRest quote fuel s.advance
      .ok (.char c :: t, s)

/-- The quoted scalar that is next. -/
def quotedScalar (s : Source) : Except Fault (Text × Source) :=
  quotedRest s.peek (s.rest.length + 1) s.advance

end AgentFlow.Yaml
