import AgentFlow.Text.Digit
import AgentFlow.Yaml.Source
import AgentFlow.Yaml.Token

/-!
# Anchors, tags and directives

What may stand in front of a node, and in front of a document.
-/

namespace AgentFlow.Yaml

/-! ## Names -/

/-- Whether a character may be part of the name of an anchor. -/
def isAnchorChar (c : Char) : Bool :=
  let n := c.toNat
  !([',', '[', ']', '\x7b', '\x7d'].contains c)
    && ((0x21 ≤ n && n ≤ 0x7E) || (0xA0 ≤ n && n ≤ 0xD7FF)
      || (0xE000 ≤ n && n ≤ 0xFFFD && n != 0xFEFF) || 0x10000 ≤ n)

/-- Whether a character may follow the name of an anchor. -/
def endsAnchor (c : Char) : Bool :=
  isGap c || isBreak c || ['?', ':', ',', '[', ']', '\x7b', '\x7d', '%', '@', '\x60'].contains c

/-- The name of an anchor or alias, whose mark is next. -/
def anchorName (s : Source) : Except Fault (List Char × Source) :=
  let (name, s) := s.advance.span isAnchorChar
  if name.isEmpty || !endsAnchor s.peek then s.fail else .ok (name, s)

/-- Whether a character is an ASCII letter or digit, a hyphen or a low line. -/
def isWordChar (c : Char) : Bool := c.isAlphanum || c == '-' || c == '_'

/-! ## Tags -/

/-- Whether a character may be part of a tag as it is; the newer versions allow a hash. -/
def isTagChar (isNew : Bool) (c : Char) : Bool :=
  c.isAlphanum || "-;/?:@&=+$,_.!~*'()[]".toList.contains c || (isNew && c == '#')

/-- The bytes that a row of percent signs with two hexadecimal digits each spells. -/
def escapedBytes : Nat → Source → Except Fault (List UInt8 × Source)
  | 0, s => .ok ([], s)
  | fuel + 1, s =>
    if s.peek == '%' then
      let s := s.advance
      let ds := s.rest.take 2
      if ds.length == 2 && ds.all (isDigitOf 16) then do
        let (bs, s) ← escapedBytes fuel (s.advanceBy 2)
        .ok (UInt8.ofNat (ofDigits 16 ds) :: bs, s)
      else s.fail
    else .ok ([], s)

/-- The characters that a row of escaped bytes spells. -/
def escapedChars (s : Source) : Except Fault (List Char × Source) := do
  let (bs, after) ← escapedBytes (s.rest.length + 1) s
  match String.fromUTF8? ⟨bs.toArray⟩ with
  | some text => .ok (text.toList, after)
  | none => s.fail

/-- The characters of a tag up to the first that may not be part of it. -/
def tagChars (isNew : Bool) : Nat → Source → Except Fault (List Char × Source)
  | 0, s => .ok ([], s)
  | fuel + 1, s =>
    if s.peek == '%' then do
      let (cs, s) ← escapedChars s
      let (more, s) ← tagChars isNew fuel s
      .ok (cs ++ more, s)
    else if isTagChar isNew s.peek then do
      let (more, after) ← tagChars isNew fuel s.advance
      .ok (s.peek :: more, after)
    else .ok ([], s)

/-- The suffix or name of a tag, which is not empty. -/
def tagText (isNew : Bool) (s : Source) : Except Fault (List Char × Source) :=
  if s.peek == '%' || isTagChar isNew s.peek then tagChars isNew (s.rest.length + 1) s
  else s.fail

/-- A handle: a word between exclamation marks, or a mark with a blank after it. -/
def tagHandle (s : Source) : Except Fault (List Char × Source) :=
  if s.peek != '!' then s.fail
  else if s.peekAt 1 == ' ' then .ok (['!'], s.advance)
  else
    let (word, after) := s.advance.span isWordChar
    if after.peek == '!' then .ok ('!' :: word ++ ['!'], after.advance) else after.fail

/-- Whether another exclamation mark stands before the next blank or break. -/
def hasHandleEnd (s : Source) : Bool :=
  (s.rest.drop 1).find? (fun c => isBlankOrBreak c || c == '!') == some '!'

/-- The tag whose first mark is next. -/
def tagName (isNew : Bool) (s : Source) : Except Fault (TagName × Source) := do
  let short : List Char := if s.peekAt 1 == '!' then ['!', '!'] else ['!']
  let s := if s.peekAt 1 == '!' then s.advance else s
  let (tag, s) ←
    if s.peekAt 1 == '<' then do
      let (name, s) ← tagText isNew (s.advanceBy 2)
      if s.peek == '>' then Except.ok (TagName.mk none name, s.advance) else s.fail
    else if isGap (s.peekAt 1) then Except.ok (TagName.mk none short, s.advance)
    else do
      let (handle, s) ← if hasHandleEnd s then tagHandle s else Except.ok (short, s.advance)
      let (suffix, s) ← tagText isNew s
      Except.ok (TagName.mk (some handle) suffix, s)
  if isBlankOrBreak s.peek then .ok (tag, s) else s.fail

/-! ## Directives -/

/-- A number in a directive. -/
def directiveNumber (s : Source) : Except Fault (Nat × Source) :=
  let (ds, after) := s.span Char.isDigit
  if ds.isEmpty then s.fail else .ok (ofDigits 10 ds, after)

/-- The version that a directive names. -/
def directiveVersion (s : Source) : Except Fault (Version × Source) := do
  let (major, s) ← directiveNumber (s.skip (· == ' '))
  if s.peek != '.' then s.fail
  else
    let (minor, s) ← directiveNumber s.advance
    if isBlankOrBreak s.peek then .ok (⟨major, minor⟩, s) else s.fail

/-- The handle that a directive declares, and what it stands for. -/
def directiveTag (isNew : Bool) (s : Source) :
    Except Fault ((List Char × List Char) × Source) := do
  let (handle, s) ← tagHandle (s.skip (· == ' '))
  if s.peek != ' ' then s.fail
  else
    let (expansion, s) ← tagText isNew (s.skip (· == ' '))
    if isBlankOrBreak s.peek then .ok ((handle, expansion), s) else s.fail

/-- The rest of the line of a directive: blanks and a comment only. -/
def directiveEnd (s : Source) : Except Fault Source :=
  let s := s.skip (· == ' ')
  let s := if s.peek == '#' then s.skip (!isLineEnd ·) else s
  if isLineEnd s.peek then .ok s.lineBreak.2 else s.fail

/-- The directive whose percent sign is next. -/
def directive (isNew : Bool) (s : Source) : Except Fault (Directive × Source) := do
  let (name, s) := s.advance.span fun c => isWordChar c || c == ':' || c == '.'
  if name.isEmpty || !isBlankOrBreak s.peek then s.fail
  else if name == "YAML".toList then
    let (v, s) ← directiveVersion s
    .ok (.version v, ← directiveEnd s)
  else if name == "TAG".toList then
    let ((handle, expansion), s) ← directiveTag isNew s
    .ok (.tag handle expansion, ← directiveEnd s)
  else .ok (.other, ← directiveEnd (s.skip (!isLineEnd ·)))

end AgentFlow.Yaml
