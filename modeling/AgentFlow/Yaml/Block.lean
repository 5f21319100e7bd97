import AgentFlow.Yaml.Source

/-!
# Block scalars

A block scalar is the lines below its header that are indented further than what surrounds it. The
header says whether lines are folded, how deep the block is indented if that is not to be seen from
its first line, and what becomes of the line breaks at its end.
-/

namespace AgentFlow.Yaml

/-- What becomes of the line breaks at the end of a block scalar: one is kept, all or none. -/
inductive Chomping where
  | clip
  | keep
  | strip
  deriving DecidableEq

/-- What the header of a block scalar says after its mark. -/
structure BlockHeader where
  chomping : Chomping
  indent : Option Nat

/-- The sign of a header. -/
def chompingSign? (c : Char) : Option Chomping :=
  if c == '+' then some .keep else if c == '-' then some .strip else none

/-- The digit of a header, which is not zero. -/
def indentDigit (s : Source) : Except Fault (Option Nat × Source) :=
  let c := s.peek
  if c == '0' then s.fail
  else if c.isDigit then .ok (some (c.toNat - 48), s.advance)
  else .ok (none, s)

/-- The sign and the digit of a header, in either order. -/
def blockHeader (s : Source) : Except Fault (BlockHeader × Source) := do
  let (header, s) ←
    match chompingSign? s.peek with
    | some chomping => do
      let (indent, s) ← indentDigit s.advance
      Except.ok (BlockHeader.mk chomping indent, s)
    | none => do
      let (indent, s) ← indentDigit s
      match indent, chompingSign? s.peek with
      | some _, some chomping => Except.ok (BlockHeader.mk chomping indent, s.advance)
      | _, _ => Except.ok (BlockHeader.mk .clip indent, s)
  if isBlankOrBreak s.peek then .ok (header, s) else s.fail

/-- The source past the rest of a line that may hold blanks and a comment only. -/
def ignoredLine (s : Source) : Except Fault Source :=
  let s := s.skip (· == ' ')
  let s := if s.peek == '#' then s.skip (!isLineEnd ·) else s
  if isLineEnd s.peek then .ok s.lineBreak.2 else s.fail

/-- The empty lines in front of a block whose indentation is still to be seen: their breaks, the
column of the first break and the deepest column. -/
structure BlockLead where
  breaks : List Char
  first : Option Nat
  deepest : Nat
  source : Source

/-- The empty lines in front of a block, read on from what has been seen of them. -/
def blockLead : Nat → BlockLead → BlockLead
  | 0, lead => lead
  | fuel + 1, lead =>
    let s := lead.source
    if s.peek == ' ' then
      let s := s.advance
      blockLead fuel { lead with deepest := max lead.deepest s.column, source := s }
    else if isBreak s.peek then
      let (b, after) := s.lineBreak
      blockLead fuel
        { lead with
          breaks := lead.breaks ++ b
          first := some (lead.first.getD s.column)
          source := after }
    else lead

/-- The source past the blanks that indent a line, up to a column. -/
def skipIndent (indent : Nat) : Nat → Source → Source
  | 0, s => s
  | fuel + 1, s =>
    if s.column < indent && s.peek == ' ' then skipIndent indent fuel s.advance else s

/-- The empty lines inside a block, and the source past the indentation of the line after them. -/
def blockBreaks (indent : Nat) : Nat → Source → List Char × Source
  | 0, s => ([], s)
  | fuel + 1, s =>
    let s := skipIndent indent (s.rest.length + 1) s
    if isBreak s.peek then
      let (b, s) := s.lineBreak
      let (bs, s) := blockBreaks indent fuel s
      (b ++ bs, s)
    else ([], s)

/-- How the lines of a block are read. -/
structure BlockContext where
  folded : Bool
  /-- The column of its lines. -/
  indent : Nat
  /-- Whether a mark between documents ends it. -/
  atTop : Bool

/-- The lines of a block: their text, the line break after the last of them, and the empty lines at
the end. `before` holds the empty lines read already. -/
def blockLines (ctx : BlockContext) :
    Nat → List Char → Source → List Char × List Char × List Char × Source
  | 0, before, s => ([], [], before, s)
  | fuel + 1, before, s =>
    if s.column == ctx.indent && !s.rest.isEmpty then
      let indented := isSpace s.peek
      let (line, s) := s.span (!isLineEnd ·)
      let (b, s) := s.lineBreak
      let (breaks, s) := blockBreaks ctx.indent (s.rest.length + 1) s
      let text := before ++ line
      if (ctx.atTop && s.column == 0 && s.isDocumentMark)
          || !(s.column == ctx.indent && !s.rest.isEmpty) then
        (text, b, breaks, s)
      else
        let joint :=
          if ctx.folded && b == ['\n'] && !indented && !isSpace s.peek then
            (if breaks.isEmpty then [' '] else [])
          else b
        let (more, b, breaks, s) := blockLines ctx fuel breaks s
        (text ++ joint ++ more, b, breaks, s)
    else ([], [], before, s)

/-- The column of the lines of a block and the empty lines in front of it. -/
def blockStart (least : Nat) (indent : Option Nat) (s : Source) :
    Except Fault (Nat × List Char × Source) :=
  match indent with
  | some digit =>
    let column := max least 1 + digit - 1
    let (breaks, s) := blockBreaks column (s.rest.length + 1) s
    .ok (column, breaks, s)
  | none =>
    let lead := blockLead (s.rest.length + 1) ⟨[], none, 0, s⟩
    match lead.first with
    | some first =>
      if 0 < first && first < lead.deepest then .error (.token none)
      else .ok (max least lead.deepest, lead.breaks, lead.source)
    | none => .ok (max least lead.deepest, lead.breaks, lead.source)

/-- The block scalar that is next; its lines are indented by `least` blanks at least. -/
def blockScalar (least : Nat) (s : Source) : Except Fault (List Char × Source) := do
  let folded := s.peek == '>'
  let (header, s) ← blockHeader s.advance
  let s ← ignoredLine s
  let (indent, breaks, s) ← blockStart least header.indent s
  let (text, b, breaks, s) :=
    blockLines ⟨folded, indent, least == 0 && header.indent.isNone⟩ (s.rest.length + 1) breaks s
  let ending :=
    match header.chomping with
    | .clip => b
    | .keep => b ++ breaks
    | .strip => []
  .ok (text ++ ending, s)

end AgentFlow.Yaml
