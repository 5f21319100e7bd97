import AgentFlow.Yaml.Source

/-!
# Plain scalars

A plain scalar is written without quotes. It ends at a gap before a comment, at a colon that a gap
follows, at a mark between documents and, inside brackets, at the marks of collections. A single
line break inside it is a blank, and of several the first is dropped.
-/

namespace AgentFlow.Yaml

/-- The marks that end a plain scalar inside brackets. -/
def isFlowMark (c : Char) : Bool := [',', ':', '?', '[', ']', '\x7b', '\x7d'].contains c

/-- Where a plain scalar stands. -/
structure PlainContext where
  inFlow : Bool
  /-- Whether a question mark ends it inside brackets. -/
  questionEnds : Bool
  /-- The least column that it may continue at outside brackets. -/
  indent : Int

/-- The longest row of characters without a gap that belongs to a plain scalar. -/
def plainRun (ctx : PlainContext) : List Char → List Char
  | [] => []
  | c :: rest =>
    let joined := (c == ':' && !isGap (rest.headD '\x00')) || (c == '?' && !ctx.questionEnds)
    if !joined && (isGap c || (c == ':' && !ctx.inFlow) || (ctx.inFlow && isFlowMark c)) then []
    else c :: plainRun ctx rest

/-- A gap inside a plain scalar: the text it stands for, empty if the scalar ends there, and
whether it reaches to another line. -/
structure PlainGap where
  text : List Char
  crossed : Bool
  source : Source

/-- The empty lines after a line break, and none if a mark between documents follows. -/
def plainBreaks : Nat → Source → Option (List Char) × Source
  | 0, s => (some [], s)
  | fuel + 1, s =>
    if s.peek == ' ' then plainBreaks fuel s.advance
    else if isBreak s.peek then
      let (b, s) := s.lineBreak
      if s.isDocumentMark then (none, s)
      else
        let (bs, s) := plainBreaks fuel s
        (bs.map (b ++ ·), s)
    else (some [], s)

/-- A line break and the empty lines after it as text. -/
def foldBreaks (first others : List Char) : List Char :=
  if first != ['\n'] then first ++ others
  else if others.isEmpty then [' ']
  else others

/-- The gap that is next. -/
def plainGap (s : Source) : PlainGap :=
  let (blanks, s) := s.span (· == ' ')
  if isBreak s.peek then
    let (b, s) := s.lineBreak
    if s.isDocumentMark then ⟨[], true, s⟩
    else
      match plainBreaks (s.rest.length + 1) s with
      | (none, s) => ⟨[], true, s⟩
      | (some bs, s) => ⟨foldBreaks b bs, true, s⟩
  else ⟨blanks, false, s⟩

/-- The rest of a plain scalar after a gap that has been read. -/
def plainRest (ctx : PlainContext) : Nat → PlainGap → PlainGap
  | 0, gap => { gap with text := [] }
  | fuel + 1, gap =>
    let s := gap.source
    let run := if s.peek == '#' then [] else plainRun ctx s.rest
    if run.isEmpty then { gap with text := [] }
    else
      let next := plainGap (s.advanceBy run.length)
      if next.text.isEmpty || next.source.peek == '#'
          || (!ctx.inFlow && (next.source.column : Int) < ctx.indent) then
        { next with text := gap.text ++ run }
      else
        let more := plainRest ctx fuel next
        { more with text := gap.text ++ run ++ more.text }

/-- The plain scalar that is next, with the gap after it passed. -/
def plainScalar (ctx : PlainContext) (s : Source) : PlainGap :=
  plainRest ctx (s.rest.length + 1) ⟨[], false, s⟩

end AgentFlow.Yaml
