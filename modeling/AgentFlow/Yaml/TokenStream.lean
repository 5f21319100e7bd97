import AgentFlow.Yaml.Block
import AgentFlow.Yaml.Property
import AgentFlow.Yaml.Quoted

/-!
# Token streams

Tokens are read one by one as they are asked for. A token may turn out to be a key when a colon
follows it on its line, so a stream holds tokens back as long as the first of them may still be one
(`TokenStream.fill`). Blocks are told by their indentation: a token further to the right than the
open blocks may open one, and one to the left of them closes them (`TokenStream.unwind`).
-/

namespace AgentFlow.Yaml

/-- The kind of an open bracket. -/
inductive Bracket where
  | sequence
  | mapping
  deriving DecidableEq

/-- A token that is a key if a colon follows it: its number in the stream, whether it can be
nothing else, and where it starts. -/
structure PendingKey where
  number : Nat
  required : Bool
  index : Nat
  line : Nat
  column : Nat

/-- A token with the line it starts on. -/
structure Placed where
  token : Token
  line : Nat
  deriving Inhabited

/-- What has been read of a text as tokens. -/
structure TokenStream where
  source : Source
  /-- The version that a directive has named. -/
  version : Option Version
  /-- The open brackets, innermost first. -/
  brackets : List Bracket
  /-- The tokens that have been read and not taken. -/
  queue : List Placed
  taken : Nat
  /-- The column of the innermost open block, and of those around it. -/
  indent : Int
  indents : List Int
  /-- Whether a key may start here. -/
  allowKey : Bool
  /-- The token of each depth of brackets that may be a key. -/
  keys : List (Nat × PendingKey)
  finished : Bool

namespace TokenStream

/-- The stream of a text of which nothing has been read. -/
def ofChars (cs : List Char) : TokenStream where
  source := Source.ofChars cs
  version := none
  brackets := []
  queue := []
  taken := 0
  indent := -1
  indents := []
  allowKey := true
  keys := []
  finished := false

/-- The version of the text. -/
def processingVersion (t : TokenStream) : Version := t.version.getD Version.default

/-- The number of open brackets. -/
def depth (t : TokenStream) : Nat := t.brackets.length

/-- Whether a bracket is open. -/
def inFlow (t : TokenStream) : Bool := !t.brackets.isEmpty

/-- A fault right here. -/
def fail {α : Type} (t : TokenStream) : Except Fault α := t.source.fail

/-- The stream with one more token that starts here. -/
def push (t : TokenStream) (token : Token) : TokenStream :=
  { t with queue := t.queue ++ [⟨token, t.source.line⟩] }

/-- The stream with one more token, after which the source goes on at `after`. -/
def pushTo (t : TokenStream) (token : Token) (after : Source) : TokenStream :=
  { t.push token with source := after }

/-- The stream with a token put in front of the one of a given number. -/
def putAt (t : TokenStream) (number : Nat) (placed : Placed) : TokenStream :=
  let n := number - t.taken
  { t with queue := t.queue.take n ++ placed :: t.queue.drop n }

/-! ## Keys -/

/-- Whether a token can no longer be a key: it is on another line, or too far back. -/
def isStale (t : TokenStream) (k : PendingKey) : Bool :=
  k.line != t.source.line || t.source.index - k.index > 1024

/-- The stream without the tokens that can no longer be keys. -/
def dropStale (t : TokenStream) : Except Fault TokenStream :=
  if t.keys.any fun k => t.isStale k.2 && k.2.required then t.fail
  else .ok { t with keys := t.keys.filter fun k => !t.isStale k.2 }

/-- The token of this depth that may be a key. -/
def pending? (t : TokenStream) : Option PendingKey :=
  (t.keys.find? fun k => k.1 == t.depth).map (·.2)

/-- The stream where no token of this depth may be a key. -/
def forget (t : TokenStream) : TokenStream :=
  { t with keys := t.keys.filter fun k => k.1 != t.depth }

/-- `forget`, unless the token has to be a key. -/
def dropPending (t : TokenStream) : Except Fault TokenStream :=
  match t.pending? with
  | some k => if k.required then t.fail else .ok t.forget
  | none => .ok t

/-- The stream where the next token may be a key. -/
def offerKey (t : TokenStream) : Except Fault TokenStream :=
  if t.allowKey then do
    let required := !t.inFlow && t.indent == t.source.column
    let t ← t.dropPending
    let k : PendingKey :=
      ⟨t.taken + t.queue.length, required, t.source.index, t.source.line, t.source.column⟩
    .ok { t with keys := (t.depth, k) :: t.keys }
  else .ok t

/-! ## Blocks -/

/-- The blocks right of a column closed, innermost first. -/
def closeBlocks (column : Int) : List Int → TokenStream → TokenStream
  | [], t => t
  | outer :: rest, t =>
    if column < t.indent then
      closeBlocks column rest { t.push .blockEnd with indent := outer, indents := rest }
    else t

/-- The stream with the blocks right of a column closed; inside brackets there are none. -/
def unwind (column : Int) (t : TokenStream) : TokenStream :=
  if t.inFlow then t else closeBlocks column t.indents t

/-- Whether a token at a column opens a block. -/
def opensBlock (t : TokenStream) (column : Nat) : Bool := t.indent < column

/-- The stream with a block opened at a column. -/
def openBlock (t : TokenStream) (column : Nat) : TokenStream :=
  { t with indent := column, indents := t.indent :: t.indents }

/-- The start of a block in front of a token that stands here, if that token opens one. -/
def startBlock (t : TokenStream) (token : Token) : TokenStream :=
  if !t.inFlow && t.opensBlock t.source.column then (t.openBlock t.source.column).push token else t

/-! ## Reading one token -/

/-- The stream past blanks, comments and line breaks. Outside brackets a new line may start with a
key. -/
def skipGap : Nat → TokenStream → TokenStream
  | 0, t => t
  | fuel + 1, t =>
    let s := t.source.skip fun c => c == ' ' || (t.inFlow && c == '\t')
    let s := if s.peek == '#' then s.skip (!isLineEnd ·) else s
    if isBreak s.peek then
      skipGap fuel { t with source := s.lineBreak.2, allowKey := t.allowKey || !t.inFlow }
    else { t with source := s }

/-- The end of the text. -/
def readEnd (t : TokenStream) : Except Fault TokenStream := do
  let t ← (t.unwind (-1)).dropPending
  .ok { t.push .streamEnd with allowKey := false, keys := [], finished := true }

/-- A directive. -/
def readDirective (t : TokenStream) : Except Fault TokenStream := do
  let t ← (t.unwind (-1)).dropPending
  let (d, after) ← directive t.processingVersion.isNew t.source
  let version :=
    match d with
    | .version v => some v
    | _ => t.version
  .ok { t.pushTo (.directive d) after with allowKey := false, version := version }

/-- A mark between documents. -/
def readMark (t : TokenStream) (token : Token) : Except Fault TokenStream := do
  let t ← (t.unwind (-1)).dropPending
  .ok { t.pushTo token (t.source.advanceBy 3) with allowKey := false }

/-- An opening bracket. -/
def readOpening (t : TokenStream) (bracket : Bracket) (token : Token) :
    Except Fault TokenStream := do
  let t ← t.offerKey
  .ok { t.pushTo token t.source.advance with brackets := bracket :: t.brackets, allowKey := true }

/-- A closing bracket. -/
def readClosing (t : TokenStream) (token : Token) : Except Fault TokenStream := do
  let t ← t.dropPending
  .ok { t.pushTo token t.source.advance with brackets := t.brackets.tail, allowKey := false }

/-- A comma. -/
def readComma (t : TokenStream) : Except Fault TokenStream := do
  let t ← t.dropPending
  .ok { t.pushTo .flowEntry t.source.advance with allowKey := true }

/-- The mark of an item of a block. -/
def readEntry (t : TokenStream) : Except Fault TokenStream :=
  if !t.inFlow && !t.allowKey then t.fail
  else do
    let t ← (t.startBlock .blockSequenceStart).dropPending
    .ok { t.pushTo .blockEntry t.source.advance with allowKey := true }

/-- The mark of a key. -/
def readKey (t : TokenStream) : Except Fault TokenStream :=
  if !t.inFlow && !t.allowKey then t.fail
  else do
    let t ← (t.startBlock .blockMappingStart).dropPending
    .ok { t.pushTo .key t.source.advance with allowKey := !t.inFlow }

/-- A colon after a token that may be a key: the mark of the key, and the start of the block that
it opens, are put in front of that token. -/
def markKey (t : TokenStream) (k : PendingKey) : TokenStream :=
  let t := t.forget.putAt k.number ⟨.key, k.line⟩
  let t :=
    if !t.inFlow && t.opensBlock k.column then
      (t.openBlock k.column).putAt k.number ⟨.blockMappingStart, k.line⟩
    else t
  { t.pushTo .value t.source.advance with allowKey := false }

/-- A colon. -/
def readColon (t : TokenStream) : Except Fault TokenStream :=
  match t.pending? with
  | some k => .ok (t.markKey k)
  | none =>
    if !t.inFlow && !t.allowKey then t.fail
    else do
      let t ← ({ t.startBlock .blockMappingStart with allowKey := !t.inFlow }).dropPending
      .ok (t.pushTo .value t.source.advance)

/-- An alias, an anchor or a tag, or a quoted scalar. -/
def readItem (t : TokenStream) (reader : Source → Except Fault (Token × Source)) :
    Except Fault TokenStream := do
  let t ← t.offerKey
  let (token, after) ← reader t.source
  .ok { t.pushTo token after with allowKey := false }

/-- A block scalar. -/
def readBlock (t : TokenStream) : Except Fault TokenStream := do
  let t ← t.dropPending
  let (text, after) ← blockScalar (t.indent + 1).toNat t.source
  .ok { t.pushTo (.scalar (Text.ofChars text) false) after with allowKey := true }

/-- A plain scalar. -/
def readPlain (t : TokenStream) : Except Fault TokenStream := do
  let t ← t.offerKey
  let ctx : PlainContext := ⟨t.inFlow, t.processingVersion == Version.old, t.indent + 1⟩
  let found := plainScalar ctx t.source
  .ok { t.pushTo (.scalar (Text.ofChars found.text) true) found.source with
    allowKey := found.crossed }

/-- Whether the token read last is a colon. -/
def followsColon (t : TokenStream) : Bool :=
  match t.queue.getLast? with
  | some p => p.token == .value
  | none => false

/-- Whether a colon is the mark of a value here. -/
def colonIsMark (t : TokenStream) : Bool :=
  let gap := isGap (t.source.peekAt 1)
  match t.brackets.head? with
  | none => gap
  | some bracket =>
    if t.processingVersion == Version.old then true
    else
      match bracket with
      | .sequence => gap
      | .mapping => gap || !t.followsColon

/-- The characters that no plain scalar starts with, unless what follows them allows it. -/
def isIndicator (c : Char) : Bool :=
  isGap c || isBreak c || "-?:,[]#&*!|>'\"%@".toList.contains c || c == '\x60' || c == '\x7b'
    || c == '\x7d'

/-- Whether a plain scalar is next. -/
def plainStarts (t : TokenStream) : Bool :=
  let c := t.source.peek
  let next := t.source.peekAt 1
  !isIndicator c
    || (c == ':' && t.inFlow && t.processingVersion != Version.old && !isSpace next)
    || (!isGap next && (c == '-' || (!t.inFlow && (c == '?' || c == ':'))))

/-- The stream with the token that is next read. -/
def readToken (t : TokenStream) : Except Fault TokenStream :=
  let s := t.source
  let c := s.peek
  let gap := isGap (s.peekAt 1)
  if s.rest.isEmpty then t.readEnd
  else if c == '%' && s.column == 0 then t.readDirective
  else if s.column == 0 && s.isMark '-' then t.readMark .documentStart
  else if s.column == 0 && s.isMark '.' then t.readMark .documentEnd
  else if c == '[' then t.readOpening .sequence .sequenceStart
  else if c == '\x7b' then t.readOpening .mapping .mappingStart
  else if c == ']' then t.readClosing .sequenceEnd
  else if c == '\x7d' then t.readClosing .mappingEnd
  else if c == ',' then t.readComma
  else if c == '-' && gap then t.readEntry
  else if c == '?' && (t.inFlow || gap) then t.readKey
  else if c == ':' && t.colonIsMark then t.readColon
  else if c == '*' then t.readItem fun s => (anchorName s).map fun r => (.alias r.1, r.2)
  else if c == '&' then t.readItem fun s => (anchorName s).map fun r => (.anchor r.1, r.2)
  else if c == '!' then
    t.readItem fun s => (tagName t.processingVersion.isNew s).map fun r => (.tag r.1, r.2)
  else if (c == '|' || c == '>') && !t.inFlow then t.readBlock
  else if c == '\'' || c == '"' then
    t.readItem fun s => (quotedScalar s).map fun r => (.scalar r.1 false, r.2)
  else if t.plainStarts then t.readPlain
  else t.fail

/-- The stream with one more token read, and the blocks closed that it stands left of. -/
def read (t : TokenStream) : Except Fault TokenStream := do
  let t := if t.source.index == 0 && t.source.peek == '\uFEFF' then
    { t with source := t.source.advance } else t
  let t ← (t.skipGap (t.source.rest.length + 1)).dropStale
  (t.unwind t.source.column).readToken

/-- Whether the first token that has not been taken may still be a key. -/
def mayBeKey (t : TokenStream) : Bool := t.keys.any fun k => k.2.number == t.taken

/-- Tokens read until the first one is known. -/
def fillWith : Nat → TokenStream → Except Fault TokenStream
  | 0, t => .ok t
  | fuel + 1, t =>
    if t.finished then .ok t
    else if t.queue.isEmpty then do fillWith fuel (← t.read)
    else do
      let t ← t.dropStale
      if t.mayBeKey then fillWith fuel (← t.read) else .ok t

/-- The stream with its first token known. Every token that is read takes a character, but the one
at the end of the text. -/
def fill (t : TokenStream) : Except Fault TokenStream := t.fillWith (t.source.rest.length + 2)

end TokenStream

end AgentFlow.Yaml
