import AgentFlow.Decimal.Numeral
import AgentFlow.Yaml.Node
import AgentFlow.Yaml.TokenStream

/-!
# Documents

A document is read from its tokens as nodes, each under a number. An alias stands for the node that
carries its anchor, which may be one that it stands in itself; the latest anchor of a name counts.
Tokens are asked for one at a time, so the first fault in the text is the one that is found, be it
one of characters, of tokens or of nodes.

* `Tokens.node`: a node and all below it.
* `Tokens.document`: the root of the one document of a text.
-/

namespace AgentFlow.Yaml

/-- What has been read of a text as nodes. -/
structure Tokens where
  stream : TokenStream
  nodes : Nodes
  /-- The handles of tags and what they stand for. -/
  handles : List (List Char × List Char)
  /-- The anchors and the nodes that carry them, latest first. -/
  anchors : List (List Char × Nat)

/-- A step of reading a text as nodes. -/
abbrev Parsing (α : Type) := StateT Tokens (Except Fault) α

namespace Tokens

/-- The handles that every document has. -/
def defaultHandles : List (List Char × List Char) :=
  [(['!'], ['!']), (['!', '!'], "tag:yaml.org,2002:".toList)]

/-- The text of which no node has been read. -/
def ofChars (cs : List Char) : Tokens := ⟨TokenStream.ofChars cs, #[], defaultHandles, []⟩

/-- The next token. Past the end of the text it is the end again. -/
def peek : Parsing Placed := do
  let t ← get
  let stream ← t.stream.fill
  set { t with stream := stream }
  return stream.queue.headD ⟨.streamEnd, stream.source.line⟩

/-- The next token, taken. -/
def take : Parsing Placed := do
  let placed ← peek
  modify fun t =>
    { t with stream := { t.stream with queue := t.stream.queue.tail, taken := t.stream.taken + 1 } }
  return placed

/-- The version of the text so far. -/
def version : Parsing Version := do return (← get).stream.processingVersion

/-- One more node, under the next number. -/
def add (line : Nat) (tag : Tag) (content : Content) : Parsing Nat := do
  let n := (← get).nodes.size
  modify fun t => { t with nodes := t.nodes.push ⟨line, tag, content, false⟩ }
  return n

/-- A name for a node, if it has an anchor. -/
def anchored (anchor : Option (List Char)) (n : Nat) : Parsing Nat := do
  match anchor with
  | none => return n
  | some name =>
    modify fun t => { t with anchors := (name, n) :: t.anchors }
    return n

/-- One more node, of which the parts are read once it has its number and its anchor. -/
def collection (anchor : Option (List Char)) (line : Nat) (tag : Tag)
    (content : Parsing Content) : Parsing Nat := do
  let n ← anchored anchor (← add line tag (.sequence []))
  let content ← content
  modify fun t => { t with nodes := t.nodes.refill n content }
  return n

/-! ## Scalars -/

/-- The scalar of a text, tagged by its spelling. -/
def plainNode (line : Nat) (text : Text) : Parsing Nat := do
  add line (Tag.ofSpelling ((← version) == Version.old) text) (.scalar text)

/-- The scalar where a node is left out. -/
def emptyNode (line : Nat) : Parsing Nat := plainNode line []

/-! ## Properties -/

/-- What stands in front of a node: its anchor and its tag, and the line it starts on. -/
structure Properties where
  anchor : Option (List Char)
  tag : Option (List Char)
  line : Option Nat

/-- The suffix of a tag with its escapes put out: a percent sign and the number of a character in
two digits of base sixteen. -/
def plainSuffix : List Char → Except Fault (List Char)
  | [] => .ok []
  | '%' :: a :: b :: rest => do return (← escaped [a, b]) :: (← plainSuffix rest)
  | '%' :: rest => do return [← escaped rest]
  | c :: rest => do return c :: (← plainSuffix rest)
where
  /-- The character of a number. -/
  escaped (ds : List Char) : Except Fault Char :=
    match Numeral.readInt? 16 (Text.ofChars ds) with
    | none => .error (.badInteger 16 (Text.ofChars ds))
    | some n => if n < 0 then .error (.escapeRange n) else .ok (Char.ofNat n.toNat)

/-- The name of a tag, with its handle and its escapes put out. -/
def tagName (line : Nat) (name : TagName) : Parsing (List Char) := do
  match name.handle with
  | none => liftM (plainSuffix name.suffix)
  | some handle =>
    match (← get).handles.find? fun h => h.1 == handle with
    | some (_, expansion) => return expansion ++ (← liftM (plainSuffix name.suffix))
    | none => throw (.order line)

/-- An anchor and a tag in either order, if they are next. -/
def properties : Parsing Properties := do
  let first ← peek
  match first.token with
  | .anchor name =>
    let _ ← take
    let second ← peek
    match second.token with
    | .tag tag =>
      let _ ← take
      return ⟨some name, some (← tagName second.line tag), some first.line⟩
    | _ => return ⟨some name, none, some first.line⟩
  | .tag tag =>
    let _ ← take
    let second ← peek
    match second.token with
    | .anchor name =>
      let _ ← take
      return ⟨some name, some (← tagName second.line tag), some second.line⟩
    | _ => return ⟨none, some (← tagName first.line tag), some first.line⟩
  | _ => return ⟨none, none, none⟩

/-- The tag of a collection: the one that is written, or the given one. -/
def collectionTag (tag : Option (List Char)) (otherwise : Tag) : Tag :=
  match tag with
  | none => otherwise
  | some name => if name == ['!'] then otherwise else Tag.ofName name

/-- A scalar with the properties in front of it. -/
def scalarNode (line : Nat) (tag : Option (List Char)) (text : Text) (plain : Bool) :
    Parsing Nat :=
  match tag with
  | none => if plain then plainNode line text else add line .str (.scalar text)
  | some name =>
    if name == ['!'] then plainNode line text else add line (Tag.ofName name) (.scalar text)

/-- The node that an alias stands for. -/
def aliased (line : Nat) (name : List Char) : Parsing Nat := do
  match (← get).anchors.find? fun a => a.1 == name with
  | some (_, n) => return n
  | none => throw (.composition line)

/-! ## Nodes -/

/-- Where a node may stand: in a block or inside brackets, and in a block with items that are not
indented or without. -/
inductive Place where
  | flow
  | block
  | blockOrItems
  deriving DecidableEq

/-- Whether a token leaves out the node in front of it, after the mark of an item. -/
def endsItem : Token → Bool
  | .blockEntry | .blockEnd => true
  | _ => false

/-- Whether a token leaves out the node in front of it, in items that are not indented. -/
def endsLooseItem : Token → Bool
  | .blockEntry | .key | .value | .blockEnd => true
  | _ => false

/-- Whether a token leaves out the key or value in front of it, in a block. -/
def endsBlockPart : Token → Bool
  | .key | .value | .blockEnd => true
  | _ => false

/-- Whether a token leaves out the value in front of it, in a sequence in brackets. -/
def endsSequencePart : Token → Bool
  | .flowEntry | .sequenceEnd => true
  | _ => false

/-- Whether a token leaves out the value in front of it, in a mapping in brackets. -/
def endsMappingPart : Token → Bool
  | .flowEntry | .mappingEnd => true
  | _ => false

mutual

/-- A node. The fuel bounds the tokens that are read. -/
def node : Nat → Place → Parsing Nat
  | 0, _ => do throw (.order (← peek).line)
  | fuel + 1, place => do
    let first ← peek
    match first.token with
    | .alias name =>
      let _ ← take
      aliased first.line name
    | _ =>
      let props ← properties
      let next ← peek
      let line := props.line.getD next.line
      content fuel place line props next

/-- What comes after the properties of a node. -/
def content : Nat → Place → Nat → Properties → Placed → Parsing Nat
  | 0, _, _, _, next => throw (.order next.line)
  | fuel + 1, place, line, props, next => do
    let inBlock := place != .flow
    let sequence (items : Parsing (List Nat)) : Parsing Nat :=
      collection props.anchor line (collectionTag props.tag .seq) (return .sequence (← items))
    let mapping (entries : Parsing (List (Nat × Nat))) : Parsing Nat :=
      collection props.anchor line (collectionTag props.tag .map) (return .mapping (← entries))
    match next.token with
    | .scalar text plain =>
      let _ ← take
      anchored props.anchor (← scalarNode line props.tag text plain)
    | .sequenceStart =>
      let _ ← take
      sequence (flowItems fuel true)
    | .mappingStart =>
      let _ ← take
      mapping (flowEntries fuel true)
    | token =>
      if token == .blockEntry && place == .blockOrItems then
        sequence (looseItems fuel)
      else if token == .blockSequenceStart && inBlock then
        let _ ← take
        sequence (blockItems fuel)
      else if token == .blockMappingStart && inBlock then
        let _ ← take
        mapping (blockEntries fuel)
      else
        match props.tag, props.anchor with
        | none, none => throw (.order next.line)
        | none, some _ => anchored props.anchor (← emptyNode line)
        | some name, _ => anchored props.anchor (← scalarNode line (some name) [] true)

/-- The items of a block. -/
def blockItems : Nat → Parsing (List Nat)
  | 0 => return []
  | fuel + 1 => do
    let mark ← peek
    match mark.token with
    | .blockEntry =>
      let _ ← take
      let next ← peek
      let item ← if endsItem next.token then emptyNode mark.line else node fuel .block
      return item :: (← blockItems fuel)
    | .blockEnd =>
      let _ ← take
      return []
    | _ => throw (.order mark.line)

/-- The items of a block that are not indented below their key. -/
def looseItems : Nat → Parsing (List Nat)
  | 0 => return []
  | fuel + 1 => do
    let mark ← peek
    match mark.token with
    | .blockEntry =>
      let _ ← take
      let next ← peek
      let item ← if endsLooseItem next.token then emptyNode mark.line else node fuel .block
      return item :: (← looseItems fuel)
    | _ => return []

/-- The entries of a block. -/
def blockEntries : Nat → Parsing (List (Nat × Nat))
  | 0 => return []
  | fuel + 1 => do
    let mark ← peek
    match mark.token with
    | .key =>
      let _ ← take
      let next ← peek
      let k ← if endsBlockPart next.token then emptyNode mark.line else node fuel .blockOrItems
      let v ← blockValue fuel
      return (k, v) :: (← blockEntries fuel)
    | .blockEnd =>
      let _ ← take
      return []
    | .value =>
      if (← version).isNew then
        let k ← emptyNode mark.line
        let v ← blockValue fuel
        return (k, v) :: (← blockEntries fuel)
      else throw (.order mark.line)
    | _ => throw (.order mark.line)

/-- The value of an entry of a block. -/
def blockValue : Nat → Parsing Nat
  | 0 => do throw (.order (← peek).line)
  | fuel + 1 => do
    let mark ← peek
    match mark.token with
    | .value =>
      let _ ← take
      let next ← peek
      if endsBlockPart next.token then emptyNode next.line else node fuel .blockOrItems
    | _ => emptyNode mark.line

/-- The items of a sequence in brackets; an entry among them is a mapping of its own. -/
def flowItems : Nat → Bool → Parsing (List Nat)
  | 0, _ => return []
  | fuel + 1, isFirst => do
    let mark ← peek
    match mark.token with
    | .sequenceEnd =>
      let _ ← take
      return []
    | token =>
      if !isFirst then
        if token == .flowEntry then
          let _ ← take
        else throw (.order mark.line)
      let next ← peek
      match next.token with
      | .sequenceEnd =>
        let _ ← take
        return []
      | .key =>
        let _ ← take
        let after ← peek
        let k ←
          if after.token == .value || endsSequencePart after.token then emptyNode next.line
          else node fuel .flow
        let v ← flowValue fuel endsSequencePart
        let item ← add next.line .map (.mapping [(k, v)])
        return item :: (← flowItems fuel false)
      | _ =>
        let item ← node fuel .flow
        return item :: (← flowItems fuel false)

/-- The value of an entry in brackets. -/
def flowValue : Nat → (Token → Bool) → Parsing Nat
  | 0, _ => do throw (.order (← peek).line)
  | fuel + 1, ends => do
    let mark ← peek
    match mark.token with
    | .value =>
      let _ ← take
      let next ← peek
      if ends next.token then emptyNode mark.line else node fuel .flow
    | _ => emptyNode mark.line

/-- The entries of a mapping in brackets; a node alone is a key. -/
def flowEntries : Nat → Bool → Parsing (List (Nat × Nat))
  | 0, _ => return []
  | fuel + 1, isFirst => do
    let mark ← peek
    match mark.token with
    | .mappingEnd =>
      let _ ← take
      return []
    | token =>
      if !isFirst then
        if token == .flowEntry then
          let _ ← take
        else throw (.order mark.line)
      let next ← peek
      match next.token with
      | .mappingEnd =>
        let _ ← take
        return []
      | .key =>
        let _ ← take
        let after ← peek
        let k ←
          if after.token == .value || endsMappingPart after.token then emptyNode next.line
          else node fuel .flow
        let v ← flowValue fuel endsMappingPart
        return (k, v) :: (← flowEntries fuel false)
      | token =>
        if token == .value && (← version).isNew then
          let k ← emptyNode next.line
          let v ← flowValue fuel endsMappingPart
          return (k, v) :: (← flowEntries fuel false)
        else
          let k ← node fuel .flow
          let v ← emptyNode (← peek).line
          return (k, v) :: (← flowEntries fuel false)

end

/-! ## Documents -/

/-- Whether the scalars of a version are known. -/
def isSupported (v : Version) : Bool := v == Version.default || v == Version.old

/-- The directives that are next: the handles they declare, after those seen already. A version that
is named has to be known. -/
def directives : Nat → Option Version → List (List Char × List Char) →
    Parsing (List (List Char × List Char))
  | 0, _, handles => return handles
  | fuel + 1, named, handles => do
    let next ← peek
    match next.token with
    | .directive d =>
      let _ ← take
      match d with
      | .version v =>
        if named.isSome || v.major != 1 then throw (.order next.line)
        else directives fuel (some v) handles
      | .tag handle expansion =>
        if handles.any fun h => h.1 == handle then throw (.order next.line)
        else directives fuel named (handles ++ [(handle, expansion)])
      | .other => directives fuel named handles
    | _ =>
      match named with
      | some v => if isSupported v then return handles else throw (.unsupportedVersion 1 v.minor)
      | none => return handles

/-- The start of a document after its directives, with the line it is on; none at the end of the
text. -/
def explicitStart (fuel : Nat) : Parsing (Option Nat) := do
  if (← peek).token == .streamEnd then return none
  else
    let handles ← directives fuel none []
    modify fun t =>
      { t with handles :=
          handles ++ defaultHandles.filter fun d => !handles.any fun h => h.1 == d.1 }
    let next ← peek
    if next.token == .documentStart then
      let _ ← take
      return some next.line
    else throw (.order next.line)

/-- The source past marks of ends of documents. -/
def skipEnds : Nat → Parsing Unit
  | 0 => return ()
  | fuel + 1 => do
    if (← peek).token == .documentEnd then
      let _ ← take
      skipEnds fuel

/-- Whether a token stands where the start of a document must be written. -/
def needsStart : Token → Bool
  | .directive _ | .documentStart | .streamEnd => true
  | _ => false

/-- What follows a document: the end of the text, or a fault. A mark of its end may come first; a
document may then follow without a mark of its start. -/
def ending (fuel : Nat) : Parsing Unit := do
  let next ← peek
  let marked := next.token == .documentEnd
  if marked then
    let _ ← take
    let after ← peek
    if after.token != .streamEnd && after.line == next.line then throw (.order after.line)
  let after ← peek
  if marked && (← version) != Version.old && !needsStart after.token then
    throw (.composition after.line)
  else
    skipEnds fuel
    match ← explicitStart fuel with
    | some line => throw (.composition line)
    | none => return ()

/-- The root of the one document of a text, if it has any. -/
def document (fuel : Nat) : Parsing (Option Nat) := do
  let first ← peek
  if !needsStart first.token then
    let n ← node fuel .block
    ending fuel
    return some n
  else
    match ← explicitStart fuel with
    | none => return none
    | some _ =>
      let next ← peek
      let n ←
        if needsStart next.token || next.token == .documentEnd then emptyNode next.line
        else node fuel .block
      ending fuel
      return some n

end Tokens

end AgentFlow.Yaml
