import AgentFlow.Yaml.Draft
import AgentFlow.Yaml.Merge
import AgentFlow.Yaml.Scalar

/-!
# The values of nodes

The value of a text is built in rounds: first the root, then the items of the collections met in
the round before. Keys are built whole on the spot. A node is built once, at the first place where
its number is met, so an alias to a list is a key with what that list holds by then, and an alias to
a key inside of that key is null; and the first fault of the earliest round is the fault of the
text.

* `Building.make`: the draft of a node.
* `Nodes.document`: what is spelled by a node with all below it.
-/

namespace AgentFlow.Yaml

/-- What has been built of a text. -/
structure Build where
  nodes : Nodes
  /-- The drafts of the nodes met so far. -/
  made : Array (Option Draft)
  cells : Cells
  /-- The collections to be filled in the next round: their cells and their nodes. -/
  waiting : List (Nat × Nat)

/-- A step of building a value. -/
abbrev Building (α : Type) := StateT Build (Except Fault) α

namespace Building

/-- The node of a number. -/
def node (n : Nat) : Building Node := do return (← get).nodes.get n

/-- The cell of a number, changed. -/
def change (c : Nat) (f : Cell → Cell) : Building Unit :=
  modify fun b => { b with cells := b.cells.setIfInBounds c (f (b.cells.get c)) }

/-- The kind of the collections of a tag. -/
def cellKind? : Tag → Option CellKind
  | .seq => some .list
  | .pairs => some .list
  | .map => some .map
  | .orderedMap => some .orderedMap
  | .set => some .set
  | _ => none

/-! ## Scalars -/

/-- A value that a scalar spells, as that of one node: a value that is no number differs from every
other one, but where all are spelled with a point. -/
def ownValue (n : Nat) (t : Text) (v : Value) : Value :=
  match v with
  | .float x => if x.isNaN && !spellsNaN t then .float (Double.nanOf (n + 1)) else v
  | v => v

/-- The value of a node that is read as a scalar. A timestamp has to be one itself. -/
def scalar (isOld : Bool) (n : Nat) : Building Value := do
  let b ← get
  let node := b.nodes.get n
  if node.tag.isUnread then throw (.meaning node.line)
  match node.tag, node.content with
  | .timestamp, .sequence _ => throw (.meaning node.line)
  | .timestamp, .mapping _ => throw (.meaning node.line)
  | tag, _ =>
    let t ← liftM (b.nodes.scalarText (b.nodes.size + 1) n)
    return ownValue n t (← liftM (scalarValue isOld node.line tag t))

/-! ## Collections -/

/-- The one entry of a node that is a mapping with one. -/
def onlyEntry (n : Nat) : Building (Nat × Nat) := do
  let node ← node n
  match node.content with
  | .mapping [e] => return e
  | _ => throw (.meaning node.line)

/-- What is said of an entry whose key a mapping has already: the key, the value, and the value that
is there. -/
def repetition (key value old : Value) : Text :=
  "\"" ++ key.shown ++ "\" with value \"" ++ value.shown ++ "\" (original value: \"" ++ old.shown
    ++ "\")"

/-- What is wrong with a key that a mapping has already. An integer among what would be shown of the
entry may be too long for that. -/
def repeated (line : Nat) (key value old : Value) : Fault :=
  if [key, value, old].all Value.isShowable then .duplicateKey ⟨line, repetition key value old⟩
  else .unshowable

/-- The entries of a mapping, after those that are there already. The keys are made whole, the
values as `make` does. -/
def makeEntries (make : Bool → Nat → Building Draft) (deep checked : Bool)
    (es : List (Value × Draft)) : List (Nat × Nat) → Building (List (Value × Draft))
  | [] => return es
  | (k, v) :: rest => do
    let line := (← node k).line
    let kd ← make true k
    let key ← liftM (kd.key (← get).cells line)
    let vd ← make deep v
    let key ← liftM key
    match es.find? fun e => e.1.sameKey key with
    | some e =>
      let cells := (← get).cells
      if checked then throw (repeated line key (vd.trimmed cells) (e.2.trimmed cells))
    | none => pure ()
    makeEntries make deep checked (putEntry es key vd) rest

/-- The mapping of a node put into a cell, after its merge keys have been worked out. The cell stays
empty until all entries have been made. -/
def fillMapping (make : Bool → Nat → Building Draft) (deep : Bool) (c n : Nat) :
    Building Unit := do
  let b ← get
  match (b.nodes.get n).content with
  | .mapping _ =>
    let nodes ← liftM (b.nodes.merge (b.nodes.entryCount + 1) n)
    set { b with nodes := nodes }
    let es ← makeEntries make deep (!(nodes.get n).merged) [] (nodes.entriesOf n)
    change c fun cell => { cell with entries := es }
  | _ => throw (.meaning (b.nodes.get n).line)

/-- The drafts of nodes one by one. -/
def makeAll (make : Nat → Building Draft) : List Nat → Building (List Draft)
  | [] => return []
  | n :: rest => do
    let d ← make n
    return d :: (← makeAll make rest)

/-- The entries of mappings of one entry each put into the cell of an ordered mapping. -/
def fillOrdered (make : Nat → Building Draft) (c : Nat) : List Nat → Building Unit
  | [] => return ()
  | n :: rest => do
    let (k, v) ← onlyEntry n
    let kd ← make k
    let key ← liftM (kd.fixed (← get).cells)
    if ((← get).cells.get c).entries.any fun e => e.1.sameKey key then throw .repeatedKey
    let vd ← make v
    change c fun cell => { cell with entries := putEntry cell.entries key vd }
    fillOrdered make c rest

/-- The pairs of mappings of one entry each. -/
def makePairs (make : Nat → Building Draft) : List Nat → Building (List Draft)
  | [] => return []
  | n :: rest => do
    let (k, v) ← onlyEntry n
    let kd ← make k
    let vd ← make v
    return .pair kd vd :: (← makePairs make rest)

/-- The items of a node that is a sequence. -/
def itemsOf (n : Nat) : Building (List Nat) := do
  let node ← node n
  match node.content with
  | .sequence items => return items
  | _ => throw (.meaning node.line)

/-- A cell filled from the collection of a node. -/
def fill (make : Bool → Nat → Building Draft) (deep : Bool) (c n : Nat) : Building Unit := do
  match (← node n).tag with
  | .orderedMap => fillOrdered (make deep) c (← itemsOf n)
  | .pairs =>
    let items ← makePairs (make deep) (← itemsOf n)
    change c fun cell => { cell with items := items }
  | .seq =>
    let items ← makeAll (make deep) (← itemsOf n)
    change c fun cell => { cell with items := items }
  | _ => fillMapping make deep c n

/-! ## Nodes -/

/-- A new cell. -/
def newCell (kind : CellKind) : Building Nat := do
  let c := (← get).cells.size
  modify fun b => { b with cells := b.cells.push ⟨kind, [], []⟩ }
  return c

/-- The draft of a node that has not been met before: a scalar at once, a collection as a cell,
which is filled at once if the value is needed whole. -/
def makeNew (make : Bool → Nat → Building Draft) (isOld deep : Bool) (n : Nat) :
    Building Draft := do
  match cellKind? (← node n).tag with
  | none => return .whole (← scalar isOld n)
  | some kind =>
    let c ← newCell kind
    if deep then fill make true c n
    else modify fun b => { b with waiting := b.waiting ++ [(c, n)] }
    return .cell c

/-- The draft of a node; as many nodes inside each other are followed as given. While a node is
being made, null stands for it. -/
def make (isOld : Bool) : Nat → Bool → Nat → Building Draft
  | 0, _, n => do throw (.meaning (← node n).line)
  | fuel + 1, deep, n => do
    match (← get).made.getD n none with
    | some d => return d
    | none =>
      noteMade n (.whole .null)
      let d ← makeNew (make isOld fuel) isOld deep n
      noteMade n d
      return d
where
  /-- What stands for a node from now on. -/
  noteMade (n : Nat) (d : Draft) : Building Unit :=
    modify fun b => { b with made := b.made.setIfInBounds n (some d) }

/-- Some collections filled. -/
def fillAll (make : Bool → Nat → Building Draft) : List (Nat × Nat) → Building Unit
  | [] => return ()
  | (c, n) :: rest => do
    fill make false c n
    fillAll make rest

/-- The rounds in which collections are filled; as many as given. -/
def rounds (make : Bool → Nat → Building Draft) : Nat → Building Unit
  | 0 => return ()
  | fuel + 1 => do
    let b ← get
    if b.waiting.isEmpty then return ()
    set { b with waiting := [] }
    fillAll make b.waiting
    rounds make fuel

/-- What is spelled by a node with all below it. -/
def whole (isOld : Bool) (root : Nat) : Building Document := do
  let size := (← get).nodes.size
  let d ← make isOld (size + 1) false root
  rounds (make isOld (size + 1)) (size + 1)
  return ⟨(← get).cells, d⟩

end Building

/-- What is spelled by a node, or the first fault in building it. -/
def Nodes.document (isOld : Bool) (nodes : Nodes) (root : Nat) : Except Fault Document :=
  ((Building.whole isOld root).run ⟨nodes, Array.replicate nodes.size none, #[], []⟩).map (·.1)

example : (Nodes.document false #[⟨0, .int, .scalar "7", false⟩] 0).map Document.value?
    = .ok (some (.int 7)) := by rfl

end AgentFlow.Yaml
