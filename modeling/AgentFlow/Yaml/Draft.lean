import AgentFlow.Value.Display
import AgentFlow.Yaml.Error

/-!
# Drafts of values

While the value of a text is built, a collection is a cell that is made empty and filled later;
wherever the collection stands, its number stands. A draft is what is known of a value so far. A
collection may come to stand inside itself, and then it has no value: there is no end to it.

* `Draft.key`: a draft as the key of a mapping, with what its cell holds at that time.
* `Draft.value?`: the value of a draft, if it ends.
* `Draft.literal?`: how a draft is shown, be there an end to it or not.
* `Draft.trimmed`: the value of a draft, or else one that is shown alike.
-/

namespace AgentFlow.Yaml

/-- What is known of a value: all of it, the number of its cell, or that it is a pair. -/
inductive Draft where
  | whole (v : Value)
  | cell (n : Nat)
  | pair (k v : Draft)
  deriving Inhabited

/-- The kinds of collections. -/
inductive CellKind where
  | list
  | map
  | orderedMap
  | set
  deriving DecidableEq, Inhabited

/-- A collection that is being filled: its items, or its entries. The items of a set are the keys
of its entries. -/
structure Cell where
  kind : CellKind
  items : List Draft
  entries : List (Value × Draft)
  deriving Inhabited

/-- The collections of a text by their numbers. -/
abbrev Cells := Array Cell

/-- The cell of a number. -/
def Cells.get (cells : Cells) (n : Nat) : Cell := cells.getD n default

/-- The name of a kind of collections. -/
def CellKind.name : CellKind → Text
  | .list => "list"
  | .map => "dict"
  | .orderedMap => "ordereddict"
  | .set => "set"

/-- Entries with a value put at a key: in place of the value there, or else at the end. -/
def putEntry {α : Type} : List (Value × α) → Value → α → List (Value × α)
  | [], k, a => [(k, a)]
  | e :: es, k, a => if e.1.sameKey k then (e.1, a) :: es else e :: putEntry es k a

namespace Draft

/-- A draft as part of a key: a collection in it may still change. -/
def fixed (cells : Cells) : Draft → Except Fault Value
  | .whole v => .ok v
  | .cell n => .error (.unhashable (cells.get n).kind.name)
  | .pair k v => do
    let k ← fixed cells k
    let v ← fixed cells v
    .ok (.tuple [k, v])

/-- A draft as a key on a line. A list becomes the tuple of what it holds by now, whose items may
be at fault later; no other collection can be a key. -/
def key (cells : Cells) (line : Nat) (d : Draft) : Except Fault (Except Fault Value) :=
  match d with
  | .cell n =>
    let c := cells.get n
    if c.kind = .list then .ok ((c.items.mapM (fixed cells)).map .tuple)
    else .error (.meaning line)
  | d => .ok (fixed cells d)

/-! ## Values -/

/-- The value of a draft, if it ends within as many steps from collections to parts as given. -/
def valueWithin? (cells : Cells) : Nat → Draft → Option Value
  | _, .whole v => some v
  | 0, _ => none
  | fuel + 1, .pair k v => do
    let k ← valueWithin? cells fuel k
    let v ← valueWithin? cells fuel v
    return .tuple [k, v]
  | fuel + 1, .cell n =>
    let c := cells.get n
    let valued (e : Value × Draft) : Option (Value × Value) :=
      (valueWithin? cells fuel e.2).map fun v => (e.1, v)
    match c.kind with
    | .list => (c.items.mapM (valueWithin? cells fuel)).map .list
    | .map => (c.entries.mapM valued).map .map
    | .orderedMap => (c.entries.mapM valued).map .orderedMap
    | .set => some (.set (c.entries.map (·.1)))

/-- More steps than these only lie between a draft and its parts where a collection stands in
itself: there are two steps at most from one collection to the next. -/
def steps (cells : Cells) : Nat := 2 * cells.size + 2

/-- The value of a draft, if there is an end to it. -/
def value? (cells : Cells) (d : Draft) : Option Value := d.valueWithin? cells (steps cells)

/-! ## Display -/

/-- What is shown of a collection inside itself. -/
def markOf : CellKind → Text
  | .list => "[...]"
  | .map => "\x7b...\x7d"
  | .orderedMap => "..."
  | .set => "set(...)"

/-- The text of a value inside another, if it can be shown. -/
def literalOf? (v : Value) : Option Text := if v.isShowable then some v.literal else none

/-- The text of a draft inside the collections of the given numbers, if it can be shown. As many
steps from a collection to its parts are taken as given. -/
def literalWithin? (cells : Cells) : Nat → List Nat → Draft → Option Text
  | _, _, .whole v => literalOf? v
  | 0, _, _ => none
  | fuel + 1, around, .pair k v => do
    let k ← literalWithin? cells fuel around k
    let v ← literalWithin? cells fuel around v
    return "(" ++ k ++ ", " ++ v ++ ")"
  | fuel + 1, around, .cell n =>
    let c := cells.get n
    let part := literalWithin? cells fuel (n :: around)
    let entry (left middle right : Text) (e : Value × Draft) : Option Text := do
      let k ← literalOf? e.1
      let v ← part e.2
      return left ++ k ++ middle ++ v ++ right
    if around.contains n then some (markOf c.kind)
    else
      match c.kind with
      | .list => do return "[" ++ Text.join ", " (← c.items.mapM part) ++ "]"
      | .map => do
        return "\x7b" ++ Text.join ", " (← c.entries.mapM (entry [] ": " [])) ++ "\x7d"
      | .orderedMap => do
        let es ← c.entries.mapM (entry "(" ", " ")")
        return if es.isEmpty then "ordereddict()" else "ordereddict([" ++ Text.join ", " es ++ "])"
      | .set => literalOf? (.set (c.entries.map (·.1)))

/-- The text of a draft inside another, if it can be shown. -/
def literal? (cells : Cells) (d : Draft) : Option Text := d.literalWithin? cells (steps cells) []

/-- The value of a draft. One without an end gives way to its text, or to an integer that is too
long to be shown if there is one in it. -/
def trimmed (cells : Cells) (d : Draft) : Value :=
  match d.value? cells, d.literal? cells with
  | some v, _ => v
  | none, some t => .str t
  | none, none => .int Value.unshowableFrom

theorem trimmed_of_value? {cells : Cells} {d : Draft} {v : Value} (h : d.value? cells = some v) :
    d.trimmed cells = v := by
  rw [trimmed, h]

end Draft

/-- What a text spells: the collections in it, and the draft of the whole. -/
structure Document where
  cells : Cells
  root : Draft

/-- The value of a document, if there is an end to it. -/
def Document.value? (d : Document) : Option Value := d.root.value? d.cells

end AgentFlow.Yaml
