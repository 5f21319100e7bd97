import AgentFlow.Json.Writer
import AgentFlow.Script.Conversion
import AgentFlow.Script.Locate
import AgentFlow.Script.Parse
import AgentFlow.Script.Position

/-!
# Object literals of a script

The object literal at a cursor as a value, and the graph around a cursor as JSON text. The search
for a graph starts with the innermost literal and widens until a literal looks like a graph.
-/

namespace AgentFlow.Script

/-- The members that make a mapping look like a graph. -/
def graphKeys : List Text := ["nodes", "version", "edges"]

/-- Whether a value is a mapping with an agent or a value. -/
def looksLikeNode (v : Value) : Bool :=
  match v.entries? with
  | some es => es.hasName "agent" || es.hasName "value"
  | none => false

/-- Whether a value looks like a graph: a mapping with nodes, a version or edges. -/
def looksLikeGraph (v : Value) : Bool :=
  match v.entries? with
  | none => false
  | some es =>
    let nodes := ((es.field? "nodes").bind Value.entries?).getD []
    nodes.any (fun e => looksLikeNode e.2) || graphKeys.any fun k => es.hasName k

/-- The value of a node of a script, with the names in it followed. -/
def value (s : Script) (t : Tree) : Except EscapeError Value := convert (some s.root) [] t

/-- The innermost object literal at a position. -/
def objectAt? (s : Script) (p : Position) : Option Tree :=
  s.root.innermostObject? (p.offset s.chars)

/-- The object literals around a position, innermost first. -/
def objectsAround (s : Script) (p : Position) : List Tree :=
  s.root.enclosingObjects (p.offset s.chars)

/-- The value of the object literal at a position, if there is one. -/
def valueAt (s : Script) (p : Position) : Except EscapeError (Option Value) :=
  match s.objectAt? p with
  | none => .ok none
  | some t => do
    let v ← s.value t
    .ok (some v)

/-- The value of the first of some nodes that looks like a graph. -/
def firstGraph (s : Script) : List Tree → Except EscapeError (Option Value)
  | [] => .ok none
  | t :: ts => do
    let v ← s.value t
    if looksLikeGraph v then .ok (some v) else firstGraph s ts

/-- The JSON text of the graph around a position. There is none either where a literal cannot be
converted or the graph cannot be written. -/
def graphAt? (s : Script) (p : Position) : Option Text :=
  match s.firstGraph (s.objectsAround p) with
  | .ok (some v) => Json.write? (.indented 2) v
  | _ => none

end AgentFlow.Script
