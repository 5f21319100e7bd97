import AgentFlow.Graph.Check
import AgentFlow.Yaml.Draft

/-!
# Graphs in documents without an end

A collection of a YAML text may hold itself. A graph is read from such a document all the same, as
long as no graph is embedded in itself: most of a document is only kept, and an agent is only shown.
But where references are looked for, all that a collection holds is followed.

* `Yaml.Document.graphValue`: the value that a graph is read from.
* `Yaml.Document.isEndless`: whether the search for references comes to no end while the graph of a
  document is drawn.
-/

namespace AgentFlow

namespace Yaml

/-- What a part of a document is to the graph that is read from it. -/
inductive Role where
  | graph
  | nodes
  | node
  | other
  deriving DecidableEq

/-- The role of what a mapping with a role holds under a key. -/
def Role.below : Role → Value → Role
  | .graph, k => if k.sameKey (.str "nodes") then .nodes else .other
  | .nodes, _ => .node
  | .node, k => if k.sameKey (.str "graph") then .graph else .other
  | .other, _ => .other

/-! ## What a graph is read from -/

/-- The value of a draft as far as a graph is read from it, inside the graphs of the given numbers;
`knot` stands for a graph that is embedded in itself. As many steps are taken as given. -/
def Draft.unfolded? (cells : Cells) (knot : Option Value) :
    Nat → List Nat → Role → Draft → Option Value
  | fuel + 1, around, role, .cell n =>
    let c := cells.get n
    if role = .other ∨ (c.kind ≠ .map ∧ c.kind ≠ .orderedMap) then
      some ((Draft.cell n).trimmed cells)
    else if role = .graph ∧ around.contains n then knot
    else
      let around := if role = .graph then n :: around else around
      let entries := c.entries.mapM fun e =>
        (unfolded? cells knot fuel around (role.below e.1) e.2).map fun v => (e.1, v)
      entries.map fun es => if c.kind = .map then .map es else .orderedMap es
  | _, _, _, d => some (d.trimmed cells)

namespace Document

/-- The value of a document as far as a graph is read from it. From one graph to the next there are
three steps, so that those taken are enough to find a graph that is embedded in itself. -/
def unfolded? (d : Document) (knot : Option Value) : Option Value :=
  d.root.unfolded? d.cells knot (3 * d.cells.size + 4) [] .graph

/-- A mapping with one problem, as a graph that is embedded in itself has one. -/
def knot : Value := .map [(.null, .null)]

/-- The value that a graph is read from. A graph that is embedded in itself does no harm in a node
that gives way to another one of its id. -/
def graphValue (d : Document) : Except Fault Value :=
  match d.value?, d.unfolded? none with
  | some v, _ => .ok v
  | none, some v => .ok v
  | none, none =>
    let v := (d.unfolded? (some knot)).getD .null
    let problems := Graph.problems v
    if problems.isEmpty then .ok v else .error (.selfEmbedded problems.length)

theorem graphValue_of_value? {d : Document} {v : Value} (h : d.value? = some v) :
    d.graphValue = .ok v := by
  rw [graphValue, h]

end Document

/-! ## Drawing -/

/-- Why the drawing of a graph breaks off. -/
inductive Halt where
  /-- An agent cannot be shown. -/
  | unshowable
  /-- References are looked for in what holds itself. -/
  | endless
  deriving DecidableEq

namespace Draft

/-- Whether a draft has no end for one who follows lists and mappings; as many of them in a row are
followed as given. -/
def isEndlessWithin (cells : Cells) : Nat → Draft → Bool
  | _, .whole _ => false
  | _, .pair _ _ => false
  | 0, .cell _ => true
  | fuel + 1, .cell n =>
    let c := cells.get n
    match c.kind with
    | .list => c.items.any (isEndlessWithin cells fuel)
    | .set => false
    | _ => c.entries.any fun e => isEndlessWithin cells fuel e.2

/-- Whether the search for references in a draft comes to no end. -/
def isEndless (cells : Cells) (d : Draft) : Bool := d.isEndlessWithin cells (cells.size + 1)

/-- The entries of a draft that is a mapping. -/
def entries (cells : Cells) : Draft → List (Value × Draft)
  | .cell n => if (cells.get n).kind = .set then [] else (cells.get n).entries
  | _ => []

/-- The draft at a key that is a text. -/
def member? (cells : Cells) (d : Draft) (name : Text) : Option Draft :=
  ((d.entries cells).find? fun e => e.1.sameKey (.str name)).map (·.2)

/-- What the drawing of an agent breaks off for. -/
def labelHalts (cells : Cells) (agent : Option Draft) : List Halt :=
  if agent.all fun d => (d.trimmed cells).isShowable then [] else [.unshowable]

/-- What the drawing of edges breaks off for. -/
def edgeHalts (cells : Cells) (dependencies : Option Draft) : List Halt :=
  if dependencies.any (isEndless cells) then [.endless] else []

mutual

/-- What the drawing of a graph breaks off for, in the order of drawing; as many steps into the
document are taken as given. -/
def graphHalts (cells : Cells) : Nat → Draft → List Halt
  | 0, _ => []
  | fuel + 1, d =>
    let nodes := ((d.member? cells "nodes").map (entries cells)).getD []
    (collapse (nodes.map fun e => (e.1.shown, nodeHalts cells fuel e.2))).flatMap (·.2)

/-- What the drawing of a node breaks off for. A nested node is drawn after its graph, and has no
inputs if it names that graph. -/
def nodeHalts (cells : Cells) : Nat → Draft → List Halt
  | 0, _ => []
  | fuel + 1, d =>
    let label := labelHalts cells (d.member? cells "agent")
    let inputs := edgeHalts cells (d.member? cells "inputs")
    match d.member? cells "graph", d.member? cells "agent" with
    | some (.whole (.str _)), _ => label
    | some g, _ => graphHalts cells fuel g ++ label ++ inputs
    | none, some _ => label ++ inputs
    | none, none => edgeHalts cells (d.member? cells "update")

end

end Draft

/-- Whether the drawing of a document comes to no end: the first thing that it breaks off for is a
search for references in what holds itself. -/
def Document.isEndless (d : Document) : Bool :=
  d.value?.isNone && (d.root.graphHalts d.cells (3 * d.cells.size + 4)).head? == some .endless

theorem Document.isEndless_of_value? {d : Document} {v : Value} (h : d.value? = some v) :
    d.isEndless = false := by
  rw [isEndless, h]
  rfl

end Yaml

end AgentFlow
