import AgentFlow.Graph.Check
import AgentFlow.Graph.Reference
import AgentFlow.Graph.Scope

/-!
# Flowchart fragments

The flowchart of a graph is put together from the fragments of its nodes: the lines that draw a
node, and the group its id belongs to. An embedded graph is drawn as a block inside its node.

* `Graph.fragment`: the fragment of a graph inside a scope.
* `Fragment.classLines`: the lines that give each group its style.
-/

namespace AgentFlow

/-- Lines of a flowchart, and the ids of the nodes they draw by kind. -/
structure Fragment where
  lines : List Text := []
  static : List Text := []
  computed : List Text := []
  nested : List Text := []
  deriving DecidableEq

namespace Fragment

/-- Two fragments one after the other. -/
def append (a b : Fragment) : Fragment where
  lines := a.lines ++ b.lines
  static := a.static ++ b.static
  computed := a.computed ++ b.computed
  nested := a.nested ++ b.nested

instance : Append Fragment := ⟨append⟩

/-- The fragment that draws nothing. -/
def empty : Fragment where
  lines := []
  static := []
  computed := []
  nested := []

@[simp] theorem lines_append (a b : Fragment) : (a ++ b).lines = a.lines ++ b.lines := rfl

@[simp] theorem static_append (a b : Fragment) : (a ++ b).static = a.static ++ b.static := rfl

@[simp] theorem computed_append (a b : Fragment) : (a ++ b).computed = a.computed ++ b.computed :=
  rfl

@[simp] theorem nested_append (a b : Fragment) : (a ++ b).nested = a.nested ++ b.nested := rfl

/-- The line that gives a group of nodes its style. -/
def classLine (ids : List Text) (name : Text) : List Text :=
  if ids.isEmpty then [] else ["class " ++ Text.join "," ids ++ " " ++ name]

/-- The lines that give the groups their styles; a group without nodes has none. -/
def classLines (f : Fragment) : List Text :=
  classLine f.static "staticNode" ++ classLine f.computed "computedNode"
    ++ classLine f.nested "nestedGraph"

end Fragment

/-- The label of an agent; a missing agent has an empty one. -/
def agentLabel (agent : Value) : Text :=
  let name : Text :=
    match agent with
    | .null => []
    | v => v.shown
  "<span class=\"agent-name\">" ++ name ++ "</span>"

/-- The edges from the nodes that a value refers to, one line each. A path is the label of its
edge, and a reference without a node id draws none. -/
def edges (dependencies : Value) (target scope : Text) : List Text :=
  (DataSource.inside dependencies).filterMap fun source =>
    match source with
    | .literal _ => none
    | .node id path =>
      if id.isEmpty then none
      else
        let label : Text :=
          if path.isEmpty then " --> " else " -- " ++ Text.join "." path ++ " --> "
        some (Scope.indent scope ++ Scope.qualify scope id ++ label ++ target)

mutual

/-- The fragment of a graph: those of its nodes in order. -/
def Graph.fragment (scope : Text) : Graph → Fragment
  | .mk nodes _ => nodesFragment scope nodes

/-- The fragments of nodes one after the other. -/
def nodesFragment (scope : Text) : List (Text × Node) → Fragment
  | [] => Fragment.empty
  | (id, node) :: rest => Node.fragment scope id node ++ nodesFragment scope rest

/-- The fragment of a node. A nested node opens a block after its edges; other nodes are declared
before their edges. -/
def Node.fragment (scope id : Text) : Node → Fragment
  | .mk agent inputs update graph extra =>
    let node := Node.mk agent inputs update graph extra
    let qualified := Scope.qualify scope id
    let indent := Scope.indent scope
    let arrows := edges node.dependencies qualified scope
    let label := agentLabel (agent.getD .null)
    match node.kind with
    | .nested =>
      { lines := arrows ++ [indent ++ "subgraph " ++ qualified ++ "[" ++ id ++ ": " ++ label ++ "]"]
        nested := [qualified] }
        ++ Embedding.fragment (Scope.child qualified) graph
        ++ { lines := [indent ++ "end"] }
    | .computed =>
      { lines := (indent ++ qualified ++ "(" ++ id ++ "<br/>" ++ label ++ ")") :: arrows
        computed := [qualified] }
    | .static =>
      { lines := (indent ++ qualified ++ "(" ++ id ++ ")") :: arrows
        static := [qualified] }

/-- The fragment of what a node embeds. -/
def Embedding.fragment (scope : Text) : Embedding → Fragment
  | .graph g => Graph.fragment scope g
  | .absent => Fragment.empty
  | .reference _ => Fragment.empty
  | .unusable => Fragment.empty

end

/-- The flowchart of a graph. -/
def Graph.flowchart (g : Graph) : Text :=
  let f := g.fragment []
  let header : Text := "flowchart TD"
  Text.join "\n" (header :: f.lines ++ f.classLines)

end AgentFlow
