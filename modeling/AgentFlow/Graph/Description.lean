import AgentFlow.Value.Basic

/-!
# Graphs

A graph is a row of named nodes. A node may declare an agent that computes it, inputs, an update
and a graph of its own; what else a document says about it is kept as it is. The kind of a node
follows from what it declares.
-/

namespace AgentFlow

mutual

/-- A graph: its nodes by id, and the other members of its document. -/
inductive Graph where
  | mk (nodes : List (Text × Node)) (extra : Entries)

/-- A node: what it declares as agent, inputs, update and graph, and its other members. -/
inductive Node where
  | mk (agent inputs update : Option Value) (graph : Embedding) (extra : Entries)

/-- The graph of a node: none declared, one that is named, one that is given, or a declaration
that is neither. -/
inductive Embedding where
  | absent
  | reference (name : Text)
  | graph (g : Graph)
  | unusable

end

/-- How a node is drawn. -/
inductive NodeKind where
  | static
  | computed
  | nested
  deriving DecidableEq

namespace Graph

def nodes : Graph → List (Text × Node)
  | .mk ns _ => ns

def extra : Graph → Entries
  | .mk _ es => es

/-- The graph without nodes. -/
def empty : Graph := .mk [] []

instance : Inhabited Graph := ⟨empty⟩

end Graph

namespace Embedding

/-- Whether a graph is declared, be it usable or not. -/
def isDeclared : Embedding → Bool
  | .absent => false
  | _ => true

/-- The graph that is given. -/
def graph? : Embedding → Option Graph
  | .graph g => some g
  | _ => none

/-- The name of the graph that is referred to. -/
def reference? : Embedding → Option Text
  | .reference name => some name
  | _ => none

end Embedding

namespace Node

def agent? : Node → Option Value
  | .mk a _ _ _ _ => a

def inputs? : Node → Option Value
  | .mk _ i _ _ _ => i

def update? : Node → Option Value
  | .mk _ _ u _ _ => u

def embedding : Node → Embedding
  | .mk _ _ _ g _ => g

def extra : Node → Entries
  | .mk _ _ _ _ es => es

/-- A declared graph makes a node nested, else an agent makes it computed. -/
def kind (n : Node) : NodeKind :=
  if n.embedding.isDeclared then .nested
  else if n.agent?.isSome then .computed
  else .static

/-- What is not nested embeds nothing. -/
theorem embedding_of_not_nested {n : Node} (h : n.kind ≠ .nested) : n.embedding = .absent := by
  rw [kind] at h
  cases hn : n.embedding with
  | absent => rfl
  | _ => exact absurd (by rw [hn]; rfl) h

/-- The value that holds the references a node depends on: the name of its graph, its inputs, or
the update of a static node. -/
def dependencies (n : Node) : Value :=
  match n.kind with
  | .nested =>
    match n.embedding with
    | .reference name => .str name
    | _ => n.inputs?.getD .null
  | .computed => n.inputs?.getD .null
  | .static =>
    match n.update? with
    | some u => .map [(.str "update", u)]
    | none => .null

end Node

end AgentFlow
