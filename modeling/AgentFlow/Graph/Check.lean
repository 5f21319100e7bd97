import AgentFlow.Graph.Description
import AgentFlow.Problem
import AgentFlow.Value.Display

/-!
# Graphs of documents

Every value describes a graph: what is no mapping has no nodes, and a node that is no mapping
declares nothing. The one thing a document can get wrong is a key of a graph or of a node that is
no text, or one with half of a surrogate pair; the ids of nodes are the texts of their keys.

* `Graph.ofValue`: the graph that a value describes.
* `Graph.problems`: the keys of the value that are no proper texts, and ids that cannot be shown.
* `Graph.check`: the graph of a value without problems.
-/

namespace AgentFlow

/-! ## Node ids -/

/-- A row of named things with one more: it takes the place of the one with its name. -/
def putNamed {α : Type} : List (Text × α) → Text → α → List (Text × α)
  | [], k, a => [(k, a)]
  | e :: es, k, a => if e.1 = k then (k, a) :: es else e :: putNamed es k a

/-- A row of named things in which a later one takes the place of an earlier one of its name. -/
def collapse {α : Type} (es : List (Text × α)) : List (Text × α) :=
  es.foldl (fun acc e => putNamed acc e.1 e.2) []

/-! ## Members -/

/-- The members of a mapping under other names than the given ones. -/
def otherMembers (declared : List Text) (es : Entries) : Entries :=
  es.filter fun e =>
    match e.1 with
    | .str t => !declared.contains t
    | _ => false

/-- The member of a graph that holds its nodes. -/
def graphMembers : List Text := ["nodes"]

/-- The members of a node that are part of its description. The kind of a node is never read from
its document. -/
def nodeMembers : List Text := ["kind", "agent", "inputs", "update", "graph"]

/-! ## Descriptions -/

mutual

/-- The graph that a value describes. -/
def Graph.ofValue : Value → Graph
  | .map es => .mk (nodesIn es) (otherMembers graphMembers es)
  | .orderedMap es => .mk (nodesIn es) (otherMembers graphMembers es)
  | _ => .empty

/-- The nodes under the first member `nodes` of a mapping. -/
def nodesIn : List (Value × Value) → List (Text × Node)
  | [] => []
  | (k, v) :: es => if k.sameKey (.str "nodes") then nodesOf v else nodesIn es

/-- The nodes of a mapping from ids to nodes. -/
def nodesOf : Value → List (Text × Node)
  | .map es => collapse (nodeList es)
  | .orderedMap es => collapse (nodeList es)
  | _ => []

/-- The nodes of entries one by one, under the texts of their keys. -/
def nodeList : List (Value × Value) → List (Text × Node)
  | [] => []
  | (k, v) :: es => (k.shown, Node.ofValue v) :: nodeList es

/-- The node that a value describes. -/
def Node.ofValue : Value → Node
  | .map es =>
    .mk (Entries.field? es "agent") (Entries.field? es "inputs") (Entries.field? es "update")
      (embeddingIn es) (otherMembers nodeMembers es)
  | .orderedMap es =>
    .mk (Entries.field? es "agent") (Entries.field? es "inputs") (Entries.field? es "update")
      (embeddingIn es) (otherMembers nodeMembers es)
  | _ => .mk none none none .absent []

/-- The embedding under the first member `graph` of a mapping. -/
def embeddingIn : List (Value × Value) → Embedding
  | [] => .absent
  | (k, v) :: es => if k.sameKey (.str "graph") then Embedding.ofValue v else embeddingIn es

/-- A mapping is a graph, a text the name of one. -/
def Embedding.ofValue : Value → Embedding
  | .map es => .graph (.mk (nodesIn es) (otherMembers graphMembers es))
  | .orderedMap es => .graph (.mk (nodesIn es) (otherMembers graphMembers es))
  | .str t => .reference t
  | _ => .unusable

end

/-! ## Problems -/

/-- How a key that is no text is named on the way to it. -/
def keyStep (k : Value) : Step :=
  match k with
  | .int n =>
    if -0x8000000000000000 ≤ n ∧ n < 0x8000000000000000 then .index n
    else if k.isShowable then .name (Text.ofInt n)
    else .name "<unprintable int object>"
  | .bool b => .index (if b then 1 else 0)
  | _ => .name (if k.isShowable then k.literal else "<unprintable tuple object>")

/-- The keys of a mapping that are no texts. -/
def keyProblems (es : Entries) : List Problem :=
  es.filterMap fun e =>
    match e.1 with
    | .str _ => none
    | k => some ⟨[keyStep k], .invalidKey⟩

/-- Whether a key is a text with half of a surrogate pair. -/
def isBrokenKey : Value → Bool
  | .str t => t.chars?.isNone
  | _ => false

/-- The problems of a mapping with the given problems in its members. With a broken key the
mapping cannot be read, and nothing else is said about it. -/
def mappingProblems (inner : List Problem) (es : Entries) : List Problem :=
  if es.any fun e => isBrokenKey e.1 then [⟨[], .stringUnicode⟩] else inner ++ keyProblems es

/-- Whether the ids of the nodes of a graph can be shown. -/
def idsShowable (es : Entries) : Bool :=
  match (es.field? "nodes").bind Value.entries? with
  | some nodes => nodes.all fun e => e.1.isShowable
  | none => true

/-- The step to a part under a name; each half of a surrogate pair becomes three marks, one for
each of its bytes. -/
def nameStep (t : Text) : Step :=
  .name (t.flatMap fun p =>
    match p with
    | .char _ => [p]
    | .surrogate _ => List.replicate 3 (.char '\uFFFD'))

/-- The problems of an embedded graph: those of the graph, and that it is no name either. -/
def embeddedProblems (ps : List Problem) : List Problem :=
  if ps.isEmpty then []
  else
    ps.map (Problem.inside [.name "graph", .name "GraphDescription"])
      ++ [⟨[.name "graph", .name "str"], .stringType⟩]

mutual

/-- The problems of a graph: those of its nodes, then its own keys. With an id that cannot be shown
the graph cannot be read, and nothing else is said about it. -/
def Graph.problems : Value → List Problem
  | .map es =>
    if idsShowable es then mappingProblems (nodesProblemsIn es) es else [⟨[], .valueError⟩]
  | .orderedMap es =>
    if idsShowable es then mappingProblems (nodesProblemsIn es) es else [⟨[], .valueError⟩]
  | _ => []

/-- The problems of the nodes under the first member `nodes` of a mapping. -/
def nodesProblemsIn : List (Value × Value) → List Problem
  | [] => []
  | (k, v) :: es => if k.sameKey (.str "nodes") then nodesProblems v else nodesProblemsIn es

/-- The problems of the nodes of a mapping from ids to nodes. -/
def nodesProblems : Value → List Problem
  | .map es => (collapse (nodeProblemList es)).flatMap fun e =>
      e.2.map (Problem.inside [.name "nodes", nameStep e.1])
  | .orderedMap es => (collapse (nodeProblemList es)).flatMap fun e =>
      e.2.map (Problem.inside [.name "nodes", nameStep e.1])
  | _ => []

/-- The problems of entries one by one, under the texts of their keys. -/
def nodeProblemList : List (Value × Value) → List (Text × List Problem)
  | [] => []
  | (k, v) :: es => (k.shown, Node.problems v) :: nodeProblemList es

/-- The problems of a node: those of its graph, then its own keys. -/
def Node.problems : Value → List Problem
  | .map es => mappingProblems (embeddingProblemsIn es) es
  | .orderedMap es => mappingProblems (embeddingProblemsIn es) es
  | _ => []

/-- The problems of the graph under the first member `graph` of a mapping. -/
def embeddingProblemsIn : List (Value × Value) → List Problem
  | [] => []
  | (k, v) :: es =>
    if k.sameKey (.str "graph") then embeddedProblems (Graph.problems v)
    else embeddingProblemsIn es

end

/-- The graph that a value describes, if it has no problems. -/
def Graph.check (v : Value) : Except (List Problem) Graph :=
  if (Graph.problems v).isEmpty then .ok (Graph.ofValue v) else .error (Graph.problems v)

/-- The node that a value describes, if it has no problems. -/
def Node.check (v : Value) : Except (List Problem) Node :=
  if (Node.problems v).isEmpty then .ok (Node.ofValue v) else .error (Node.problems v)

/-- The kind of the node that a raw value stands for. -/
def NodeKind.ofValue (v : Value) : NodeKind := (Node.ofValue v).kind

end AgentFlow
