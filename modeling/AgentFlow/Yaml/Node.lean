import AgentFlow.Yaml.Error
import AgentFlow.Yaml.Tag

/-!
# Nodes

A YAML text is a graph of nodes: scalars, sequences and mappings, each with a tag. Nodes are
numbered as they begin, and a node names its parts by their numbers, so an alias is one more place
where a number stands. A collection may hold itself.

* `Nodes.get`: the node of a number.
* `Nodes.scalarText`: the text of a node that is read as a scalar.
-/

namespace AgentFlow.Yaml

/-- What a node holds; its parts are given by their numbers. -/
inductive Content where
  | scalar (text : Text)
  | sequence (items : List Nat)
  | mapping (entries : List (Nat × Nat))
  deriving Inhabited

/-- A node, with the line it starts on. -/
structure Node where
  line : Nat
  tag : Tag
  content : Content
  /-- Whether a mapping holds entries that were taken over from others. -/
  merged : Bool
  deriving Inhabited

/-- The nodes of a text by their numbers. -/
abbrev Nodes := Array Node

namespace Nodes

/-- The node of a number. -/
def get (nodes : Nodes) (n : Nat) : Node := nodes.getD n default

/-- The nodes with other parts of one of them. -/
def refill (nodes : Nodes) (n : Nat) (content : Content) : Nodes :=
  nodes.setIfInBounds n { nodes.get n with content := content }

/-- The text of a node. A mapping has the text of its default value, which is looked for in as many
mappings as given; more than there are nodes are only met where one is its own default. -/
def scalarText (nodes : Nodes) : Nat → Nat → Except Fault Text
  | 0, _ => .error .endless
  | fuel + 1, n =>
    match (nodes.get n).content with
    | .scalar t => .ok t
    | .sequence _ => .error (.meaning (nodes.get n).line)
    | .mapping es =>
      match es.find? fun e => (nodes.get e.1).tag == .value with
      | some e => scalarText nodes fuel e.2
      | none => .error (.meaning (nodes.get n).line)

end Nodes

end AgentFlow.Yaml
