import AgentFlow.Yaml.Error
import AgentFlow.Yaml.Node

/-!
# Merge keys

A mapping takes over the entries of other mappings through the merge key: they come in front of its
own, and those of a later mapping of a sequence in front of those of an earlier one. The sign of a
default value is a text from then on. A mapping may take over from itself, or from one that takes
over from it, so a merge key goes away before the mappings behind it are looked at.

* `Nodes.merge`: the nodes, with the merge keys of one mapping worked out.
-/

namespace AgentFlow.Yaml.Nodes

/-- The entries of a node. -/
def entriesOf (nodes : Nodes) (n : Nat) : List (Nat × Nat) :=
  match (nodes.get n).content with
  | .mapping es => es
  | _ => []

/-- The text of a node that is a scalar. -/
def writtenText (nodes : Nodes) (n : Nat) : Text :=
  match (nodes.get n).content with
  | .scalar t => t
  | _ => []

/-- The nodes with another tag on one of them. -/
def retag (nodes : Nodes) (n : Nat) (tag : Tag) : Nodes :=
  nodes.setIfInBounds n { nodes.get n with tag := tag }

/-- The nodes with entries that one of them has taken over in front of its own. -/
def prepend (nodes : Nodes) (n : Nat) (taken : List (Nat × Nat)) : Nodes :=
  if taken.isEmpty then nodes
  else
    nodes.setIfInBounds n
      { nodes.get n with content := .mapping (taken ++ nodes.entriesOf n), merged := true }

/-- The entries of mappings, those of later mappings first. Each mapping is worked out before by
`merge`. -/
def takeAll (merge : Nodes → Nat → Except Fault Nodes) :
    Nodes → List Nat → Except Fault (Nodes × List (Nat × Nat))
  | nodes, [] => .ok (nodes, [])
  | nodes, n :: rest =>
    match (nodes.get n).content with
    | .mapping _ => do
      let nodes ← merge nodes n
      let es := nodes.entriesOf n
      let (nodes, more) ← takeAll merge nodes rest
      .ok (nodes, more ++ es)
    | _ => .error (.meaning (nodes.get n).line)

/-- The entries that a merge key takes over from its value. -/
def take (merge : Nodes → Nat → Except Fault Nodes) (nodes : Nodes) (n : Nat) :
    Except Fault (Nodes × List (Nat × Nat)) :=
  match (nodes.get n).content with
  | .sequence items => takeAll merge nodes items
  | _ => takeAll merge nodes [n]

/-- The nodes with the merge keys of a mapping worked out from an entry on, after the entries that
have been taken over already. Only one merge key may take over any. As many entries are looked at as
given: where those of the mapping become more, none of them is a merge key any more. -/
def mergeFrom (merge : Nodes → Nat → Except Fault Nodes) (n : Nat) :
    Nat → Nat → List (Nat × Nat) → Nodes → Except Fault Nodes
  | 0, _, taken, nodes => .ok (nodes.prepend n taken)
  | fuel + 1, index, taken, nodes =>
    match (nodes.entriesOf n)[index]? with
    | none => .ok (nodes.prepend n taken)
    | some (k, v) =>
      match (nodes.get k).tag with
      | .merge =>
        if taken.isEmpty then do
          let rest := nodes.refill n (.mapping ((nodes.entriesOf n).eraseIdx index))
          let (nodes, taken) ← take merge rest v
          mergeFrom merge n fuel index taken nodes
        else .error (.duplicateKey ⟨(nodes.get k).line, nodes.writtenText k⟩)
      | .value => mergeFrom merge n fuel (index + 1) taken (nodes.retag k .str)
      | _ => mergeFrom merge n fuel (index + 1) taken nodes

/-- The nodes with the merge keys of a mapping, and of those that it takes over from, worked out; as
many mappings in a row are followed as given. -/
def merge : Nat → Nodes → Nat → Except Fault Nodes
  | 0, nodes, _ => .ok nodes
  | fuel + 1, nodes, n => mergeFrom (merge fuel) n (nodes.entriesOf n).length 0 [] nodes

/-- The number of entries of all mappings. A merge key goes away before the mappings behind it are
followed, so no more of them are met in a row. -/
def entryCount (nodes : Nodes) : Nat := ((List.range nodes.size).flatMap nodes.entriesOf).length

end AgentFlow.Yaml.Nodes
