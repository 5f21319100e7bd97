import AgentFlow.Script.Tree

/-!
# Object literals at a place

* `Tree.innermostObject?`: the object literal that lies deepest at a byte offset, searched depth
  first and only where spans contain the offset.
* `Tree.enclosingObjects`: that literal and the object literals around it, innermost first.
-/

namespace AgentFlow.Script.Tree

mutual

/-- The innermost object literal at an offset with all nodes around it, innermost first. -/
def objectPath (offset : Nat) : Tree → List Tree
  | .node k a b t cs =>
    if a ≤ offset ∧ offset ≤ b then
      match objectPathAmong offset cs with
      | [] => if k = .object then [.node k a b t cs] else []
      | path => path ++ [.node k a b t cs]
    else []

/-- The path to an object literal in the first of some children that has one. -/
def objectPathAmong (offset : Nat) : List (Label × Tree) → List Tree
  | [] => []
  | (_, t) :: cs =>
    match objectPath offset t with
    | [] => objectPathAmong offset cs
    | path => path

end

/-- The innermost object literal at an offset. -/
def innermostObject? (root : Tree) (offset : Nat) : Option Tree := (objectPath offset root).head?

/-- The innermost object literal at an offset and those around it, innermost first. -/
def enclosingObjects (root : Tree) (offset : Nat) : List Tree :=
  (objectPath offset root).filter fun t => t.kind == .object

end AgentFlow.Script.Tree
