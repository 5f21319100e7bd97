import AgentFlow.Text.Basic

/-!
# Scopes

The nodes of an embedded graph are named inside the scope of the node that holds it. A scope is
written as the ids of the nodes around it, each with a dot after it; the outermost scope is the
empty text. How deep a scope lies is read off its text.

* `Scope.depth_child_nil`, `Scope.depth_append`: the depth of a scope put together from parts.
-/

namespace AgentFlow.Scope

/-- The mark after each id of a scope. -/
def separator : CodePoint := .char '.'

/-- The number of ids in a scope; empty ids do not count. -/
def depth (path : Text) : Nat := ((Text.splitOn separator path).filter (· ≠ [])).length

/-- The blanks in front of the lines of a scope. -/
def indent (path : Text) : Text := List.replicate (depth path + 1) (.char ' ')

/-- The id of a node together with its scope. -/
def qualify (path id : Text) : Text := path ++ id

/-- The scope inside a node. -/
def child (qualified : Text) : Text := qualified ++ [separator]

theorem depth_nil : depth [] = 0 := rfl

/-- A scope that ends with the separator and a scope below it add up their depths. -/
theorem depth_append (xs ys : Text) :
    depth (child xs ++ ys) = depth xs + depth ys := by
  simp [depth, child, Text.splitOn_append_cons]

theorem depth_child_nil (xs : Text) : depth (child xs) = depth xs := by
  have h := depth_append xs []
  simpa [depth_nil] using h

end AgentFlow.Scope
