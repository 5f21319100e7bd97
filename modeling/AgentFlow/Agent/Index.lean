import AgentFlow.Schema.Member

/-!
# Agent indexes

An index lists the known agents with the places of their documentation and their source code. A name
may be listed more than once; the first agent of a name counts.
-/

namespace AgentFlow

/-- An agent, with the addresses of its documentation and of its source code. -/
structure Agent where
  name : Text
  docs : Text
  source : Text
  deriving DecidableEq, Inhabited

/-- A list of agents. -/
structure AgentIndex where
  agents : List Agent
  deriving DecidableEq, Inhabited

namespace Agent

/-- The agent in a value. -/
def check : Value → Checked Agent :=
  Member.model .modelType fun es =>
    Checked.both (fun name (rest : Text × Text) => ⟨name, rest.1, rest.2⟩)
      (Member.required es "name" Member.text)
      (Checked.both Prod.mk (Member.required es "docs" Member.text)
        (Member.required es "source" Member.text))

end Agent

namespace AgentIndex

/-- The names of the agents, in order. -/
def names (index : AgentIndex) : List Text := index.agents.map Agent.name

/-- The first agent of a name. -/
def find? (index : AgentIndex) (name : Text) : Option Agent :=
  index.agents.find? fun a => a.name = name

/-- The index of a list of agents. -/
def ofAgents : Value → Checked AgentIndex
  | .list vs => (Checked.all Agent.check 0 vs).map AgentIndex.mk
  | _ => Checked.problem .listType

/-- The index in a value; without a list of agents it is empty. -/
def check : Value → Checked AgentIndex :=
  Member.model .modelType fun es =>
    match es.field? "agents" with
    | none => .ok ⟨[]⟩
    | some v => Checked.inside [.name "agents"] (ofAgents v)

theorem find?_isSome_iff (index : AgentIndex) (name : Text) :
    (index.find? name).isSome = true ↔ name ∈ index.names := by
  simp [find?, names]

end AgentIndex

end AgentFlow
