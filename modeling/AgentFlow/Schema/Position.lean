import AgentFlow.Schema.Member
import AgentFlow.Script.Position

/-!
# Reading positions

A position is read from a mapping with a line and a character, both whole and not negative.
-/

namespace AgentFlow

/-- The position in a value; a value that is no mapping has the given problem. -/
def Position.read (otherwise : ProblemKind) : Value → Checked Position :=
  Member.model otherwise fun es =>
    Checked.both Position.mk (Member.required es "line" Member.natural)
      (Member.required es "character" Member.natural)

end AgentFlow
