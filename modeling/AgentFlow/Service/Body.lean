import AgentFlow.Agent.Link
import AgentFlow.Schema.Position

/-!
# Bodies of requests

What the routes of the service ask for. All problems of a body are listed, in the order of its
members; members that are not asked for are passed over.
-/

namespace AgentFlow.Service

/-- A document to draw, with its language. -/
structure DiagramBody where
  code : Text
  language : Text
  deriving DecidableEq

/-- A script with a place in it. -/
structure ObjectBody where
  source : Text
  position : Position
  deriving DecidableEq

/-- A text to look for agents in, and where links lead to if that is said. -/
structure LinksBody where
  text : Text
  language : Text
  action : Option LinkAction
  deriving DecidableEq

/-- A text to look for an agent in, with a place in it. -/
structure HoverBody where
  text : Text
  language : Text
  position : Position
  deriving DecidableEq

/-- The entries of a body; a body that is no mapping is a problem. -/
def bodyOf {α : Type} (f : Entries → Checked α) : Value → Checked α :=
  Member.model .modelAttributesType f

/-- The place in a body. -/
def positionMember (es : Entries) : Checked Position :=
  Member.required es "position" (Position.read .modelAttributesType)

/-- Two texts of a body. -/
def textMembers (es : Entries) (first second : Text) : Checked (Text × Text) :=
  Checked.both Prod.mk (Member.required es first Member.text)
    (Member.required es second Member.text)

/-- The action of a body, which may be left out or null. -/
def actionMember (es : Entries) : Checked (Option LinkAction) :=
  match es.field? "action" with
  | none => .ok none
  | some .null => .ok none
  | some v =>
    Checked.inside [.name "action"]
      ((Member.literal ["docs", "source"] v).map fun t => some (LinkAction.ofName t))

/-- The document in a body. -/
def DiagramBody.check : Value → Checked DiagramBody :=
  bodyOf fun es => (textMembers es "code" "language").map fun t => ⟨t.1, t.2⟩

/-- The script and the place in a body. -/
def ObjectBody.check : Value → Checked ObjectBody :=
  bodyOf fun es =>
    Checked.both ObjectBody.mk (Member.required es "source" Member.text) (positionMember es)

/-- The text and the action in a body. -/
def LinksBody.check : Value → Checked LinksBody :=
  bodyOf fun es =>
    Checked.both (fun t action => ⟨t.1, t.2, action⟩) (textMembers es "text" "language")
      (actionMember es)

/-- The text and the place in a body. -/
def HoverBody.check : Value → Checked HoverBody :=
  bodyOf fun es =>
    Checked.both (fun t position => ⟨t.1, t.2, position⟩) (textMembers es "text" "language")
      (positionMember es)

end AgentFlow.Service
