import AgentFlow.Agent.Index
import AgentFlow.Agent.Mention
import AgentFlow.Script.Position
import AgentFlow.Text.Lines

/-!
# Links and hovers

The agents that a text mentions are linked to what is known about them: each mention of a line has a
link on its name, and a hover that is shown anywhere on the mention. Columns count code points.

* `AgentIndex.links`: the links of a text.
* `AgentIndex.hover`: the hover at a position.
-/

namespace AgentFlow

/-- Where a link leads to. -/
inductive LinkAction where
  | docs
  | source
  deriving DecidableEq

/-- A link on the name of an agent: the columns from `start` to `stop` of a line. -/
structure AgentLink where
  agent : Text
  line : Nat
  start : Nat
  stop : Nat
  target : Text
  tooltip : Text
  deriving DecidableEq

/-- Why the mentions of a text cannot be looked up: the name of one is empty. -/
inductive MentionError where
  | emptyName
  deriving DecidableEq

/-- The wording of an error. -/
def MentionError.message : MentionError → Text
  | .emptyName => "generator raised StopIteration"

namespace LinkAction

/-- The action of a name; any other than `source` leads to the documentation. -/
def ofName (name : Text) : LinkAction := if name = "source" then .source else .docs

/-- The place that a link to an agent leads to. -/
def target (action : LinkAction) (a : Agent) : Text :=
  match action with
  | .docs => a.docs
  | .source => a.source

/-- What a link says that it opens. -/
def noun : LinkAction → Text
  | .docs => "documentation"
  | .source => "source code"

/-- The tooltip of a link to an agent of a name. -/
def tooltip (action : LinkAction) (name : Text) : Text :=
  "Click to open " ++ action.noun ++ " for " ++ name

end LinkAction

/-- The column where the name of a mention is first found inside it. -/
def Mention.nameStart (m : Mention) (line : Text) : Nat :=
  m.start + (Text.find? m.name ((line.drop m.start).take (m.stop - m.start))).getD 0

/-- The agent of a mention, none if the index does not know it. A mention needs a name. -/
def AgentIndex.mentioned (index : AgentIndex) (m : Mention) :
    Except MentionError (Option Agent) :=
  if m.name.isEmpty then .error .emptyName else .ok (index.find? m.name)

/-! ## Links -/

/-- The links of the mentions of a line. -/
def AgentIndex.linksOfMentions (index : AgentIndex) (action : LinkAction) (number : Nat)
    (line : Text) : List Mention → Except MentionError (List AgentLink)
  | [] => .ok []
  | m :: rest => do
    let agent ← index.mentioned m
    let links ← linksOfMentions index action number line rest
    match agent with
    | none => .ok links
    | some a =>
      let start := m.nameStart line
      .ok (⟨m.name, number, start, start + m.name.length, action.target a, action.tooltip m.name⟩
        :: links)

/-- The links of lines that are numbered from a number on. -/
def AgentIndex.linksOfLines (index : AgentIndex) (style : MentionStyle) (action : LinkAction) :
    Nat → List Text → Except MentionError (List AgentLink)
  | _, [] => .ok []
  | number, line :: rest => do
    let here ← index.linksOfMentions action number line (style.mentions index.names line)
    let more ← linksOfLines index style action (number + 1) rest
    .ok (here ++ more)

/-- The links of a text. An empty index has none. -/
def AgentIndex.links (index : AgentIndex) (style : MentionStyle) (action : LinkAction)
    (t : Text) : Except MentionError (List AgentLink) :=
  if index.agents.isEmpty then .ok [] else index.linksOfLines style action 0 (Text.editorLines t)

/-! ## Hovers -/

/-- What a hover says about an agent. -/
def Agent.hoverText (a : Agent) (name : Text) : Text :=
  "**" ++ name ++ "**\n\n[Docs](" ++ a.docs ++ ") | [Source](" ++ a.source ++ ")\n\n"

/-- The hover of the first mention of a line that touches a column. -/
def AgentIndex.hoverOfMentions (index : AgentIndex) (column : Nat) :
    List Mention → Except MentionError (Option Text)
  | [] => .ok none
  | m :: rest => do
    let agent ← index.mentioned m
    if m.start ≤ column ∧ column ≤ m.stop then .ok (agent.map fun a => a.hoverText m.name)
    else hoverOfMentions index column rest

/-- The hover at a position of a text. -/
def AgentIndex.hover (index : AgentIndex) (style : MentionStyle) (p : Position) (t : Text) :
    Except MentionError (Option Text) :=
  if index.agents.isEmpty then .ok none
  else
    match (Text.editorLines t)[p.line]? with
    | none => .ok none
    | some line => index.hoverOfMentions p.character (style.mentions index.names line)

end AgentFlow
