import AgentFlow.Graph.Fragment
import AgentFlow.Graph.Recursion
import AgentFlow.Json.Reader
import AgentFlow.Yaml.Read

/-!
# Graph documents

A graph is written down as YAML or as JSON text. Text of a language that is neither has no
flowchart. Of a YAML text without an end there is the value that a graph is read from.

* `Graph.load`: the graph of a text.
* `flowchartOf`: the flowchart of a text.
-/

namespace AgentFlow

/-- Why a text is no graph, or has no flowchart: it is not of its language, its value has problems,
or an agent cannot be shown. -/
inductive LoadError where
  | json (e : Json.Error)
  | yaml (f : Yaml.Fault)
  | problems (ps : List Problem)
  | unshowable
  deriving DecidableEq

/-- The value of a text; it is read as JSON unless its language is YAML. -/
def valueOfText (language text : Text) : Except LoadError Value :=
  if language = "yaml" then ((Yaml.read text).bind Yaml.Document.graphValue).mapError .yaml
  else (Json.read text).mapError .json

/-- The graph of a text. -/
def Graph.load (language text : Text) : Except LoadError Graph := do
  (Graph.check (← valueOfText language text)).mapError .problems

/-- Whether texts of a language have flowcharts. -/
def isGraphLanguage (language : Text) : Bool :=
  language == Text.ofString "yaml" || language == Text.ofString "json"

mutual

/-- Whether the agents of all drawn nodes of a graph can be shown. -/
def Graph.isShowable : Graph → Bool
  | .mk nodes _ => nodesShowable nodes

/-- `Graph.isShowable` for nodes. -/
def nodesShowable : List (Text × Node) → Bool
  | [] => true
  | (_, node) :: rest => Node.isShowable node && nodesShowable rest

/-- Whether the agents that are shown for a node can be shown. -/
def Node.isShowable : Node → Bool
  | .mk agent _ _ graph _ => (agent.getD .null).isShowable && Embedding.isShowable graph

/-- `Graph.isShowable` for what a node embeds. -/
def Embedding.isShowable : Embedding → Bool
  | .graph g => Graph.isShowable g
  | .absent => true
  | .reference _ => true
  | .unusable => true

end

/-- The flowchart of a graph, unless an agent in it cannot be shown. -/
def Graph.flowchart? (g : Graph) : Except LoadError Text :=
  if g.isShowable then .ok g.flowchart else .error .unshowable

/-- Whether the drawing of a text comes to no end. -/
def drawsForever (language text : Text) : Bool :=
  language == Text.ofString "yaml" && (Yaml.read text).toOption.any Yaml.Document.isEndless

/-- The flowchart of a text; it is empty for another language than YAML and JSON. -/
def flowchartOf (language text : Text) : Except LoadError Text :=
  if isGraphLanguage language then do
    let g ← Graph.load language text
    if drawsForever language text then .error (.yaml .endless) else g.flowchart?
  else .ok []

/-- A list that holds itself is a graph without nodes. -/
example : (flowchartOf "yaml" "&a [*a]").toOption = some "flowchart TD" := by decide +kernel

/-- In a list of inputs that holds itself references are looked for without an end. -/
example : drawsForever "yaml" "nodes: \x7ba: \x7bagent: x, inputs: &i [*i]\x7d\x7d" = true := by
  decide +kernel

theorem flowchartOf_other {language : Text} (h : isGraphLanguage language = false) (text : Text) :
    flowchartOf language text = .ok [] := by
  simp [flowchartOf, h]

end AgentFlow
