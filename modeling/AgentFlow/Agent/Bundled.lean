import AgentFlow.Agent.Index

/-!
# The bundled index

The agents that are known without asking for an index. The documentation of each is looked for among
the packages, its source code in the repository of all agents.
-/

namespace AgentFlow

/-- The names of the bundled agents. -/
def bundledNames : List Text :=
  ["bypassAgent", "copyAgent", "echoAgent", "fetchAgent", "mapAgent", "nestedAgent",
    "openAIAgent", "anthropicAgent", "geminiAgent", "groqAgent", "popAgent",
    "propertyFilterAgent", "pushAgent", "shiftAgent", "sleeperAgent", "stringTemplateAgent",
    "textInputAgent"]

/-- The bundled agent of a name. -/
def bundledAgent (name : Text) : Agent where
  name := name
  docs := "https://www.npmjs.com/search?q=graphai%20" ++ name
  source := "https://github.com/search?q=repo%3Areceptron%2Fgraphai+" ++ name ++ "&type=code"

namespace AgentIndex

/-- The index that is used when no other can be had. -/
def bundled : AgentIndex := ⟨bundledNames.map bundledAgent⟩

end AgentIndex

end AgentFlow
