import AgentFlow.Schema.Member
import AgentFlow.Text.Case

/-!
# Settings

Settings are read from the variables of an environment. Their names have a common start, and the
case of letters does not matter; what is not set has a default.

* `Settings.ofVariables`: the settings of an environment, or the problems of all of them.
-/

namespace AgentFlow

/-- The settings of the service. -/
structure Settings where
  appName : Text
  logLevel : Text
  indexAddress : Text
  /-- The time in seconds that a request may take. -/
  indexTimeout : Double
  /-- Where links lead to when a request does not say: `docs` or `source`. -/
  clickAction : Text
  deriving DecidableEq, Inhabited

/-- A number in seconds. -/
def Member.seconds (t : Text) : Checked Double :=
  match t.chars?, Numeral.decimalNumber? t with
  | none, _ => Checked.problem .stringUnicode
  | _, some x => .ok x
  | _, none => Checked.problem .floatParsing

/-! ## Settings -/

namespace Settings

/-- What the names of all variables start with, in small letters. -/
def variableStart : Text := "graphai_visualizer_"

/-- The settings of an empty environment. -/
def default : Settings where
  appName := "graphai-visualizer"
  logLevel := "INFO"
  indexAddress :=
    "https://raw.githubusercontent.com/kawamataryo/graphai-visualizer/main/src/agentIndex.json"
  indexTimeout := Double.ofInt 10
  clickAction := "docs"

/-- The last variable of a name in an environment. -/
def lookup? (env : List (Text × Text)) (name : Text) : Option Text :=
  (env.reverse.find? fun e => e.1.lower == variableStart ++ name).map (·.2)

/-- A setting: the default, or what its variable holds. -/
def setting {α : Type} (env : List (Text × Text)) (name : Text) (otherwise : α)
    (f : Text → Checked α) : Checked α :=
  match lookup? env name with
  | none => .ok otherwise
  | some t => Checked.inside [.name name] (f t)

/-- The settings of an environment. -/
def ofVariables (env : List (Text × Text)) : Checked Settings :=
  let texts := Checked.both (fun (a : Text) (b : Text × Text) => (a, b))
    (setting env "app_name" default.appName .ok)
    (Checked.both Prod.mk (setting env "log_level" default.logLevel .ok)
      (setting env "agent_index_url" default.indexAddress .ok))
  let others := Checked.both Prod.mk
    (setting env "agent_index_timeout" default.indexTimeout Member.seconds)
    (setting env "agent_click_action" default.clickAction fun t =>
      Member.literal ["docs", "source"] (.str t))
  Checked.both (fun a b => ⟨a.1, a.2.1, a.2.2, b.1, b.2⟩) texts others

end Settings

end AgentFlow
