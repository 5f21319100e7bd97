import AgentFlow.Agent.Fetch
import AgentFlow.Graph.Document
import AgentFlow.Script.GraphLiteral
import AgentFlow.Service.Body
import AgentFlow.Service.Origin
import AgentFlow.Service.Route

/-!
# The service

The service answers requests one after another. All that it keeps is the index of agents, which it
fetches when a request first needs it, and never again. The trees of scripts come from a parser.

* `Service.step`: the answer to a request, and what is kept.
* `Service.run`: the answers to a row of requests.
-/

namespace AgentFlow.Service

/-- What the service works with: what comes of a request for the index, and where links lead to if a
request does not say. -/
structure Context where
  remote : Answer
  action : LinkAction

/-- What the service keeps: the index, once it has one, and how often it was fetched. -/
structure State where
  index : Option AgentIndex
  fetches : Nat
  deriving DecidableEq, Inhabited

/-! ## Bodies -/

/-- The response to a body that is no document in its encoding, or has a number too long. -/
def unreadable : Response := .reject 400 "There was an error parsing the body"

/-- The value of a body, or the response to one that cannot be read. A body that is not said to be
JSON is taken for bytes. -/
def readBody (request : Request) : Except Response Value :=
  let missing := Response.ofProblems .null [⟨[], .missing⟩]
  if request.body.isEmpty then .error missing
  else if !request.isJson then .error (.ofProblems .null [⟨[], .modelAttributesType⟩])
  else
    match decodeDocument? request.body with
    | none => .error unreadable
    | some t =>
      match Json.read t with
      | .ok .null => .error missing
      | .ok v => .ok v
      | .error (.fault _ index) => .error (.ofProblems .null [⟨[.index index], .jsonInvalid⟩])
      | .error (.integerTooLong _) => .error unreadable

/-- The body that a route asks for, or the response to one with problems. -/
def checkedBody {α : Type} (check : Value → Checked α) (request : Request) : Except Response α := do
  let v ← readBody request
  match check v with
  | .ok a => .ok a
  | .error ps => .error (.ofProblems v ps)

/-- The response that a reading has come to. -/
def settle : Except Response Response → Response
  | .ok r => r
  | .error r => r

/-! ## Documents -/

/-- The value with named members. -/
def members (ms : List (Text × Value)) : Value := .map (ms.map fun m => (.str m.1, m.2))

/-- Whether a fault is reported as one of the document. The others are failures of the service. -/
def isReported : Yaml.Fault → Bool
  | .unsupportedVersion _ _ => false
  | .badTruth _ => false
  | .emptyNumber => false
  | .unhashable _ => false
  | .repeatedKey => false
  | .endless => false
  | .badCalendar .pastEnd => false
  | .escapeRange n => n < 0x80000000
  | _ => true

/-- What is said about a document that is no graph, if it is reported. -/
def loadMessage? (code : Text) : LoadError → Option Text
  | .json e => some (e.message code)
  | .unshowable => some Value.unshowableMessage
  | .yaml f => if isReported f then some f.message else none
  | .problems ps => some (Problem.summary ps.length)

/-- The flowchart of a document. -/
def drawDiagram (body : DiagramBody) : Response :=
  match flowchartOf body.language body.code with
  | .ok t => .ofValue (members [("mermaid", .str t)])
  | .error e =>
    match loadMessage? body.code e with
    | some m => .reject 400 ("Could not parse " ++ body.language ++ " document: " ++ m)
    | none => .failure

/-! ## Scripts -/

/-- The graph at a place of a script, as JSON text and as a flowchart. -/
def findGraph (parser : Script.Parser) (body : ObjectBody) : Response :=
  let graph := body.source.chars?.bind fun cs => (Script.ofChars cs parser).graphAt? body.position
  match graph with
  | none => .reject 404 "No GraphAI object found at the selection position."
  | some t =>
    match flowchartOf "json" t with
    | .ok m => .ofValue (members [("graph", .str t), ("mermaid", .str m)])
    | .error _ => .failure

/-- The object literal at a place of a script. -/
def findValue (parser : Script.Parser) (body : ObjectBody) : Response :=
  match body.source.chars? with
  | none => .failure
  | some cs =>
    match (Script.ofChars cs parser).valueAt body.position with
    | .error _ => .failure
    | .ok none => .reject 404 "No object found at cursor position."
    | .ok (some v) => .ofValue (members [("value", v)])

/-! ## Agents -/

/-- The value of an agent. -/
def agentValue (a : Agent) : Value :=
  members [("name", .str a.name), ("docs", .str a.docs), ("source", .str a.source)]

/-- The value of a link. -/
def linkValue (l : AgentLink) : Value :=
  members
    [("agent", .str l.agent), ("line", .int l.line), ("start", .int l.start), ("end", .int l.stop),
      ("target", .str l.target), ("tooltip", .str l.tooltip)]

/-- All agents. -/
def listAgents (index : AgentIndex) : Response :=
  .ofValue (members [("agents", .list (index.agents.map agentValue))])

/-- The links of a text. -/
def findLinks (context : Context) (body : LinksBody) (index : AgentIndex) : Response :=
  let action := body.action.getD context.action
  match index.links (MentionStyle.ofLanguage body.language) action body.text with
  | .ok links => .ofValue (.list (links.map linkValue))
  | .error _ => .failure

/-- The hover at a place of a text. -/
def findHover (body : HoverBody) (index : AgentIndex) : Response :=
  match index.hover (MentionStyle.ofLanguage body.language) body.position body.text with
  | .ok (some t) => .ofValue (members [("contents", .str t)])
  | .ok none => .reject 404 "No agent at position"
  | .error _ => .failure

/-! ## Steps -/

/-- The response that needs the index, which is fetched if there is none yet. -/
def withIndex (context : Context) (s : State) (f : AgentIndex → Response) : State × Response :=
  match s.index with
  | some index => (s, f index)
  | none =>
    let index := context.remote.index
    (⟨some index, s.fetches + 1⟩, f index)

/-- The response of a route. -/
def answerRoute (parser : Script.Parser) (context : Context) (s : State) (request : Request) :
    Route → State × Response
  | .health =>
    (s, .ofValue (members [("status", .str "ok"), ("service", .str "GraphAI Visualizer")]))
  | .diagram => (s, settle ((checkedBody DiagramBody.check request).map drawDiagram))
  | .graph => (s, settle ((checkedBody ObjectBody.check request).map (findGraph parser)))
  | .value => (s, settle ((checkedBody ObjectBody.check request).map (findValue parser)))
  | .agents => withIndex context s listAgents
  | .links =>
    match checkedBody LinksBody.check request with
    | .ok body => withIndex context s (findLinks context body)
    | .error r => (s, r)
  | .hover =>
    match checkedBody HoverBody.check request with
    | .ok body => withIndex context s (findHover body)
    | .error r => (s, r)

/-- The response to a request, whatever page it comes from. -/
def answer (parser : Script.Parser) (context : Context) (s : State) (method : Text)
    (request : Request) : State × Response :=
  match destination method request.path with
  | .unknown => (s, .reject 404 "Not Found")
  | .wrongMethod => (s, .reject 405 "Method Not Allowed")
  | .route r => answerRoute parser context s request r

/-- A response with the origin whose pages may read it. That of a failure names none. -/
def share (hs : Headers) (r : Response) : Response :=
  if r.status = 500 then r else { r with allowOrigin := allowedOrigin? hs }

/-- A response as it is sent: without its content if only the head was asked for. -/
def trimmed (method : Text) (r : Response) : Response :=
  if method == Text.ofString "HEAD" then { r with content := .text [] } else r

/-- The response to a request, and what is kept. -/
def step (context : Context) (s : State) (request : Request)
    (parser : Script.Parser := Script.treeOf) : State × Response :=
  let method := request.method.flatMap CodePoint.upper
  if isPreflight method request.headers then (s, preflight request.headers)
  else
    let (s, r) := answer parser context s method request
    (s, trimmed method (share request.headers r))

/-- The responses to a row of requests, each with what is kept after it. -/
def run (context : Context) : State → List Request → List (State × Response)
  | _, [] => []
  | s, request :: rest =>
    let (s, r) := step context s request
    (s, r) :: run context s rest

end AgentFlow.Service
