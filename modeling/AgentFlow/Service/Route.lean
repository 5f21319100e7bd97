import AgentFlow.Text.Digit

/-!
# Routes

A request is for the route of its path, if its method is the one of that route. A request for a path
with slashes at its end is sent on to the path without them where no route has it as it is; here it
counts as a request for that path at once. The pages in which the service describes itself (`/docs`
and `/docs/oauth2-redirect`, `/redoc`, `/openapi.json`) are left out.

* `Route.ofPath?_eq_some_iff`, `routeOf?_eq_some_iff`: the paths of a route.
* `destination_eq_route_iff`: the requests for a route.
-/

namespace AgentFlow

/-- The capital letters of a code point, as far as they are ASCII; others stay as they are. -/
def CodePoint.upper : CodePoint → Text
  | .char 'ı' => [.char 'I']
  | .char 'ſ' => [.char 'S']
  | .char 'ﬅ' => [.char 'S', .char 'T']
  | .char 'ﬆ' => [.char 'S', .char 'T']
  | .char c => [.char c.toUpper]
  | p => [p]

namespace Service

/-- The routes of the service. -/
inductive Route where
  | health
  /-- The flowchart of a document. -/
  | diagram
  /-- The graph at a place of a script. -/
  | graph
  /-- The object literal at a place of a script. -/
  | value
  | agents
  | links
  | hover
  deriving DecidableEq

namespace Route

/-- All routes. -/
def all : List Route := [.health, .diagram, .graph, .value, .agents, .links, .hover]

/-- The path of a route. -/
def path : Route → Text
  | .health => "/api/health"
  | .diagram => "/api/mermaid"
  | .graph => "/api/objects/graph"
  | .value => "/api/objects/value"
  | .agents => "/api/agents"
  | .links => "/api/agents/links"
  | .hover => "/api/agents/hover"

/-- The method of a route. -/
def method : Route → Text
  | .health => "GET"
  | .agents => "GET"
  | _ => "POST"

/-- The route of a path; a line feed may follow it. -/
def ofPath? (path : Text) : Option Route :=
  all.find? fun r => path == r.path || path == r.path ++ [.char '\n']

theorem ofPath?_eq_some_iff {path : Text} {r : Route} :
    ofPath? path = some r ↔ path = r.path ∨ path = r.path ++ [.char '\n'] := by
  constructor
  · intro h
    simpa using List.find?_some h
  · rintro (rfl | rfl) <;> cases r <;> decide

end Route

/-- What a request is for. -/
inductive Destination where
  | route (r : Route)
  | wrongMethod
  | unknown
  deriving DecidableEq

/-! ## Paths -/

/-- A text without the slashes at its end. -/
def dropSlashes (t : Text) : Text := (t.reverse.dropWhile (· == .char '/')).reverse

/-- The route of a path, be there slashes at its end or not. -/
def routeOf? (path : Text) : Option Route :=
  (Route.ofPath? path).or
    (if path.getLast? == some (.char '/') then Route.ofPath? (dropSlashes path) else none)

/-- No path of a route ends in a slash, so the first case rules out the other one. -/
theorem routeOf?_eq_some_iff {path : Text} {r : Route} :
    routeOf? path = some r ↔ Route.ofPath? path = some r ∨
      path.getLast? = some (.char '/') ∧ Route.ofPath? (dropSlashes path) = some r := by
  have hlast (s : Route) (h : Route.ofPath? path = some s) :
      path.getLast? ≠ some (.char '/') := by
    rcases Route.ofPath?_eq_some_iff.1 h with rfl | rfl <;> cases s <;> decide
  rw [routeOf?]
  cases hpath : Route.ofPath? path with
  | some s => simp [hlast s hpath]
  | none => simp [Option.ite_none_right_eq_some]

/-- What a request with a method and a path is for: a route, if slashes at the end of the path are
left out where that helps. A page in which the service describes itself counts as unknown. -/
def destination (method path : Text) : Destination :=
  match routeOf? path with
  | none => .unknown
  | some r => if r.method == method then .route r else .wrongMethod

theorem destination_eq_route_iff {method path : Text} {r : Route} :
    destination method path = .route r ↔ routeOf? path = some r ∧ method = r.method := by
  rw [destination]
  cases routeOf? path with
  | none => simp
  | some s =>
    dsimp only
    split
    case isTrue h =>
      have hmethod := beq_iff_eq.1 h
      simp only [Destination.route.injEq, Option.some.injEq]
      exact ⟨fun hs => ⟨hs, hs ▸ hmethod.symm⟩, And.left⟩
    case isFalse h =>
      refine iff_of_false (by simp) ?_
      rintro ⟨hs, hmethod⟩
      obtain rfl := Option.some.inj hs
      exact h (beq_iff_eq.2 hmethod.symm)

end Service

end AgentFlow
