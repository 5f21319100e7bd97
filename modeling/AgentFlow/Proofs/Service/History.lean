import AgentFlow.Service.Step

/-!
# One index for all answers

The service keeps nothing but the index of agents. A request that needs the index while there is
none has it fetched, and from then on every answer is a function of the request and that index: what
was asked before, and how it was answered, does not matter.

* `Request.needsIndex`, `Request.needsIndex_iff`: the requests that need the index.
* `response`: what a request is answered with by a service that has an index.
* `step_eq`: what one step keeps and answers.
* `keptAfter`: what is kept after a row of requests, whatever comes of a fetch each time.
* `responses_without_history`: what a whole row keeps and answers.
-/

namespace AgentFlow.Service

/-! ## Requests that need the index -/

/-- Whether a request to a route needs the index: the route has to do with agents, and the body is
what the route asks for. -/
def Route.needsIndex (request : Request) : Route → Bool
  | .agents => true
  | .links => (checkedBody LinksBody.check request).isOk
  | .hover => (checkedBody HoverBody.check request).isOk
  | _ => false

/-- The route that a request reaches. A question what is allowed reaches none. -/
def Request.route? (request : Request) : Option Route :=
  let method := request.method.flatMap CodePoint.upper
  if isPreflight method request.headers then none
  else
    match destination method request.path with
    | .route r => some r
    | _ => none

/-- Whether a request reaches a route that has to do with agents, with a body that is what the route
asks for. -/
def Request.needsIndex (request : Request) : Bool :=
  request.route?.any (Route.needsIndex request)

theorem Request.route?_eq_some_iff {request : Request} {r : Route} : request.route? = some r ↔
    routeOf? request.path = some r ∧ request.method.flatMap CodePoint.upper = r.method := by
  rw [← destination_eq_route_iff, route?]
  generalize request.method.flatMap CodePoint.upper = method
  constructor
  · intro h
    split at h
    · cases h
    · cases hdest : destination method request.path with
      | route s =>
        rw [hdest] at h
        cases h
        rfl
      | wrongMethod | unknown =>
        rw [hdest] at h
        cases h
  · intro hdest
    -- a question what is allowed has another method than every route
    have hpreflight : isPreflight method request.headers = false := by
      obtain rfl := (destination_eq_route_iff.1 hdest).2
      cases r <;> rfl
    rw [hpreflight, hdest]
    rfl

/-- **Which requests need the index.** They ask for all agents, or for links or a hover with a body
that has the shape of one. -/
theorem Request.needsIndex_iff {request : Request} : request.needsIndex = true ↔
    (request.method.flatMap CodePoint.upper = "GET" ∧ routeOf? request.path = some .agents) ∨
    request.method.flatMap CodePoint.upper = "POST" ∧
      ((routeOf? request.path = some .links ∧
          ∃ body, checkedBody LinksBody.check request = .ok body) ∨
        routeOf? request.path = some .hover ∧
          ∃ body, checkedBody HoverBody.check request = .ok body) := by
  have hok {α : Type} {x : Except Response α} : x.isOk = true ↔ ∃ a, x = .ok a := by
    cases x <;> simp [Except.isOk, Except.toBool]
  rw [needsIndex, Option.any_eq_true]
  simp only [route?_eq_some_iff]
  constructor
  · rintro ⟨r, ⟨hpath, hmethod⟩, hneeds⟩
    cases r with
    | agents => exact .inl ⟨hmethod, hpath⟩
    | links => exact .inr ⟨hmethod, .inl ⟨hpath, hok.1 hneeds⟩⟩
    | hover => exact .inr ⟨hmethod, .inr ⟨hpath, hok.1 hneeds⟩⟩
    | _ => cases hneeds
  · rintro (⟨hmethod, hpath⟩ | ⟨hmethod, ⟨hpath, hbody⟩ | ⟨hpath, hbody⟩⟩)
    · exact ⟨.agents, ⟨hpath, hmethod⟩, rfl⟩
    · exact ⟨.links, ⟨hpath, hmethod⟩, hok.2 hbody⟩
    · exact ⟨.hover, ⟨hpath, hmethod⟩, hok.2 hbody⟩

/-! ## One step -/

/-- What a service answers that has an index. It fetches nothing, so it does not matter what would
come of a fetch. -/
def response (action : LinkAction) (index : AgentIndex) (request : Request) : Response :=
  (step ⟨.unreachable, action⟩ ⟨some index, 0⟩ request).2

/-- What is kept when the index is needed. -/
def State.fetched (remote : Answer) (s : State) : State :=
  match s.index with
  | some _ => s
  | none => ⟨some remote.index, s.fetches + 1⟩

theorem State.fetched_of_some {s : State} {index : AgentIndex} (h : s.index = some index)
    (remote : Answer) : s.fetched remote = s := by
  unfold State.fetched
  rw [h]

theorem State.fetched_of_none {s : State} (h : s.index = none) (remote : Answer) :
    s.fetched remote = ⟨some remote.index, s.fetches + 1⟩ := by
  unfold State.fetched
  rw [h]

/-- The index is used that is kept, or the one that comes of a fetch. -/
theorem withIndex_eq (context : Context) (s : State) (f : AgentIndex → Response) :
    withIndex context s f
      = (s.fetched context.remote, f (s.index.getD context.remote.index)) := by
  unfold withIndex
  cases h : s.index with
  | some index => rw [State.fetched_of_some h]; rfl
  | none => rw [State.fetched_of_none h]; rfl

/-- A route keeps the index if it needs it, and answers from it. -/
theorem answerRoute_eq (parser : Script.Parser) (context : Context) (s : State) (request : Request)
    (r : Route) :
    answerRoute parser context s request r
      = (if r.needsIndex request then s.fetched context.remote else s,
          (answerRoute parser ⟨.unreachable, context.action⟩
            ⟨some (s.index.getD context.remote.index), 0⟩ request r).2) := by
  cases r with
  | agents => exact withIndex_eq context s listAgents
  | links =>
    unfold answerRoute Route.needsIndex
    cases checkedBody LinksBody.check request with
    | ok body => exact withIndex_eq context s (findLinks context body)
    | error r => rfl
  | hover =>
    unfold answerRoute Route.needsIndex
    cases checkedBody HoverBody.check request with
    | ok body => exact withIndex_eq context s (findHover body)
    | error r => rfl
  | _ => rfl

/-- **A step keeps the index if the request needs it, and answers from it.** -/
theorem step_eq (context : Context) (s : State) (request : Request) :
    step context s request
      = (if request.needsIndex then s.fetched context.remote else s,
          response context.action (s.index.getD context.remote.index) request) := by
  unfold response step Request.needsIndex Request.route?
  by_cases hpre : isPreflight (request.method.flatMap CodePoint.upper) request.headers = true
  · simp only [hpre, if_true]
    rfl
  · simp only [hpre, Bool.false_eq_true, if_false]
    unfold answer
    cases destination (request.method.flatMap CodePoint.upper) request.path with
    | route r =>
      simp only [answerRoute_eq _ context s request r]
      rfl
    | wrongMethod => rfl
    | unknown => rfl

/-- A route that does not need the index answers alike whatever is kept. -/
theorem answerRoute_of_not_needsIndex {request : Request} {r : Route}
    (h : r.needsIndex request = false) (parser : Script.Parser) (context : Context)
    (s other : State) :
    (answerRoute parser context s request r).2
      = (answerRoute parser context other request r).2 := by
  unfold answerRoute
  cases r with
  | agents => cases h
  | links =>
    unfold Route.needsIndex at h
    cases hbody : checkedBody LinksBody.check request with
    | ok body =>
      rw [hbody] at h
      cases h
    | error r => rfl
  | hover =>
    unfold Route.needsIndex at h
    cases hbody : checkedBody HoverBody.check request with
    | ok body =>
      rw [hbody] at h
      cases h
    | error r => rfl
  | _ => rfl

/-- A request that does not need the index is answered alike whatever the index is. -/
theorem response_of_not_needsIndex {request : Request} (h : request.needsIndex = false)
    (action : LinkAction) (index other : AgentIndex) :
    response action index request = response action other request := by
  unfold response step
  unfold Request.needsIndex Request.route? at h
  by_cases hpre : isPreflight (request.method.flatMap CodePoint.upper) request.headers = true
  · simp only [hpre, if_true]
  · simp only [hpre, Bool.false_eq_true, if_false] at h ⊢
    unfold answer
    cases hdest : destination (request.method.flatMap CodePoint.upper) request.path with
    | route r =>
      rw [hdest] at h
      simp only [answerRoute_of_not_needsIndex h _ ⟨.unreachable, action⟩ ⟨some index, 0⟩
        ⟨some other, 0⟩]
    | wrongMethod => rfl
    | unknown => rfl

/-! ## Rows of requests -/

/-- A request, with what would come of a fetch at the time it is answered. -/
structure Visit where
  remote : Answer
  request : Request

/-- The responses to a row of visits, each with what is kept after it. -/
def runVisits (action : LinkAction) : State → List Visit → List (State × Response)
  | _, [] => []
  | s, v :: rest =>
    let r := step ⟨v.remote, action⟩ s v.request
    r :: runVisits action r.1 rest

/-- The service runs through visits for which the same would come of a fetch each time. -/
theorem run_eq_runVisits (context : Context) (s : State) (requests : List Request) :
    run context s requests
      = runVisits context.action s (requests.map (Visit.mk context.remote)) := by
  induction requests generalizing s with
  | nil => rfl
  | cons request rest ih => simp only [run, runVisits, List.map_cons, ih]

/-- What is kept after a row of visits: the index there was at first, or else the one that came of
a fetch for the first request that needed it. -/
def keptAfter (initial : Option AgentIndex) (visits : List Visit) : State :=
  match initial, visits.find? (·.request.needsIndex) with
  | some index, _ => ⟨some index, 0⟩
  | none, some v => ⟨some v.remote.index, 1⟩
  | none, none => ⟨none, 0⟩

section

variable (initial : Option AgentIndex) (visits more : List Visit)

theorem keptAfter_nil : keptAfter initial [] = ⟨initial, 0⟩ := by
  cases initial <;> rfl

/-- The index was fetched once if there was none at first and a request needed it. -/
theorem fetches_keptAfter : (keptAfter initial visits).fetches
    = if initial.isNone && visits.any (·.request.needsIndex) then 1 else 0 := by
  unfold keptAfter
  rw [← List.isSome_find?]
  cases initial <;> cases visits.find? (·.request.needsIndex) <;> rfl

/-- An index that is kept is never replaced, and nothing is fetched any more. -/
theorem keptAfter_append_of_some {index : AgentIndex}
    (h : (keptAfter initial visits).index = some index) :
    keptAfter initial (visits ++ more) = keptAfter initial visits := by
  unfold keptAfter at h ⊢
  rw [List.find?_append]
  cases initial with
  | some first => rfl
  | none =>
    cases hfind : visits.find? (·.request.needsIndex) with
    | some v => rfl
    | none =>
      rw [hfind] at h
      cases h

/-- One more visit makes the step that it makes by itself. -/
theorem keptAfter_snoc (v : Visit) : keptAfter initial (visits ++ [v])
    = if v.request.needsIndex then (keptAfter initial visits).fetched v.remote
      else keptAfter initial visits := by
  cases hindex : (keptAfter initial visits).index with
  | some index =>
    rw [keptAfter_append_of_some initial visits [v] hindex, State.fetched_of_some hindex, ite_self]
  | none =>
    unfold keptAfter at hindex ⊢
    rw [List.find?_append]
    cases initial with
    | some first => cases hindex
    | none =>
      cases hfind : visits.find? (·.request.needsIndex) with
      | some v =>
        rw [hfind] at hindex
        cases hindex
      | none => cases hneeds : v.request.needsIndex <;> simp [hneeds, State.fetched]

end

/-- A visit that needs the index leaves one behind: that which is kept, or what came of a fetch. -/
theorem index_keptAfter_snoc {v : Visit} (h : v.request.needsIndex = true)
    (initial : Option AgentIndex) (visits : List Visit) :
    (keptAfter initial (visits ++ [v])).index
      = some ((keptAfter initial visits).index.getD v.remote.index) := by
  rw [keptAfter_snoc, h, if_pos rfl]
  cases hindex : (keptAfter initial visits).index with
  | some index => rw [State.fetched_of_some hindex, hindex]; rfl
  | none => rw [State.fetched_of_none hindex]; rfl

/-- The index that a visit is answered from is the one that is kept in the end. -/
theorem response_keptAfter (action : LinkAction) (initial : Option AgentIndex)
    (fallback : AgentIndex) (before after : List Visit) (v : Visit) :
    response action ((keptAfter initial before).index.getD v.remote.index) v.request
      = response action ((keptAfter initial (before ++ v :: after)).index.getD fallback)
          v.request := by
  cases hneeds : v.request.needsIndex with
  | false => exact response_of_not_needsIndex hneeds action _ _
  | true =>
    have hindex := index_keptAfter_snoc hneeds initial before
    rw [List.append_cons, keptAfter_append_of_some _ _ _ hindex, hindex]
    rfl

/-- Visits that go on from what is kept after others. -/
theorem runVisits_keptAfter (action : LinkAction) (initial : Option AgentIndex)
    (fallback : AgentIndex) (before visits : List Visit) :
    runVisits action (keptAfter initial before) visits
      = visits.mapIdx fun i v =>
          (keptAfter initial (before ++ visits.take (i + 1)),
            response action ((keptAfter initial (before ++ visits)).index.getD fallback)
              v.request) := by
  induction visits generalizing before with
  | nil => rfl
  | cons v rest ih =>
    have hstep : step ⟨v.remote, action⟩ (keptAfter initial before) v.request
        = (keptAfter initial (before ++ [v]),
            response action ((keptAfter initial (before ++ v :: rest)).index.getD fallback)
              v.request) := by
      rw [step_eq, keptAfter_snoc, response_keptAfter action initial fallback before rest v]
    have hsplit (more : List Visit) : (before ++ [v]) ++ more = before ++ v :: more := by simp
    rw [runVisits, List.mapIdx_cons, hstep]
    refine List.cons_eq_cons.2 ⟨rfl, ?_⟩
    rw [ih (before ++ [v])]
    refine congrArg (fun f => List.mapIdx f rest) ?_
    funext i w
    rw [hsplit, hsplit, List.take_succ_cons]

/-- **The service has no history but one index.** However a row of requests is answered from a fresh
service, with an index or without, and whatever comes of a fetch each time: the index is fetched
once at most, for the first request that needs it if there was none at first, and never replaced.
Each response is that of its own request with this one index, or with any if none is kept in the
end. A run is such a row, in which the same comes of a fetch each time. -/
theorem responses_without_history (action : LinkAction) (initial : Option AgentIndex)
    (fallback : AgentIndex) (visits : List Visit) :
    (runVisits action ⟨initial, 0⟩ visits
      = visits.mapIdx fun i v =>
          (keptAfter initial (visits.take (i + 1)),
            response action ((keptAfter initial visits).index.getD fallback) v.request)) ∧
    (∀ before after, visits = before ++ after →
      ((keptAfter initial before).fetches
        = if initial.isNone && before.any (·.request.needsIndex) then 1 else 0) ∧
      ∀ index, (keptAfter initial before).index = some index →
        keptAfter initial visits = keptAfter initial before) ∧
    ∀ context requests, run context ⟨initial, 0⟩ requests
      = runVisits context.action ⟨initial, 0⟩ (requests.map (Visit.mk context.remote)) := by
  refine ⟨?_, ?_, ?_⟩
  · rw [← keptAfter_nil initial, runVisits_keptAfter action initial fallback [] visits]
    rfl
  · rintro before after rfl
    refine ⟨fetches_keptAfter initial before, ?_⟩
    intro index hindex
    exact keptAfter_append_of_some initial before after hindex
  · intro context requests
    exact run_eq_runVisits context ⟨initial, 0⟩ requests

end AgentFlow.Service
