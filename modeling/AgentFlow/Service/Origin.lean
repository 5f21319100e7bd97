import AgentFlow.Service.Request
import AgentFlow.Service.Response

/-!
# Requests from other pages

Pages of some origins may read the responses of the service. Before a page sends a request it may
ask whether it is allowed to; that is answered without looking at any route. No page may ask for a
private network.
-/

namespace AgentFlow.Service

/-- The origins whose pages may read responses. -/
def allowedOrigins : List Text := ["http://localhost:5173", "http://localhost:3000"]

/-- The methods that pages of other origins may use. -/
def allowedMethods : List Text :=
  ["DELETE", "GET", "HEAD", "OPTIONS", "PATCH", "POST", "PUT", "QUERY"]

/-- The origin of a request, if its pages may read responses. -/
def allowedOrigin? (hs : Headers) : Option Text :=
  (hs.get? "origin").filter allowedOrigins.contains

/-- Whether a request only asks what is allowed. -/
def isPreflight (method : Text) (hs : Headers) : Bool :=
  method == Text.ofString "OPTIONS" && (hs.get? "origin").isSome
    && (hs.get? "access-control-request-method").isSome

/-- What a page is not allowed to do. -/
def disallowed (hs : Headers) : List Text :=
  let method := (hs.get? "access-control-request-method").getD []
  let origins : List Text := if (allowedOrigin? hs).isSome then [] else ["origin"]
  let methods : List Text := if allowedMethods.contains method then [] else ["method"]
  let networks : List Text :=
    if (hs.get? "access-control-request-private-network").isSome then ["private-network"] else []
  origins ++ methods ++ networks

/-- The answer to the question what is allowed. -/
def preflight (hs : Headers) : Response :=
  let refused := disallowed hs
  { status := if refused.isEmpty then 200 else 400
    content :=
      if refused.isEmpty then .text "OK"
      else .text ("Disallowed CORS " ++ Text.join ", " refused)
    allowOrigin := allowedOrigin? hs }

end AgentFlow.Service
