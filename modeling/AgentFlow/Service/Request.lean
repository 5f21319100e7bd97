import AgentFlow.Text.Blank

/-!
# Requests

A request as it arrives: its path has no escapes left, and its body is bytes. The type of the body
is said in a header; only JSON is read.

* `Request.isJson`: whether the body of a request is said to be JSON.
-/

namespace AgentFlow.Service

/-- The headers of a request. -/
abbrev Headers := List (Text × Text)

/-- The value of a header; the case of its name does not matter. -/
def Headers.get? (hs : Headers) (name : Text) : Option Text :=
  (hs.find? fun h => Text.asciiLower h.1 == name).map (·.2)

/-- A request. -/
structure Request where
  method : Text
  path : Text
  headers : Headers
  body : List UInt8

/-- Whether a type is JSON, or a kind of document that is written in JSON. Parameters may follow. -/
def isJsonType (t : Text) : Bool :=
  let name := (t.takeWhile (· != .char ';')).dropWhile CodePoint.isBlank
  let name := (name.reverse.dropWhile CodePoint.isBlank).reverse
  match Text.splitOn (.char '/') (Text.asciiLower name) with
  | [kind, form] =>
    kind == Text.ofString "application"
      && (form == Text.ofString "json" || (Text.ofString "+json").isSuffixOf form)
  | _ => false

/-- Whether the body of a request is said to be JSON. -/
def Request.isJson (request : Request) : Bool :=
  (request.headers.get? "content-type").any isJsonType

example : isJsonType "application/vnd.api+JSON; charset=utf-8" = true := by decide +kernel

end AgentFlow.Service
