import AgentFlow.Address
import AgentFlow.Agent.Bundled
import AgentFlow.Json.Reader
import AgentFlow.Text.Encoding

/-!
# Fetching an index

The index is asked for at an address. A successful answer whose body is an index gives that index;
any other answer, and none at all, gives the bundled one. So does an address that no request can be
sent to; but a text that is no address at all gives no index.

* `Answer.index`: the index for what came of a request.
* `AgentIndex.fetch`: the index for an address, with the addresses that were asked for.
-/

namespace AgentFlow

/-- What comes of a request. -/
inductive Answer where
  | response (status : Nat) (body : Text)
  /-- The host could not be reached. -/
  | unreachable
  deriving DecidableEq, Inhabited

namespace Answer

/-- Whether a status says that a request succeeded. -/
def isSuccess (status : Nat) : Bool := 200 ≤ status && status < 300

/-- The index in an answer, if there is one. -/
def index? : Answer → Option AgentIndex
  | .response status body =>
    if isSuccess status then do
      let cs ← body.chars?
      let t ← decodeDocument? (utf8Bytes cs)
      let v ← (Json.read t).toOption
      (AgentIndex.check v).toOption
    else none
  | .unreachable => none

/-- The index in an answer, or the bundled one. -/
def index (a : Answer) : AgentIndex := a.index?.getD AgentIndex.bundled

end Answer

/-- What a fetch has come to: the addresses that were asked for, and the index. -/
structure Fetch where
  requested : List Text
  index : AgentIndex
  deriving DecidableEq, Inhabited

/-- The fetch from an address. Only a host can answer, so an address without one is asked for in
vain. -/
def AgentIndex.fetch (remote : Answer) (address : Text) : Except AddressError Fetch :=
  match Address.read address with
  | .ok a =>
    if a.isAbsolute then
      .ok (if a.hasReadableHost then ⟨[a.render], remote.index⟩ else ⟨[], bundled⟩)
    else .ok ⟨[a.rooted.render], bundled⟩
  | .error (.unencodable _) => .ok ⟨[], bundled⟩
  | .error e => .error e

end AgentFlow
