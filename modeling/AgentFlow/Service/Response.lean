import AgentFlow.Problem
import AgentFlow.Value.Basic

/-!
# Responses

A response carries a value, the reason why there is none, the problems of a body, or plain text.
Only text without lone surrogates can be sent, and only finite numbers (`Value.isSendable`); a
response that cannot be sent is a failure of the service.
-/

namespace AgentFlow

/-! ## What can be sent -/

/-- Whether a text has bytes. -/
def Text.isSendable (t : Text) : Bool :=
  t.all fun
    | .char _ => true
    | .surrogate _ => false

namespace Value

mutual

/-- Whether a value can be sent as JSON text. -/
def isSendable : Value → Bool
  | .str t => t.isSendable
  | .float x => x.isFinite
  | .list items => areSendable items
  | .tuple items => areSendable items
  | .set items => areSendable items
  | .map es => entriesSendable es
  | .orderedMap es => entriesSendable es
  | _ => true

/-- Whether all of some values can be sent. -/
def areSendable : List Value → Bool
  | [] => true
  | v :: vs => isSendable v && areSendable vs

/-- Whether the keys and values of entries can be sent. -/
def entriesSendable : List (Value × Value) → Bool
  | [] => true
  | (k, v) :: es => isSendable k && isSendable v && entriesSendable es

end

/-- The part of a value at the end of a path. -/
def part (v : Value) : List Step → Value
  | [] => v
  | .name t :: steps => part (((v.entries?.getD []).field? t).getD .null) steps
  | .index n :: steps =>
    match v with
    | .list items => part (items.getD n.toNat .null) steps
    | _ => .null

end Value

/-- The part of a value that a problem is about: what lacks a member, if one is missing. -/
def Problem.subject (p : Problem) (v : Value) : Value :=
  v.part (if p.kind = .missing then p.path.dropLast else p.path)

namespace Service

/-- What a response carries. -/
inductive Content where
  | value (v : Value)
  /-- Why there is no value. -/
  | detail (t : Text)
  /-- The problems of the body of the request. -/
  | problems (ps : List Problem)
  | text (t : Text)
  deriving Inhabited

/-- A response, with the origin whose pages may read it. -/
structure Response where
  status : Nat
  content : Content
  allowOrigin : Option Text := none
  deriving Inhabited

namespace Response

/-- The response of a service that failed. -/
def failure : Response where
  status := 500
  content := .text "Internal Server Error"
  allowOrigin := none

/-- A response that says why there is no value, if that can be sent. -/
def reject (status : Nat) (reason : Text) : Response :=
  if reason.isSendable then ⟨status, .detail reason, none⟩ else failure

/-- The response with a value, if it can be sent. -/
def ofValue (v : Value) : Response :=
  if v.isSendable then ⟨200, .value v, none⟩ else failure

/-- The response to a body with problems. Each problem is sent with the part of the body that it is
about. -/
def ofProblems (body : Value) (ps : List Problem) : Response :=
  if ps.all fun p => (p.subject body).isSendable then
    ⟨422, .problems (ps.map (Problem.inside [.name "body"])), none⟩
  else failure

end Response

end Service

end AgentFlow
