import AgentFlow.Address
import AgentFlow.Json.Writer
import AgentFlow.Service.Request
import AgentFlow.Service.Response
import AgentFlow.Text.Encoding

/-!
# Calls

A call is what a caller asks the service for: a target, which is an address or a path, with headers
and a body. Not every call can be sent, and what stands in a call is put into its usual form on the
way: the steps of a path are taken, escapes are read, and texts become bytes.

* `Call.request`: the request that a call becomes, or why it cannot be sent.
-/

namespace AgentFlow.Service

/-- What a caller sends with a call. -/
inductive Payload where
  | nothing
  /-- A value, sent as JSON text. -/
  | value (v : Value)
  /-- JSON text. -/
  | text (t : Text)

/-- What a caller asks for. -/
structure Call where
  method : Text
  target : Text
  headers : Headers
  payload : Payload

/-- Why a call cannot be sent. -/
inductive CallError where
  | address (e : AddressError)
  | unencodable (e : Unencodable)
  /-- A number of the payload has no JSON text. -/
  | unwritable
  /-- The labels of the host are no labels. -/
  | badHost
  | unknownScheme (scheme : Text)
  /-- What follows the first colon of the host is no port. -/
  | badPort (t : Text)

/-- What is said about a call that cannot be sent. -/
def CallError.message : CallError → Text
  | .address e => e.message
  | .unencodable e => e.message
  | .unwritable => "Out of range float values are not JSON compliant"
  | .badHost => []
  | .unknownScheme scheme => scheme.quoted
  | .badPort t => Numeral.badIntMessage 10 t

namespace Call

/-! ## Paths -/

/-- The bytes of a text in which a percent sign and two hexadecimal digits stand for one. -/
def unescapedBytes : List Char → List UInt8
  | '%' :: a :: b :: rest =>
    if isDigitOf 16 a && isDigitOf 16 b then
      UInt8.ofNat (ofDigits 16 [a, b]) :: unescapedBytes rest
    else utf8Bytes ['%'] ++ unescapedBytes (a :: b :: rest)
  | c :: rest => utf8Bytes [c] ++ unescapedBytes rest
  | [] => []

/-- A path with its escapes read; one whose bytes are no text stays as it is. -/
def unescaped (path : Text) : Text :=
  match path.chars? with
  | none => path
  | some cs =>
    if cs.contains '%' then
      match String.fromUTF8? ⟨(unescapedBytes cs).toArray⟩ with
      | some s => s
      | none => path
    else path

/-- The path that an address leads to. One that does not name a host leads to the service itself.
Escapes are read when a request is sent and again when it arrives. -/
def pathOf (a : Address) : Text :=
  unescaped (unescaped (if a.isAbsolute then a.path else Address.normalPath a.rooted.path))

/-! ## Headers and bodies -/

/-- The name of the header that says what a body is. -/
def typeName : Text := "content-type"

/-- The header of a body of JSON text. -/
def jsonType : Text × Text := (typeName, "application/json")

/-- The headers with the type of the payload. A value is of the type that the caller says, if any.
Text is JSON first of all, unless its type is spelled the same way. -/
def sentHeaders (c : Call) : Headers :=
  match c.payload with
  | .nothing => c.headers
  | .value _ => if (c.headers.get? typeName).isSome then c.headers else jsonType :: c.headers
  | .text _ =>
    match c.headers.find? fun h => h.1 == typeName with
    | some h => h :: c.headers
    | none => jsonType :: c.headers

/-- Headers have names and values in ASCII. -/
def checkHeaders (hs : Headers) : Except CallError Unit :=
  match hs.findSome? fun h => (Unencodable.ascii? h.1).or (Unencodable.ascii? h.2) with
  | some e => .error (.unencodable e)
  | none => .ok ()

/-- The bytes of a text. -/
def bytesOf (t : Text) : Except CallError (List UInt8) :=
  match t.chars? with
  | some cs => .ok (utf8Bytes cs)
  | none => .error (.unencodable ((Unencodable.utf8? t).getD default))

/-- The bytes of the payload. -/
def sentBytes (c : Call) : Except CallError (List UInt8) :=
  match c.payload with
  | .nothing => .ok []
  | .value v => do
    let bytes ← bytesOf (Json.write .compact v)
    if v.isSendable then return bytes else .error .unwritable
  | .text t => bytesOf t

/-- The address of a call names a host that can be shown and asked, and a scheme of the service. -/
def checkAddress (hs : Headers) (a : Address) : Except CallError Unit :=
  if !a.isAbsolute then .ok ()
  else if (hs.get? "host").isNone && !a.hasReadableHost then .error .badHost
  else if a.scheme ≠ "http" ∧ a.scheme ≠ "https" then .error (.unknownScheme a.scheme)
  else if a.host.contains (.char ':') then
    .error (.badPort ((a.place.dropWhile (· != .char ':')).drop 1))
  else .ok ()

/-- The request that a call becomes. -/
def request (c : Call) : Except CallError Request := do
  let address ← (Address.read c.target).mapError .address
  let headers := c.sentHeaders
  checkHeaders headers
  let body ← c.sentBytes
  checkAddress headers address
  return ⟨c.method, pathOf address, headers, body⟩

end Call

end AgentFlow.Service
