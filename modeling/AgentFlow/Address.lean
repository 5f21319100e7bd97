import AgentFlow.Address.Label
import AgentFlow.Address.Numeric
import AgentFlow.Decimal.Numeral

/-!
# Addresses of requests

An address is split into its parts, and each part is put into its usual form: the letters of the
scheme and the host are small, a host is written in ASCII, the port that a scheme has anyway is left
out, the steps `.` and `..` of a path are taken, and characters that may not stand in a part are
escaped byte by byte.

* `Address.read`: the parts of a text, or why it is no address.
* `Address.render`: the text of an address.
* `Address.isAbsolute`: whether an address names its scheme and its host. One that does not is taken
  to lead to a path from the root (`Address.rooted`).
-/

namespace AgentFlow

/-- The parts of an address. -/
structure Address where
  scheme : Text
  user : Text
  host : Text
  port : Option Int
  path : Text
  query : Option Text
  fragment : Option Text
  deriving DecidableEq, Inhabited

/-- Why a text is no address. -/
inductive AddressError where
  | tooLong
  | control (p : CodePoint) (index : Nat)
  /-- The host looks like four numbers but is not. -/
  | badQuad (host : Text)
  /-- The host stands in brackets but is no number. -/
  | badColonNumber (host : Text)
  /-- The host cannot be written in ASCII. -/
  | badName (host : Text)
  | badPort (port : Text)
  /-- The path starts like a host or like a scheme. -/
  | badPath (start : Text)
  /-- A lone surrogate cannot be escaped. -/
  | unencodable (p : CodePoint)
  deriving DecidableEq, Inhabited

namespace AddressError

/-- What is said about a text that is no address. -/
def message : AddressError → Text
  | .tooLong => "URL too long"
  | .control p index =>
    ("Invalid non-printable ASCII character in URL, " : Text) ++ Text.quoted [p] ++ " at position "
      ++ Text.ofNat index ++ "."
  | .badQuad host => ("Invalid IPv4 address: " : Text) ++ host.quoted
  | .badColonNumber host => ("Invalid IPv6 address: " : Text) ++ host.quoted
  | .badName host => ("Invalid IDNA hostname: " : Text) ++ host.quoted
  | .badPort port => ("Invalid port: " : Text) ++ port.quoted
  | .badPath start => ("Relative URLs cannot have a path starting with " : Text) ++ start.quoted
  | .unencodable p =>
    ("'utf-8' codec can't encode character '" : Text) ++ p.escaped
      ++ "' in position 0: surrogates not allowed"

end AddressError

namespace Address

/-! ## Escapes -/

/-- A byte as a percent sign and two digits. -/
def escapedByte (b : UInt8) : Text :=
  .char '%' :: Text.ofChars ((Nat.toDigits 16 (b.toNat + 256)).drop 1 |>.map Char.toUpper)

/-- Whether a character may stand in every part of an address. -/
def isUnreserved (c : Char) : Bool := c.isAlphanum || ['-', '.', '_', '~'].contains c

/-- A text in which the characters that may not stand in a part are escaped. -/
def escape (unsafeChars : List Char) : Text → Except AddressError Text
  | [] => .ok []
  | .surrogate u :: _ => .error (.unencodable (.surrogate u))
  | .char c :: rest => do
    let after ← escape unsafeChars rest
    if isUnreserved c || (0x20 < c.toNat && c.toNat < 0x7F && !unsafeChars.contains c) then
      return .char c :: after
    else return (String.singleton c).toUTF8.toList.flatMap escapedByte ++ after

/-- The characters that are escaped in a query. -/
def queryUnsafe : List Char := ['"', '#', '<', '>']

/-- The characters that are escaped in a fragment. -/
def fragmentUnsafe : List Char := ['"', '<', '>', '\x60']

/-- The characters that are escaped in a path. -/
def pathUnsafe : List Char := ['?', '\x60', '\x7b', '\x7d'] ++ queryUnsafe

/-- The characters that are escaped in the name of a user. -/
def userUnsafe : List Char := ['/', ';', '=', '@', '[', '\\', ']', '^', '|'] ++ pathUnsafe

/-- The characters that are escaped in a host. -/
def hostUnsafe : List Char := ['#', '/', ':', '<', '>', '?', '@', '[', ']', '^']

/-! ## Parts -/

/-- A text cut in front of the first character of some, and what follows. -/
def cutBefore (marks : List Char) (t : Text) : Text × Text :=
  let inside (p : CodePoint) : Bool := !p.isChar marks.contains
  (t.takeWhile inside, t.dropWhile inside)

/-- A text cut behind the last of a character. -/
def cutBehindLast (mark : Char) (t : Text) : Text × Text :=
  let outside (p : CodePoint) : Bool := p != .char mark
  let tail := (t.reverse.takeWhile outside).reverse
  (t.take (t.length - tail.length), tail)

/-- What follows a mark in front of a text. -/
def after? (mark : Char) : Text → Option Text
  | p :: rest => if p = .char mark then some rest else none
  | [] => none

/-- The scheme in front of a colon, and what follows; without one the scheme is empty. -/
def splitScheme (t : Text) : Text × Text :=
  let isSchemeChar (p : CodePoint) : Bool :=
    p.isChar fun c => c.isAlphanum || c == '+' || c == '.' || c == '-'
  let name := t.takeWhile isSchemeChar
  match t.dropWhile isSchemeChar with
  | .char ':' :: rest =>
    match name with
    | .char c :: _ => if c.isAlpha then (name, rest) else ([], t)
    | _ => ([], rest)
  | _ => ([], t)

/-- The port that a scheme has if none is named. -/
def schemePort (scheme : Text) : Option Int :=
  if scheme = "http" ∨ scheme = "ws" then some 80
  else if scheme = "https" ∨ scheme = "wss" then some 443
  else if scheme = "ftp" then some 21
  else none

/-- The most digits that a port may have. -/
def portLimit : Nat := 4300

/-- The port of an address: none if it is the one of its scheme, as that is written. -/
def readPort (scheme t : Text) : Except AddressError (Option Int) :=
  if t.isEmpty then .ok none
  else
    match Numeral.readInt? 10 t with
    | some n =>
      if portLimit < Numeral.digitCount t then .error (.badPort t)
      else .ok (if schemePort scheme = some n then none else some n)
    | none => .error (.badPort t)

/-- The user, the host and the text of the port. A host in brackets ends at the last one. -/
def splitAuthority (t : Text) : Text × Text × Text :=
  let (user, place) := cutBehindLast '@' t
  let (host, rest) :=
    match after? '[' place with
    | some _ =>
      let (host, rest) := cutBehindLast ']' place
      if host.isEmpty then cutBefore [':'] place else (host, rest)
    | none => cutBefore [':'] place
  (user.dropLast, host, (after? ':' rest).getD rest)

/-- A host in its usual form, without brackets. -/
def readHost (t : Text) : Except AddressError Text :=
  if t.isEmpty then .ok []
  else if isDotted t then
    if isQuad t then .ok t else .error (.badQuad t)
  else if t.head? = some (.char '[') && t.getLast? = some (.char ']') then
    let number := (t.drop 1).dropLast
    if isColonNumber number then .ok number else .error (.badColonNumber t)
  else
    match (Text.lower t).chars? with
    | none => .error (.badName t)
    | some cs =>
      if t.all fun p => p.toNat < 0x80 then escape hostUnsafe (Text.ofChars cs)
      else
        match asciiHost? cs with
        | some host => .ok (Text.ofChars host)
        | none => .error (.badName t)

/-- The steps of a path without `.`, and with `..` taking one back. -/
def dropDots (steps : List Text) : List Text :=
  steps.foldl
    (fun (done : List Text) (step : Text) =>
      if step = "." then done
      else if step = ".." then (if done.isEmpty || done == [[]] then done else done.dropLast)
      else done ++ [step])
    []

/-- A path without the steps `.` and `..`. -/
def normalPath (path : Text) : Text := Text.join "/" (dropDots (Text.splitOn (.char '/') path))

/-- A path without a scheme and a host in front may not start like one of them. -/
def checkPath (path : Text) : Except AddressError Unit :=
  if ((after? '/' path).bind (after? '/')).isSome then .error (.badPath "//")
  else if (after? ':' path).isSome then .error (.badPath ":")
  else .ok ()

/-- The most code points that an address may have. -/
def lengthLimit : Nat := 65536

/-- A text that is not too long and has no control characters. -/
def checkText (t : Text) : Except AddressError Unit :=
  let isControl (p : CodePoint) : Bool := p.toNat < 0x20 || p.toNat = 0x7F
  if lengthLimit < t.length then .error .tooLong
  else
    match List.find? isControl t with
    | some p => .error (.control p (t.takeWhile fun q => !isControl q).length)
    | none => .ok ()

/-- The parts of a text, or why it is no address. -/
def read (t : Text) : Except AddressError Address := do
  checkText t
  let (scheme, rest) := splitScheme t
  let (authority, rest) :=
    match rest with
    | .char '/' :: .char '/' :: rest => cutBefore ['/', '?', '#'] rest
    | _ => ([], rest)
  let (path, rest) := cutBefore ['?', '#'] rest
  let (query, rest) :=
    match after? '?' rest with
    | some rest => let (q, rest) := cutBefore ['#'] rest; (some q, rest)
    | none => (none, rest)
  let (user, host, port) := splitAuthority authority
  let user ← escape userUnsafe user
  let host ← readHost host
  let port ← readPort scheme port
  let isPlaced := !scheme.isEmpty || !user.isEmpty || !host.isEmpty || port.isSome
  if !isPlaced then checkPath path
  return {
    scheme := Text.asciiLower scheme
    user := user
    host := host
    port := port
    path := ← escape pathUnsafe (if isPlaced then normalPath path else path)
    query := ← query.mapM (escape queryUnsafe)
    fragment := ← (after? '#' rest).mapM (escape fragmentUnsafe) }

/-- Whether an address names its scheme and its host. -/
def isAbsolute (a : Address) : Bool := !a.scheme.isEmpty && !a.host.isEmpty

/-- The address of a path from the root, with the query. -/
def rooted (a : Address) : Address where
  scheme := []
  user := []
  host := []
  port := none
  path := .char '/' :: a.path.dropWhile (· == .char '/')
  query := a.query
  fragment := none

/-- The host with the port; a number with colons stands in brackets. -/
def place (a : Address) : Text :=
  let host : Text := if a.host.contains (.char ':') then "[" ++ a.host ++ "]" else a.host
  match a.port with
  | some n => host ++ .char ':' :: Text.ofInt n
  | none => host

/-- The text of an address. -/
def render (a : Address) : Text :=
  let scheme : Text := if a.scheme.isEmpty then [] else a.scheme ++ ":"
  let user : Text := if a.user.isEmpty then [] else a.user ++ "@"
  let authority := user ++ a.place
  let authority : Text := if authority.isEmpty then [] else "//" ++ authority
  let query : Text :=
    match a.query with
    | some q => .char '?' :: q
    | none => []
  let fragment : Text :=
    match a.fragment with
    | some f => .char '#' :: f
    | none => []
  scheme ++ authority ++ a.path ++ query ++ fragment

/-- Whether the host is ASCII and can be shown: if it starts as the ASCII form of a label does, its
labels must be such forms. -/
def hasReadableHost (a : Address) : Bool :=
  match a.host.chars? with
  | none => false
  | some cs => cs.all Punycode.isBasic && ((encoded? cs).isNone || isReadable cs)

end Address

example :
    ((Address.read "http://Bücher:80/a/../b").map Address.render).toOption
      = some (Text.ofString "http://xn--bcher-kva/b") := by
  decide +kernel

end AgentFlow
