import AgentFlow.Decimal.Double
import AgentFlow.Text.Digit
import AgentFlow.Text.Units
import AgentFlow.Value.Basic

/-!
# Reading JSON text

A reader takes the text that is left and gives a value with the text after it. A failure is its
cause and the number of code points that were left where it was found, so readers need no
positions; `Json.read` turns that number into an index.

Beyond the standard, `NaN`, `Infinity` and `-Infinity` are numbers, a repeated name keeps its
first place and its last value, and lone surrogates may be escaped.
-/

namespace AgentFlow.Json

/-- What is wrong with a JSON text. -/
inductive Cause where
  | expectingValue
  | expectingName
  | expectingColon
  | expectingComma
  | unterminatedString
  | controlCharacter
  | invalidEscape
  | invalidUnicodeEscape
  | extraData
  | byteOrderMark
  deriving DecidableEq

/-- Why reading stopped: a fault where `remaining` code points were left, or an integer with more
digits than are read. -/
inductive Failure where
  | fault (cause : Cause) (remaining : Nat)
  | integerTooLong (digits : Nat)
  deriving DecidableEq

/-- A failure in front of a text. -/
def fail {α : Type} (cause : Cause) (rest : Text) : Except Failure α :=
  .error (.fault cause rest.length)

/-- The most decimal digits that an integer may have. -/
def integerDigitLimit : Nat := 4300

/-- The blanks between the parts of a JSON text. -/
def isBlank (p : CodePoint) : Bool :=
  p == .char ' ' || p == .char '\t' || p == .char '\n' || p == .char '\r'

/-- A text without the blanks at its start. -/
def skipBlank (t : Text) : Text := t.dropWhile isBlank

/-! ## Strings -/

/-- The value of a hexadecimal digit. -/
def hexDigit? : CodePoint → Option Nat
  | .char c => if isDigitOf 16 c then some (digitValue c) else none
  | .surrogate _ => none

/-- The number of four hexadecimal digits, if more text follows them. -/
def fourHex? : Text → Option (Nat × Text)
  | a :: b :: c :: d :: e :: rest => do
    let n ← [a, b, c, d].foldlM (fun n p => (hexDigit? p).map (n * 16 + ·)) 0
    some (n, e :: rest)
  | _ => none

/-- The character of an escape of one letter. -/
def simpleEscape? : CodePoint → Option Char
  | .char '"' => some '"'
  | .char '\\' => some '\\'
  | .char '/' => some '/'
  | .char 'b' => some '\x08'
  | .char 'f' => some '\x0c'
  | .char 'n' => some '\n'
  | .char 'r' => some '\r'
  | .char 't' => some '\t'
  | _ => none

/-- The code point of a number of sixteen bits. -/
def unitPoint (n : Nat) : CodePoint := (CodePoint.ofNat? n).getD (.char '\uFFFD')

/-- The escape after a backslash and `u`: a unit, or a high surrogate joined with the low one that
is escaped right after it. -/
def unicodeEscape (afterU : Text) : Except Failure (CodePoint × Text) :=
  match fourHex? afterU with
  | none => fail .invalidUnicodeEscape (.char 'u' :: afterU)
  | some (n, rest) =>
    match unitPoint n, rest with
    | .surrogate high, .char '\\' :: .char 'u' :: a :: b :: c :: d :: e :: more =>
      if high.val < 1024 then
        match fourHex? (a :: b :: c :: d :: e :: more) with
        | none => fail .invalidUnicodeEscape (.char 'u' :: a :: b :: c :: d :: e :: more)
        | some (m, after) =>
          match unitPoint m with
          | .surrogate low =>
            if 1024 ≤ low.val then .ok (.char (pairSurrogates high low), after)
            else .ok (.surrogate high, rest)
          | .char _ => .ok (.surrogate high, rest)
      else .ok (.surrogate high, rest)
    | p, _ => .ok (p, rest)

/-- The code point of an escape, whose backslash stands right before `rest`; `quoteToEnd` is the
text from the quote that opens the string. -/
def escape (quoteToEnd rest : Text) : Except Failure (CodePoint × Text) :=
  match rest with
  | [] => fail .unterminatedString quoteToEnd
  | .char 'u' :: rest => unicodeEscape rest
  | p :: more =>
    match simpleEscape? p with
    | some c => .ok (.char c, more)
    | none => fail .invalidEscape (.char '\\' :: rest)

/-- The rest of a string after its opening quote. `quoteToEnd` is the text from that quote on. -/
def stringBody (quoteToEnd : Text) : Nat → Text → Except Failure (Text × Text)
  | 0, _ => fail .unterminatedString quoteToEnd
  | _ + 1, [] => fail .unterminatedString quoteToEnd
  | fuel + 1, p :: rest =>
    if p = .char '"' then .ok ([], rest)
    else if p = .char '\\' then do
      let (q, rest) ← escape quoteToEnd rest
      let (t, rest) ← stringBody quoteToEnd fuel rest
      .ok (q :: t, rest)
    else if p.toNat < 0x20 then fail .controlCharacter (p :: rest)
    else do
      let (t, rest) ← stringBody quoteToEnd fuel rest
      .ok (p :: t, rest)

/-- A string, of which the opening quote has been read. -/
def string (afterQuote : Text) : Except Failure (Text × Text) :=
  stringBody (.char '"' :: afterQuote) (afterQuote.length + 1) afterQuote

/-! ## Numbers -/

/-- The ASCII digits at the start of a text, and the text after them. -/
def digits : Text → List Char × Text
  | .char c :: rest =>
    if c.isDigit then
      let (ds, after) := digits rest
      (c :: ds, after)
    else ([], .char c :: rest)
  | rest => ([], rest)

/-- The fraction after a point, if a digit follows the point. -/
def fraction (t : Text) : List Char × Text :=
  match t with
  | .char '.' :: rest =>
    match digits rest with
    | ([], _) => ([], t)
    | found => found
  | _ => ([], t)

/-- The exponent after its mark, if it has digits. -/
def exponent? (t : Text) : Option (Int × Text) :=
  match t with
  | .char e :: rest =>
    if e == 'e' || e == 'E' then
      let (negative, rest) :=
        match rest with
        | .char '-' :: rest => (true, rest)
        | .char '+' :: rest => (false, rest)
        | _ => (false, rest)
      match digits rest with
      | ([], _) => none
      | (ds, rest) =>
        let n : Int := ofDigits 10 ds
        some (if negative then -n else n, rest)
    else none
  | _ => none

/-- The whole part of a number: a zero, or digits that do not start with one. -/
def wholePart? (t : Text) : Option (List Char × Text) :=
  match t with
  | .char '0' :: rest => some (['0'], rest)
  | _ =>
    match digits t with
    | ([], _) => none
    | found => some found

/-- An unsigned number: an integer, unless it has a fraction or an exponent. -/
def magnitude? (negative : Bool) (t : Text) : Option (Except Failure (Value × Text)) := do
  let (whole, rest) ← wholePart? t
  let (part, rest) := fraction rest
  let power := exponent? rest
  let rest := (power.map (·.2)).getD rest
  if part.isEmpty && power.isNone then
    if integerDigitLimit < whole.length then some (.error (.integerTooLong whole.length))
    else
      let n : Int := ofDigits 10 whole
      some (.ok (.int (if negative then -n else n), rest))
  else
    let e := (power.map (·.1)).getD 0 - part.length
    some (.ok (.float (Double.ofDecimal negative (ofDigits 10 (whole ++ part)) e), rest))

/-- The values that are written as a word. -/
def words : List (Text × Value) :=
  [("null", .null), ("true", .bool true), ("false", .bool false), ("NaN", .float Double.nan),
    ("Infinity", .float (Double.infinity false)), ("-Infinity", .float (Double.infinity true))]

/-- A word or a number. -/
def scalar (t : Text) : Except Failure (Value × Text) :=
  match words.find? fun w => w.1.isPrefixOf t with
  | some (w, v) => .ok (v, t.drop w.length)
  | none =>
    let number :=
      match t with
      | .char '-' :: rest => magnitude? true rest
      | _ => magnitude? false t
    match number with
    | some reading => reading
    | none => fail .expectingValue t

/-! ## Values -/

mutual

/-- A value at the start of a text. The fuel bounds the depth and length of what is read; each
character takes two rounds at most, so one more than twice the length of the text is enough. -/
def value : Nat → Text → Except Failure (Value × Text)
  | 0, t => fail .expectingValue t
  | fuel + 1, t =>
    match t with
    | .char '"' :: rest => do
      let (s, rest) ← string rest
      .ok (.str s, rest)
    | .char '[' :: rest =>
      match skipBlank rest with
      | .char ']' :: rest => .ok (.list [], rest)
      | rest => do
        let (vs, rest) ← items fuel rest
        .ok (.list vs, rest)
    | .char '\x7b' :: rest =>
      match skipBlank rest with
      | .char '\x7d' :: rest => .ok (.map [], rest)
      | rest => do
        let (es, rest) ← members fuel rest
        .ok (.map (Entries.putAll [] es), rest)
    | _ => scalar t

/-- The items of a list up to its closing bracket. -/
def items : Nat → Text → Except Failure (List Value × Text)
  | 0, t => fail .expectingValue t
  | fuel + 1, t => do
    let (v, rest) ← value fuel t
    match skipBlank rest with
    | .char ']' :: rest => .ok ([v], rest)
    | .char ',' :: rest =>
      let (vs, rest) ← items fuel (skipBlank rest)
      .ok (v :: vs, rest)
    | rest => fail .expectingComma rest

/-- The members of a mapping up to its closing brace. -/
def members : Nat → Text → Except Failure (List (Value × Value) × Text)
  | 0, t => fail .expectingName t
  | fuel + 1, t =>
    match t with
    | .char '"' :: rest => do
      let (name, rest) ← string rest
      match skipBlank rest with
      | .char ':' :: rest =>
        let (v, rest) ← value fuel (skipBlank rest)
        match skipBlank rest with
        | .char '\x7d' :: rest => .ok ([(.str name, v)], rest)
        | .char ',' :: rest =>
          let (es, rest) ← members fuel (skipBlank rest)
          .ok ((.str name, v) :: es, rest)
        | rest => fail .expectingComma rest
      | rest => fail .expectingColon rest
    | _ => fail .expectingName t

end

/-- Why a text is no JSON: a fault at an index, or an integer that is too long. -/
inductive Error where
  | fault (cause : Cause) (index : Nat)
  | integerTooLong (digits : Nat)
  deriving DecidableEq

/-- A failure in a text of a given length. -/
def Failure.toError (length : Nat) : Failure → Error
  | .fault cause remaining => .fault cause (length - remaining)
  | .integerTooLong n => .integerTooLong n

/-- The value of a whole text. -/
def readAll (t : Text) : Except Failure Value :=
  if t.head? = some (.char '\uFEFF') then fail .byteOrderMark t
  else do
    let (v, rest) ← value (2 * t.length + 1) (skipBlank t)
    match skipBlank rest with
    | [] => .ok v
    | rest => fail .extraData rest

/-- The value that a JSON text spells. -/
def read (t : Text) : Except Error Value :=
  (readAll t).mapError (Failure.toError t.length)

/-! ## Messages -/

/-- The wording of a cause. -/
def Cause.message : Cause → Text
  | .expectingValue => "Expecting value"
  | .expectingName => "Expecting property name enclosed in double quotes"
  | .expectingColon => "Expecting ':' delimiter"
  | .expectingComma => "Expecting ',' delimiter"
  | .unterminatedString => "Unterminated string starting at"
  | .controlCharacter => "Invalid control character at"
  | .invalidEscape => "Invalid \\escape"
  | .invalidUnicodeEscape => "Invalid \\uXXXX escape"
  | .extraData => "Extra data"
  | .byteOrderMark => "Unexpected UTF-8 BOM (decode using utf-8-sig)"

/-- The wording of an error in a text: a cause is followed by its line and column, counted from
one, and its index. -/
def Error.message (t : Text) : Error → Text
  | .fault cause index =>
    let before := t.take index
    let line := (before.filter (· == .char '\n')).length + 1
    let column := (before.reverse.takeWhile (· != .char '\n')).length + 1
    cause.message ++ ": line " ++ Text.ofNat line ++ " column " ++ Text.ofNat column ++ " (char "
      ++ Text.ofNat index ++ ")"
  | .integerTooLong n =>
    "Exceeds the limit (4300 digits) for integer string conversion: value has "
      ++ Text.ofNat n ++ " digits; use sys.set_int_max_str_digits() to increase the limit"

end AgentFlow.Json
