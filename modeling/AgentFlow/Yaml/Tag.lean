import AgentFlow.Text.Digit
import AgentFlow.Yaml.Token

/-!
# Tags

A tag says what kind of value a node stands for. A plain scalar without a tag is given one by its
spelling; the spellings depend on the version of the text (`Tag.ofSpelling`).
-/

namespace AgentFlow.Yaml

/-- The tags that a node may have. -/
inductive Tag where
  | null
  | bool
  | int
  | float
  | timestamp
  | binary
  | str
  | seq
  | map
  | orderedMap
  | pairs
  | set
  /-- The key that puts the entries of other mappings into its own. -/
  | merge
  /-- The key of a default value. -/
  | value
  /-- A tag that no value is known for. -/
  | other
  deriving DecidableEq, Inhabited

/-! ## Spellings -/

/-- Whether a character is a decimal digit or a low line. -/
def isDigitOrLine (c : Char) : Bool := c.isDigit || c == '_'

/-- A row of characters without its sign. -/
def dropSign : List Char → List Char
  | '+' :: rest => rest
  | '-' :: rest => rest
  | cs => cs

/-- A row of characters without one line feed at its end. -/
def dropLastFeed (cs : List Char) : List Char :=
  if cs.getLast? == some '\n' then cs.dropLast else cs

/-- Whether a row of characters is a row of at least one of a class. -/
def isRowOf (p : Char → Bool) (cs : List Char) : Bool := !cs.isEmpty && cs.all p

/-- Whether a character may be a digit of a base, or a low line between its digits. -/
def isDigitIn (base : Nat) (c : Char) : Bool := isDigitOf base c || c == '_'

/-- Whether a row of characters is two digits below sixty, or one digit. -/
def isSixtieth : List Char → Bool
  | [a] => a.isDigit
  | [a, b] => '0' ≤ a && a ≤ '5' && b.isDigit
  | _ => false

/-- Whether a row of characters starts with a sign or a digit. -/
def startsNumber : List Char → Bool
  | [] => false
  | c :: _ => c == '+' || c == '-' || c.isDigit

/-- Whether a row of characters spells a truth value. -/
def spellsBool (isOld : Bool) (cs : List Char) : Bool :=
  let word := String.ofList cs
  ["true", "True", "TRUE", "false", "False", "FALSE"].contains word
    || (isOld && ["y", "Y", "yes", "Yes", "YES", "n", "N", "no", "No", "NO", "on", "On", "ON",
      "off", "Off", "OFF"].contains word)

/-- Whether a row of characters spells an integer. The older version has octal numbers that start
with a zero, and numbers of base sixty. -/
def spellsInt (isOld : Bool) (cs : List Char) : Bool :=
  startsNumber cs &&
    match dropSign cs with
    | '0' :: 'b' :: ds => isRowOf (isDigitIn 2) ds
    | '0' :: 'x' :: ds => isRowOf (isDigitIn 16) ds
    | '0' :: 'o' :: ds => !isOld && isRowOf (isDigitIn 8) ds
    | ds =>
      if isOld then
        isRowOf (isDigitIn 8) ds
          || match Text.splitOn ':' ds with
            | [] => false
            | whole :: parts =>
              match whole with
              | [] => false
              | d :: more =>
                d.isDigit && d != '0' && more.all isDigitOrLine && parts.all isSixtieth
      else isRowOf isDigitOrLine ds

/-- Whether a row of characters is an exponent, whose sign may be required. -/
def isExponent (signed : Bool) : List Char → Bool
  | e :: rest =>
    (e == 'e' || e == 'E') &&
      match rest with
      | '+' :: ds => isRowOf Char.isDigit ds
      | '-' :: ds => isRowOf Char.isDigit ds
      | ds => !signed && isRowOf Char.isDigit ds
  | [] => false

/-- Whether a row of characters is a decimal that starts with a digit: a point or an exponent is
needed. -/
def isDecimal (cs : List Char) : Bool :=
  match cs with
  | [] => false
  | c :: _ =>
    c.isDigit &&
      match cs.dropWhile isDigitOrLine with
      | '.' :: rest =>
        let power := rest.dropWhile isDigitOrLine
        power.isEmpty || isExponent false power
      | power => isExponent false power

/-- Whether a row of characters is a decimal that starts with its point. -/
def isFraction : List Char → Bool
  | '.' :: rest =>
    let power := rest.dropWhile isDigitOrLine
    !(rest.takeWhile isDigitOrLine).isEmpty && (power.isEmpty || isExponent true power)
  | _ => false

/-- Whether a row of characters is a number of base sixty with a fraction. -/
def isSexagesimal (cs : List Char) : Bool :=
  match cs with
  | [] => false
  | c :: _ =>
    c.isDigit &&
      let whole := cs.takeWhile (· != '.')
      match cs.dropWhile (· != '.'), Text.splitOn ':' whole with
      | _ :: part, first :: p :: parts =>
        part.all isDigitOrLine && first.all isDigitOrLine && (p :: parts).all isSixtieth
      | _, _ => false

/-- Whether a row of characters spells a double. -/
def spellsFloat (isOld : Bool) (cs : List Char) : Bool :=
  let body := dropSign cs
  isDecimal body || isFraction (if isOld then cs else body)
    || (isOld && isSexagesimal body)
    || [".inf", ".Inf", ".INF"].contains (String.ofList body)
    || [".nan", ".NaN", ".NAN"].contains (String.ofList cs)

/-! ## Timestamps -/

/-- The fields of a time as they are written. -/
structure ClockFields where
  hour : List Char
  minute : List Char
  second : List Char
  fraction : List Char
  /-- The offset: `Z`, or a sign with hours and minutes. -/
  zone : List Char

/-- The fields of a date, with those of a time if there is one. -/
structure TimestampFields where
  year : List Char
  month : List Char
  day : List Char
  clock : Option ClockFields

/-- One or two digits, and what follows. -/
def oneOrTwoDigits : List Char → Option (List Char × List Char)
  | a :: b :: rest =>
    if a.isDigit then if b.isDigit then some ([a, b], rest) else some ([a], b :: rest) else none
  | [a] => if a.isDigit then some ([a], []) else none
  | [] => none

/-- Two digits after a mark, and what follows. -/
def twoDigitsAfter (mark : Char) : List Char → Option (List Char × List Char)
  | m :: a :: b :: rest =>
    if m == mark && a.isDigit && b.isDigit then some ([a, b], rest) else none
  | _ => none

/-- Whether a row of characters is an offset. -/
def isZone : List Char → Bool
  | ['Z'] => true
  | s :: rest =>
    (s == '+' || s == '-') &&
      match oneOrTwoDigits rest with
      | some (_, []) => true
      | some (_, more) => (twoDigitsAfter ':' more).any fun r => r.2.isEmpty
      | none => false
  | [] => false

/-- The fields of a time up to the end. -/
def clockFields? (cs : List Char) : Option ClockFields := do
  let (hour, rest) ← oneOrTwoDigits cs
  let (minute, rest) ← twoDigitsAfter ':' rest
  let (second, rest) ← twoDigitsAfter ':' rest
  let (fraction, rest) :=
    match rest with
    | '.' :: rest => (rest.takeWhile Char.isDigit, rest.dropWhile Char.isDigit)
    | _ => ([], rest)
  if rest.isEmpty then some ⟨hour, minute, second, fraction, []⟩
  else
    let zone := rest.dropWhile fun c => c == ' ' || c == '\t'
    if isZone zone then some ⟨hour, minute, second, fraction, zone⟩ else none

/-- The time after what parts it from a date: a `T`, or blanks. -/
def clockAfter? : List Char → Option ClockFields
  | 'T' :: rest => clockFields? rest
  | 't' :: rest => clockFields? rest
  | c :: rest =>
    if c == ' ' || c == '\t' then clockFields? (rest.dropWhile fun c => c == ' ' || c == '\t')
    else none
  | [] => none

/-- The fields of a date, with or without a time. -/
def timestampFields? : List Char → Option TimestampFields
  | y₁ :: y₂ :: y₃ :: y₄ :: '-' :: rest => do
    let year := [y₁, y₂, y₃, y₄]
    if !year.all Char.isDigit then none
    else
      let (month, rest) ← oneOrTwoDigits rest
      match rest with
      | '-' :: rest =>
        let (day, rest) ← oneOrTwoDigits rest
        if rest.isEmpty then some ⟨year, month, day, none⟩
        else (clockAfter? rest).map fun c => ⟨year, month, day, some c⟩
      | _ => none
  | _ => none

/-- Whether a row of characters spells a timestamp: a date alone has two digits in each field. -/
def spellsTimestamp (cs : List Char) : Bool :=
  match timestampFields? cs with
  | some f => f.clock.isSome || (f.month.length == 2 && f.day.length == 2)
  | none => false

namespace Tag

/-- Whether no value is known for a tag. The two signs are only read as keys. -/
def isUnread : Tag → Bool
  | .merge | .value | .other => true
  | _ => false

/-- The tag of a name. -/
def ofName (name : List Char) : Tag :=
  match String.ofList name with
  | "tag:yaml.org,2002:null" => .null
  | "tag:yaml.org,2002:bool" => .bool
  | "tag:yaml.org,2002:int" => .int
  | "tag:yaml.org,2002:float" => .float
  | "tag:yaml.org,2002:timestamp" => .timestamp
  | "tag:yaml.org,2002:binary" => .binary
  | "tag:yaml.org,2002:str" => .str
  | "tag:yaml.org,2002:seq" => .seq
  | "tag:yaml.org,2002:map" => .map
  | "tag:yaml.org,2002:omap" => .orderedMap
  | "tag:yaml.org,2002:pairs" => .pairs
  | "tag:yaml.org,2002:set" => .set
  | "tag:yaml.org,2002:merge" => .merge
  | "tag:yaml.org,2002:value" => .value
  | _ => .other

/-- The tag of a plain scalar by its spelling. A line feed at the end does not count. -/
def ofSpelling (isOld : Bool) (t : Text) : Tag :=
  match t.chars? with
  | none => .str
  | some cs =>
    let body := if 1 < cs.length then dropLastFeed cs else cs
    if ["", "~", "null", "Null", "NULL"].contains (String.ofList body) then .null
    else if body == ['<', '<'] then .merge
    else if body == ['='] then .value
    else if spellsBool isOld body then .bool
    else if spellsFloat isOld body then .float
    else if spellsInt isOld body then .int
    else if spellsTimestamp body then .timestamp
    else .str

example : ofSpelling false "0x_F" = .int := by rfl

example : ofSpelling true "1:30" = .int := by rfl

end Tag

end AgentFlow.Yaml
