import AgentFlow.Decimal.Layout
import AgentFlow.Text.Quoted
import AgentFlow.Value.Basic

/-!
# How values are shown

A label shows a value that is no text by its display: `None`, `True` and `False` for the values
without parts, brackets for lists, braces for mappings and sets, and texts between quotes inside
them. `Value.shown` is the text of a value on its own, `Value.literal` its text inside another.
-/

namespace AgentFlow

/-- A row of bytes between quotes, with escapes for all but the printable ASCII characters. -/
def quotedBytes (bs : List UInt8) : Text :=
  let quote : UInt8 := if bs.contains 39 && !bs.contains 34 then 34 else 39
  let mark := CodePoint.char (Char.ofNat quote.toNat)
  let show1 (b : UInt8) : Text :=
    if b == quote || b == 92 then [.char '\\', .char (Char.ofNat b.toNat)]
    else if b == 9 then "\\t"
    else if b == 10 then "\\n"
    else if b == 13 then "\\r"
    else if b < 32 || 127 ≤ b then ("\\x" : Text) ++ hexText 2 b.toNat
    else [.char (Char.ofNat b.toNat)]
  .char 'b' :: mark :: bs.flatMap show1 ++ [mark]

/-- The length of time that an offset stands for, days and seconds apart. -/
def ZoneOffset.lengthLiteral (z : ZoneOffset) : Text :=
  let seconds := z.minutes * 60
  let days := seconds / 86400
  let rest := seconds % 86400
  let parts : List Text :=
    (if days = 0 then [] else ["days=" ++ Text.ofInt days])
      ++ (if rest = 0 then [] else ["seconds=" ++ Text.ofInt rest])
  let inner : Text := if parts.isEmpty then "0" else Text.join ", " parts
  "datetime.timedelta(" ++ inner ++ ")"

/-- An offset as the length of time it stands for, with its name. -/
def ZoneOffset.literal (z : ZoneOffset) : Text :=
  "datetime.timezone(" ++ z.lengthLiteral ++ ", " ++ z.name.quoted ++ ")"

/-- A date as a constructor with its fields. -/
def Date.literal (d : Date) : Text :=
  "datetime.date(" ++ Text.ofNat d.year ++ ", " ++ Text.ofNat d.month ++ ", "
    ++ Text.ofNat d.day ++ ")"

/-- A time as a constructor with its fields, without the seconds and microseconds at its end that
are zero. -/
def DateTime.literal (t : DateTime) : Text :=
  let fields := [t.date.year, t.date.month, t.date.day, t.hour, t.minute]
    ++ (if t.microsecond ≠ 0 then [t.second, t.microsecond]
      else if t.second ≠ 0 then [t.second] else [])
  let zone : List Text :=
    match t.zone with
    | none => []
    | some z => ["tzinfo=" ++ z.literal]
  "datetime.datetime(" ++ Text.join ", " (fields.map Text.ofNat ++ zone) ++ ")"

namespace Value

mutual

/-- The text of a value inside another. -/
def literal : Value → Text
  | .null => "None"
  | .bool b => if b then "True" else "False"
  | .int n => Text.ofInt n
  | .float x => DecimalLayout.plain.render x
  | .str t => t.quoted
  | .list items => "[" ++ Text.join ", " (literals items) ++ "]"
  | .map es => "\x7b" ++ Text.join ", " (entryLiterals es) ++ "\x7d"
  | .orderedMap es =>
    if es.isEmpty then "ordereddict()"
    else "ordereddict([" ++ Text.join ", " (pairLiterals es) ++ "])"
  | .tuple items =>
    match literals items with
    | [x] => "(" ++ x ++ ",)"
    | xs => "(" ++ Text.join ", " xs ++ ")"
  | .bytes bs => quotedBytes bs
  | .set items =>
    if items.isEmpty then "set()" else "\x7b" ++ Text.join ", " (literals items) ++ "\x7d"
  | .date d => d.literal
  | .dateTime t => t.literal

/-- The texts of values one by one. -/
def literals : List Value → List Text
  | [] => []
  | v :: vs => literal v :: literals vs

/-- The texts of entries, key and value apart by a colon. -/
def entryLiterals : List (Value × Value) → List Text
  | [] => []
  | (k, v) :: es => (literal k ++ ": " ++ literal v) :: entryLiterals es

/-- The texts of entries as pairs. -/
def pairLiterals : List (Value × Value) → List Text
  | [] => []
  | (k, v) :: es => ("(" ++ literal k ++ ", " ++ literal v ++ ")") :: pairLiterals es

end

/-- The text of a value on its own. -/
def shown : Value → Text
  | .str t => t
  | .date d => d.render
  | .dateTime t => t.render
  | v => v.literal

@[simp] theorem shown_str (t : Text) : shown (.str t) = t := rfl

/-- The number of digits that an integer may have to be shown. -/
def digitLimit : Nat := 4300

/-- The least number that has more digits than may be shown. -/
def unshowableFrom : Nat := Nat.pow 10 digitLimit

mutual

/-- Whether every integer inside a value is short enough to be shown. -/
def isShowable : Value → Bool
  | .int n => n.natAbs < unshowableFrom
  | .list items => areShowable items
  | .tuple items => areShowable items
  | .set items => areShowable items
  | .map es => entriesShowable es
  | .orderedMap es => entriesShowable es
  | _ => true

/-- `isShowable` for every value. -/
def areShowable : List Value → Bool
  | [] => true
  | v :: vs => isShowable v && areShowable vs

/-- `isShowable` for every key and every value of a mapping. -/
def entriesShowable : List (Value × Value) → Bool
  | [] => true
  | (k, v) :: es => isShowable k && isShowable v && entriesShowable es

end

/-- What is said about a value that cannot be shown. -/
def unshowableMessage : Text :=
  "Exceeds the limit (4300 digits) for integer string conversion; "
    ++ "use sys.set_int_max_str_digits() to increase the limit"

example : shown (.list [.str "a", .null]) = Text.ofString "['a', None]" := by
  simp [shown, literal, literals, Text.quoted, Text.quoteFor, Text.ofString, Text.ofChars,
    Text.join, List.intercalate, Text.quotedPoint, CodePoint.isPrintable]

end Value

end AgentFlow
