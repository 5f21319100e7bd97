import AgentFlow.Decimal.Layout
import AgentFlow.Value.Display

/-!
# Writing JSON text

`Json.write` sets a value out as JSON text, on one line or with every entry on a line of its own.
Characters outside ASCII are written as they are.
-/

namespace AgentFlow.Json

/-- How a value is set out: on one line without blanks, or indented by a number of blanks for
each level. -/
inductive Layout where
  | compact
  | indented (step : Nat)
  deriving DecidableEq

namespace Layout

/-- What stands before an entry at a depth: a new line and its indentation. -/
def lineBreak (layout : Layout) (depth : Nat) : Text :=
  match layout with
  | .compact => []
  | .indented step => .char '\n' :: List.replicate (step * depth) (.char ' ')

/-- What stands between a name and its value. -/
def colon : Layout → Text
  | .compact => ":"
  | .indented _ => ": "

/-- The entries of a list or mapping between its brackets; nothing stands between the brackets of
an empty one. -/
def enclose (layout : Layout) (depth : Nat) (opening closing : Char) (parts : List Text) : Text :=
  if parts.isEmpty then [.char opening, .char closing]
  else
    .char opening :: layout.lineBreak (depth + 1)
      ++ Text.join (.char ',' :: layout.lineBreak (depth + 1)) parts
      ++ layout.lineBreak depth ++ [.char closing]

end Layout

/-- A code point inside a string: escaped if it is a quote, a backslash or a control character. -/
def escapedPoint (p : CodePoint) : Text :=
  if p = .char '"' then "\\\""
  else if p = .char '\\' then "\\\\"
  else if p = .char '\n' then "\\n"
  else if p = .char '\r' then "\\r"
  else if p = .char '\t' then "\\t"
  else if p = .char '\x0c' then "\\f"
  else if p = .char '\x08' then "\\b"
  else if p.toNat < 0x20 then ("\\u" : Text) ++ hexText 4 p.toNat
  else [p]

/-- A text as a JSON string. -/
def writeString (t : Text) : Text := .char '"' :: t.flatMap escapedPoint ++ [.char '"']

/-- The text of a value that has no parts, as far as JSON has one: other values are shown by their
text. -/
def scalarText : Value → Text
  | .null => "null"
  | .bool b => if b then "true" else "false"
  | .int n => Text.ofInt n
  | .float x => DecimalLayout.json.render x
  | .str t => writeString t
  | .date d => writeString d.render
  | .dateTime t => writeString t.render
  | _ => "null"

/-- The name of an entry. -/
def nameText : Value → Text
  | .str t => writeString t
  | k => writeString (scalarText k)

mutual

/-- The text of a value at a depth. -/
def writeAt (layout : Layout) (depth : Nat) : Value → Text
  | .list items => layout.enclose depth '[' ']' (writeItems layout (depth + 1) items)
  | .tuple items => layout.enclose depth '[' ']' (writeItems layout (depth + 1) items)
  | .set items => layout.enclose depth '[' ']' (writeItems layout (depth + 1) items)
  | .map es => layout.enclose depth '\x7b' '\x7d' (writeEntries layout (depth + 1) es)
  | .orderedMap es => layout.enclose depth '\x7b' '\x7d' (writeEntries layout (depth + 1) es)
  | .null => scalarText .null
  | .bool b => scalarText (.bool b)
  | .int n => scalarText (.int n)
  | .float x => scalarText (.float x)
  | .str t => scalarText (.str t)
  | .bytes bs => scalarText (.bytes bs)
  | .date d => scalarText (.date d)
  | .dateTime t => scalarText (.dateTime t)

/-- The texts of the items of a list. -/
def writeItems (layout : Layout) (depth : Nat) : List Value → List Text
  | [] => []
  | v :: vs => writeAt layout depth v :: writeItems layout depth vs

/-- The texts of the entries of a mapping. -/
def writeEntries (layout : Layout) (depth : Nat) : List (Value × Value) → List Text
  | [] => []
  | (k, v) :: es =>
    (nameText k ++ layout.colon ++ writeAt layout depth v) :: writeEntries layout depth es

end

/-- The JSON text of a value. -/
def write (layout : Layout) (v : Value) : Text := writeAt layout 0 v

/-- The JSON text of a value, unless it holds an integer that is too long. -/
def write? (layout : Layout) (v : Value) : Option Text :=
  if v.isShowable then some (write layout v) else none

end AgentFlow.Json
