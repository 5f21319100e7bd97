import AgentFlow.Decimal.Numeral
import AgentFlow.Value.Basic

/-!
# Number literals

The value of a number literal: an integer if it is a whole number that doubles tell apart from its
neighbours, else a double. Literals with a marked base keep their exact integer.
-/

namespace AgentFlow.Script

/-- Whether a text starts with a string. -/
def startsWith (t : Text) (s : String) : Bool := (Text.ofString s).isPrefixOf t

/-- The whole numbers below which every integer is a double of its own. -/
def exactLimit : Nat := 1 <<< 53

/-- A finite double as a value: an integer if it is whole and below the limit. -/
def doubleValue (x : Double) : Value :=
  match x.toInt? with
  | some n => if n.natAbs < exactLimit then .int n else .float x
  | none => .float x

/-- The value of a numeral without low lines and in small letters. -/
def cleanNumber? (t : Text) : Option Value :=
  if t.getLast? = some (.char 'n') then none
  else if startsWith t "0x" then (Numeral.readInt? 16 t).map .int
  else if startsWith t "0o" then (Numeral.readInt? 8 t).map .int
  else if startsWith t "0b" then (Numeral.readInt? 2 t).map .int
  else
    match Numeral.readDouble? t with
    | some x => if x.isFinite then some (doubleValue x) else none
    | none => none

/-- The value of a number literal; none for the integers of any size that end in `n`, for what is
not finite and for what is no number. -/
def numberValue? (t : Text) : Option Value :=
  cleanNumber? (Text.asciiLower (t.filter (· ≠ .char '_')))

example : numberValue? "0x1_F" = some (.int 31) := by rfl

end AgentFlow.Script
