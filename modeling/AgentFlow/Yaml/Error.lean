import AgentFlow.Decimal.Numeral
import AgentFlow.Problem
import AgentFlow.Value.Display

/-!
# What is wrong with a YAML text

Faults of the text itself know the line they were found on, counted from zero. A scalar that does
not spell a value of its tag has a fault of its own.
-/

namespace AgentFlow.Yaml

/-- The line of a fault, with what its wording quotes of the text as it is. -/
structure Spot where
  line : Nat
  quoted : Text
  deriving DecidableEq

instance : Coe Nat Spot := ⟨fun line => ⟨line, []⟩⟩

/-- Why a YAML text has no value. -/
inductive Fault where
  /-- A character that no document may hold. -/
  | unprintable
  /-- Characters that make up no token. -/
  | token (line : Option Nat)
  /-- A token where none of its kind may stand. -/
  | order (line : Nat)
  /-- An alias without an anchor, or a second document. -/
  | composition (line : Nat)
  /-- A node that its tag does not fit. -/
  | meaning (spot : Spot)
  | duplicateKey (spot : Spot)
  /-- A version that is not known. -/
  | unsupportedVersion (major minor : Nat)
  /-- An escape of a number that is no code point. -/
  | escapeRange (number : Int)
  | badTruth (word : Text)
  | emptyNumber
  | badInteger (base : Nat) (digits : Text)
  | longInteger (digits : Nat)
  | badFloat (numeral : Text)
  /-- A double of the older version with more than one exponent. -/
  | manyExponents
  | badCalendar (e : CalendarError)
  | badOffset (offset : Text)
  /-- A key that holds a value which may change. -/
  | unhashable (kind : Text)
  /-- A key that an ordered mapping has already. -/
  | repeatedKey
  /-- An entry that cannot be shown, for an integer in it is too long. -/
  | unshowable
  /-- A node that holds itself where all that it holds is asked for. -/
  | endless
  /-- A graph that is embedded in itself, in a document with so many problems. -/
  | selfEmbedded (problems : Nat)
  deriving DecidableEq

namespace Fault

/-- The line of a fault of the text. -/
def line? : Fault → Option Nat
  | .token line => line
  | .order line => some line
  | .composition line => some line
  | .meaning spot => some spot.line
  | .duplicateKey spot => some spot.line
  | _ => none

/-- The place of a fault, counted from one. -/
def place : Option Nat → Text
  | none => []
  | some line => " in line " ++ Text.ofNat (line + 1)

/-- The place of a fault, and what is quoted there. -/
def placeAndQuote (spot : Spot) : Text := place (some spot.line) ++ ": " ++ spot.quoted

/-- The wording of a fault. -/
def message : Fault → Text
  | .unprintable => "special characters are not allowed"
  | .token line => "found no token" ++ place line
  | .order line => "found an unexpected token" ++ place (some line)
  | .composition line => "found an undefined alias or another document" ++ place (some line)
  | .meaning spot => "found a node that its tag does not fit" ++ placeAndQuote spot
  | .duplicateKey spot => "found a duplicate key" ++ placeAndQuote spot
  | .unsupportedVersion major minor =>
    "version minor part can only be 2 or 1, got (" ++ Text.ofNat major ++ ", " ++ Text.ofNat minor
      ++ ")"
  | .escapeRange n =>
    if -0x80000000 ≤ n ∧ n < 0x80000000 then "chr() arg not in range(0x110000)"
    else "Python int too large to convert to C int"
  | .badTruth word => word.quoted
  | .emptyNumber => "string index out of range"
  | .badInteger base digits => Numeral.badIntMessage base digits
  | .longInteger digits =>
    "Exceeds the limit (4300 digits) for integer string conversion: value has "
      ++ Text.ofNat digits ++ " digits; use sys.set_int_max_str_digits() to increase the limit"
  | .badFloat numeral => "could not convert string to float: " ++ numeral.quoted
  | .manyExponents => "too many values to unpack (expected 2)"
  | .badCalendar e => e.message
  | .badOffset offset =>
    "offset must be a timedelta strictly between -timedelta(hours=24) and timedelta(hours=24), not "
      ++ offset ++ "."
  | .unhashable kind => "unhashable type: '" ++ kind ++ "'"
  | .repeatedKey => []
  | .unshowable => Value.unshowableMessage
  | .endless => "maximum recursion depth exceeded"
  | .selfEmbedded problems => Problem.summary problems

end Fault

end AgentFlow.Yaml
