import AgentFlow.Decimal.Double
import AgentFlow.Text.Blank
import AgentFlow.Text.Digit
import AgentFlow.Text.Quoted

/-!
# Reading numerals

Numerals as a person may type them into a setting or a document: white space around, a sign, the
decimal digits of any script, and single low lines between digits.

* `readInt?`: an integer in a base from 2 to 36; base 16 allows its mark `0x`.
* `readDouble?`: a decimal with an optional point and exponent, or the name of infinity or of
  what is not a number.
-/

namespace AgentFlow.Numeral

/-- Digits of all scripts become ASCII digits, white space becomes a blank, and white space at
the ends is dropped; none if another character outside ASCII is left. -/
def normalize? (t : Text) : Option (List Char) :=
  t.trim.mapM fun
    | .surrogate _ => none
    | .char c =>
      if c.toNat < 128 then some c
      else if isSpaceChar c then some ' '
      else (decimalDigit? c).map fun d => Char.ofNat (48 + d)

/-- A sign in front of a numeral, and what follows it. -/
def splitSign : List Char → Bool × List Char
  | '-' :: rest => (true, rest)
  | '+' :: rest => (false, rest)
  | rest => (false, rest)

/-- The digits of a row of characters that satisfy `p`, with at most one low line between
neighbours; none if the row does not start and end with a digit. -/
def groupedDigits? (p : Char → Bool) : List Char → Option (List Char)
  | [] => none
  | [c] => if p c then some [c] else none
  | c :: '_' :: rest => if p c then (groupedDigits? p rest).map (c :: ·) else none
  | c :: rest => if p c then (groupedDigits? p rest).map (c :: ·) else none

/-- Whether a character is a digit of a base, letters counting on from nine. -/
def isBaseDigit (base : Nat) (c : Char) : Bool :=
  (c.isDigit || ('a' ≤ c && c ≤ 'z') || ('A' ≤ c && c ≤ 'Z')) && digitValue c < base

/-- The numeral after the mark of its base, if it has that mark; a low line may follow it. -/
def dropBaseMark (base : Nat) : List Char → List Char
  | '0' :: m :: rest =>
    if (base = 16 && (m == 'x' || m == 'X')) || (base = 8 && (m == 'o' || m == 'O'))
        || (base = 2 && (m == 'b' || m == 'B')) then
      match rest with
      | '_' :: rest => rest
      | _ => rest
    else '0' :: m :: rest
  | cs => cs

/-- The natural number that grouped digits of a base spell. -/
def readNat? (base : Nat) (cs : List Char) : Option Nat :=
  (groupedDigits? (isBaseDigit base) cs).map (ofDigits base)

/-- The number of digits of a decimal numeral. -/
def digitCount (t : Text) : Nat :=
  t.countP fun p => p.isChar fun c => (decimalDigit? c).isSome

/-- The integer that a text spells in a base. -/
def readInt? (base : Nat) (t : Text) : Option Int := do
  let cs ← normalize? t
  let (negative, cs) := splitSign cs
  let n ← readNat? base (dropBaseMark base cs)
  some (if negative then -(n : Int) else n)

/-- The number of characters of a display that a message repeats. -/
def shownLimit : Nat := 200

/-- What is said about a text that spells no integer in a base; a long text is cut off. -/
def badIntMessage (base : Nat) (t : Text) : Text :=
  "invalid literal for int() with base " ++ Text.ofNat base ++ ": " ++ t.quoted.take shownLimit

/-- A row of characters cut at the first that satisfies `p`, which is dropped. -/
def cutAt (p : Char → Bool) (cs : List Char) : List Char × Option (List Char) :=
  match cs.dropWhile (!p ·) with
  | [] => (cs, none)
  | _ :: rest => (cs.takeWhile (!p ·), some rest)

/-- Grouped decimal digits that may be missing altogether. -/
def optionalDigits? (cs : List Char) : Option (List Char) :=
  if cs.isEmpty then some [] else groupedDigits? Char.isDigit cs

/-- The exponent of a decimal, zero if there is none. -/
def readExponent? : Option (List Char) → Option Int
  | none => some 0
  | some cs => do
    let (negative, cs) := splitSign cs
    let n ← readNat? 10 cs
    some (if negative then -(n : Int) else n)

/-- The decimal with a point and an exponent that a row of characters spells. -/
def readDecimal? (negative : Bool) (cs : List Char) : Option Double := do
  let (body, exponent) := cutAt (fun c => c == 'e' || c == 'E') cs
  let (whole, part) := cutAt (· == '.') body
  let exponent ← readExponent? exponent
  let whole ← optionalDigits? whole
  let part ← optionalDigits? (part.getD [])
  if whole.isEmpty && part.isEmpty then none
  else some (Double.ofDecimal negative (ofDigits 10 (whole ++ part)) (exponent - part.length))

/-- The double that a text spells. -/
def readDouble? (t : Text) : Option Double := do
  let cs ← normalize? t
  let (negative, cs) := splitSign cs
  let word := String.ofList (cs.map Char.toLower)
  if word == "inf" || word == "infinity" then some (Double.infinity negative)
  else if word == "nan" then some Double.nan
  else readDecimal? negative cs

example : readInt? 16 "-0x_fF" = some (-255) := by decide

example : readInt? 10 "1__0" = none := by decide

end AgentFlow.Numeral
