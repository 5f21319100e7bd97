import AgentFlow.Decimal.Numeral
import AgentFlow.Problem

/-!
# Numbers in texts

A member that holds a number may be written as a text. A whole number has white space around it, a
plus sign, zeros in front, single low lines between its digits, and a point with zeros behind it
only; at most 4300 characters are read. A decimal has white space around it or low lines between
its digits, but not both.

* `wholeNumber`: the integer of a text, or what is wrong with it.
* `decimalNumber?`: the double of a text.
-/

namespace AgentFlow.Numeral

/-! ## Low lines -/

/-- A row of characters without its low lines, each of which has to stand alone between others. -/
def dropLines? (cs : List Char) : Option (List Char) :=
  let parts := Text.splitOn '_' cs
  if parts.all (!·.isEmpty) then some parts.flatten else none

/-! ## Whole numbers -/

/-- What is left of a numeral behind the zeros in front of it, the last of which is given. Low lines
among the zeros are passed over. A zero is kept in front of a point and at the end; what follows
the zeros may also be a minus sign. -/
def afterZeros? (last : Char) : List Char → Option (List Char)
  | [] => some [last]
  | c :: rest =>
    if c == '0' || c == '_' then afterZeros? c rest
    else if c.isDigit || c == '-' then some (c :: rest)
    else if c == '.' then some (last :: c :: rest)
    else none

/-- A numeral without the zeros in front of it; none if it starts with something else than a digit
or a minus sign. -/
def dropZeros? : List Char → Option (List Char)
  | [] => none
  | c :: rest =>
    if c == '0' then afterZeros? c rest
    else if c.isDigit || c == '-' then some (c :: rest)
    else none

/-- A numeral without the point and the zeros at its end; a point needs one zero at least. -/
def dropFraction (cs : List Char) : List Char :=
  match cs.reverse.takeWhile (· == '0'), cs.reverse.dropWhile (· == '0') with
  | _ :: _, '.' :: whole => whole.reverse
  | _, _ => cs

/-- The number of characters of a whole number that are read. -/
def wholeLimit : Nat := 4300

/-- The integer of a sign and digits without a zero in front. -/
def signedDigits (cs : List Char) : Except ProblemKind Int :=
  let (negative, ds) : Bool × List Char :=
    match cs with
    | '-' :: ds => (true, ds)
    | ds => (false, ds)
  let run := ds.takeWhile Char.isDigit
  if ds = ['0'] then .ok 0
  else if ds.isEmpty || ds.head? = some '0' then .error .intParsing
  else if wholeLimit < run.length + (if negative then 1 else 0) then .error .intParsingSize
  else if run.length < ds.length then .error .intParsing
  else .ok (if negative then -(ofDigits 10 ds : Int) else ofDigits 10 ds)

/-- The numeral behind a plus sign; a minus sign may not follow it. -/
def dropPlus? : List Char → Option (List Char)
  | '+' :: '-' :: _ => none
  | '+' :: cs => some cs
  | cs => some cs

/-- The integer that a text spells, or what is wrong with the text. -/
def wholeNumber (t : Text) : Except ProblemKind Int :=
  match t.chars? with
  | none => .error .stringUnicode
  | some _ =>
    let whole? := ((t.trim.chars?.bind dropPlus?).bind dropZeros?).map dropFraction
    let digits? := whole?.bind dropLines?
    match digits? with
    | none => .error .intParsing
    | some cs => signedDigits cs

/-! ## Decimals -/

/-- The digits of a decimal without low lines, and what follows. -/
def plainDigits (cs : List Char) : List Char × List Char :=
  (cs.takeWhile Char.isDigit, cs.dropWhile Char.isDigit)

/-- The exponent at the end of a decimal. -/
def plainExponent? : List Char → Option Int
  | [] => some 0
  | e :: rest =>
    if e == 'e' || e == 'E' then
      let (negative, ds) := splitSign rest
      if !ds.isEmpty && ds.all Char.isDigit then
        let n : Int := ofDigits 10 ds
        some (if negative then -n else n)
      else none
    else none

/-- The double that a row of characters spells: a decimal, or the name of infinity or of what is no
number. -/
def plainDouble? (cs : List Char) : Option Double :=
  let (negative, body) := splitSign cs
  let word := String.ofList (body.map Char.toLower)
  if word == "inf" || word == "infinity" then some (Double.infinity negative)
  else if word == "nan" then some Double.nan
  else
    let (whole, rest) := plainDigits body
    let (part, rest) :=
      match rest with
      | '.' :: rest => plainDigits rest
      | _ => ([], rest)
    if whole.isEmpty && part.isEmpty then none
    else
      (plainExponent? rest).map fun e =>
        Double.ofDecimal negative (ofDigits 10 (whole ++ part)) (e - part.length)

/-- The double that a text spells: a decimal with white space around it, or one with low lines
between its characters. -/
def decimalNumber? (t : Text) : Option Double :=
  (t.trim.chars?.bind plainDouble?).or ((t.chars?.bind dropLines?).bind plainDouble?)

/-! ## Examples -/

example : wholeNumber " +1_0.00 " = .ok 10 := by rfl

example : wholeNumber "0__-1" = .ok (-1) := by rfl

example : wholeNumber "1." = .error .intParsing := by rfl

end AgentFlow.Numeral
