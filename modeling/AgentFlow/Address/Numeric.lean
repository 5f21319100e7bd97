import AgentFlow.Text.Digit

/-!
# Numeric hosts

A host may be given by its number: as four numbers with dots between them, or as eight hexadecimal
numbers with colons between them, of which a row of zeros may be left out.

* `isDotted`: whether a host looks like four numbers; it must be four numbers then (`isQuad`).
* `isColonNumber`: whether a text is eight hexadecimal numbers.
-/

namespace AgentFlow.Address

/-! ## Four numbers -/

/-- Whether a code point is an ASCII digit. -/
def isDigitPoint (p : CodePoint) : Bool := p.isChar Char.isDigit

/-- The lengths of the rows of digits of a text, one more than it has other code points. -/
def digitRows : Text → List Nat
  | [] => [0]
  | p :: rest =>
    if isDigitPoint p then
      match digitRows rest with
      | n :: ns => (n + 1) :: ns
      | [] => [1]
    else 0 :: digitRows rest

/-- Whether a text looks like four numbers: four rows of digits with one code point between each
two, which may itself be a digit. A row of digits can be cut in two at every second digit. -/
def isDotted (t : Text) : Bool :=
  let rows := digitRows t
  rows.all (0 < ·) && rows.length ≤ 4
    && 4 ≤ rows.foldr (fun n count => (n - 1) / 2 + count) rows.length

/-- Whether a text is a number below 256, without zeros in front. -/
def isOctet (t : Text) : Bool :=
  match t.chars? with
  | none => false
  | some cs =>
    !cs.isEmpty && cs.all Char.isDigit && cs.length ≤ 3 && (cs.length = 1 || cs.head? != some '0')
      && ofDigits 10 cs < 256

/-- Whether a text is four numbers with dots between them. -/
def isQuad (t : Text) : Bool :=
  let parts := Text.splitOn (.char '.') t
  parts.length = 4 && parts.all isOctet

/-! ## Eight numbers -/

/-- Whether a text is a hexadecimal number of sixteen bits. -/
def isHextet (t : Text) : Bool :=
  !t.isEmpty && t.length ≤ 4 && t.all fun p => p.isChar (isDigitOf 16)

/-- The parts between colons, with the two numbers that four numbers at the end stand for. -/
def hextets? (t : Text) : Option (List Text) :=
  let parts := Text.splitOn (.char ':') t
  match parts.getLast? with
  | some last =>
    if last.contains (.char '.') then
      if isQuad last then some (parts.dropLast ++ [("0" : Text), "0"]) else none
    else some parts
  | none => none

/-- The parts in front of the first empty one, and those behind it. -/
def cutAtGap : List Text → Option (List Text × List Text)
  | [] => none
  | part :: parts =>
    if part.isEmpty then some ([], parts)
    else (cutAtGap parts).map fun e => (part :: e.1, e.2)

/-- The numbers of parts at an end, which a row of zeros may leave empty. -/
def endParts (parts : List Text) : List Text := if parts == [[]] then [] else parts

/-- Whether parts are eight numbers, or less with one row of zeros left out. The first and the last
part are empty only next to such a row. -/
def areHextets (parts : List Text) : Bool :=
  match parts with
  | first :: rest =>
    match cutAtGap rest.dropLast with
    | none => parts.length = 8 && parts.all isHextet
    | some (before, after) =>
      let numbers := endParts (first :: before) ++ endParts (after ++ rest.getLast?.toList)
      numbers.length ≤ 7 && numbers.all isHextet
  | [] => false

/-- Whether a text is eight hexadecimal numbers, with the name of a network behind a percent sign if
it has one. -/
def isColonNumber (t : Text) : Bool :=
  match Text.splitOn (.char '%') t with
  | [number] => isNumber number
  | [number, network] => !network.isEmpty && isNumber number
  | _ => false
where
  isNumber (t : Text) : Bool :=
    3 ≤ (Text.splitOn (.char ':') t).length
      && match hextets? t with
        | some parts => parts.length ≤ 9 && areHextets parts
        | none => false

example : isColonNumber "2001:DB8::1" = true := by decide +kernel

example : isColonNumber "1::2::3" = false := by decide +kernel

end AgentFlow.Address
