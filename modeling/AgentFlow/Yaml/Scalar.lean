import AgentFlow.Decimal.Numeral
import AgentFlow.Decimal.Sum
import AgentFlow.Text.Case
import AgentFlow.Yaml.Error
import AgentFlow.Yaml.Tag

/-!
# Scalar values

The value that the text of a scalar spells under its tag. A tag may be written in front of any text,
so each reading can fail.
-/

namespace AgentFlow.Yaml

/-- A truth value. -/
def truthValue (t : Text) : Except Fault Value :=
  let word := t.lower
  if ["true", "yes", "y", "on"].any fun w => word == Text.ofString w then .ok (.bool true)
  else if ["false", "no", "n", "off"].any fun w => word == Text.ofString w then .ok (.bool false)
  else .error (.badTruth word)

/-! ## Numbers -/

/-- The integer that a text spells in a base. A decimal one has no more than 4300 digits. -/
def readInteger (base : Nat) (t : Text) : Except Fault Int :=
  match Numeral.readInt? base t with
  | none => .error (.badInteger base t)
  | some n =>
    let count := Numeral.digitCount t
    if base = 10 ∧ 4300 < count then .error (.longInteger count) else .ok n

/-- The number whose digits of base sixty are the parts between colons. -/
def sixtyInteger (t : Text) : Except Fault Int := do
  let parts ← (Text.splitOn (.char ':') t).mapM (readInteger 10)
  .ok (parts.foldl (fun n d => n * 60 + d) 0)

/-- A text without its sign, and whether that is a minus. -/
def splitSign : Text → Bool × Text
  | .char '-' :: rest => (true, rest)
  | .char '+' :: rest => (false, rest)
  | t => (false, t)

/-- An integer without its sign: the mark of its base comes first. -/
def unsignedInteger (isOld : Bool) (t : Text) : Except Fault Int :=
  match t with
  | [.char '0'] => .ok 0
  | .char '0' :: .char 'b' :: ds => readInteger 2 ds
  | .char '0' :: .char 'x' :: ds => readInteger 16 ds
  | .char '0' :: .char 'o' :: ds => readInteger 8 ds
  | _ =>
    if !isOld then readInteger 10 t
    else
      match t with
      | [] => .error .emptyNumber
      | .char '0' :: _ => readInteger 8 t
      | _ => if t.contains (.char ':') then sixtyInteger t else readInteger 10 t

/-- An integer; low lines in it do not count. -/
def integerValue (isOld : Bool) (t : Text) : Except Fault Value :=
  let t := t.filter (· != .char '_')
  if t.isEmpty then .error .emptyNumber
  else do
    let (negative, body) := splitSign t
    let n ← unsignedInteger isOld body
    .ok (.int (if negative then -n else n))

/-- The double that a text spells. -/
def readFloat (t : Text) : Except Fault Double :=
  match Numeral.readDouble? t with
  | some x => .ok x
  | none => .error (.badFloat t)

/-- The sum of digits of base sixty, the last of them first. -/
def sixtySum : Nat → List Double → Double → Double
  | _, [], sum => sum
  | unit, d :: ds, sum => sixtySum (unit * 60) ds (sum.add (d.multiple unit))

/-- The number of exponents in a double in small letters. -/
def exponentCount (t : Text) : Nat := t.count (.char 'e')

/-- A double without its sign. -/
def unsignedFloat (isOld : Bool) (t : Text) : Except Fault Double :=
  if t == Text.ofString ".inf" then .ok (Double.infinity false)
  else if t == Text.ofString ".nan" then .ok Double.nan
  else if isOld && t.contains (.char ':') then do
    let digits ← (Text.splitOn (.char ':') t).mapM readFloat
    .ok (sixtySum 1 digits.reverse ⟨false, 0⟩)
  else if isOld && 1 < exponentCount t then .error .manyExponents
  else readFloat t

/-- The numeral of a double: small letters, without low lines. -/
def floatNumeral (t : Text) : Text := Text.lower (t.filter (· != .char '_'))

/-- Whether a text spells, with a point, what is not a number. -/
def spellsNaN (t : Text) : Bool := (splitSign (floatNumeral t)).2 == Text.ofString ".nan"

/-- A double; low lines in it do not count. -/
def floatValue (isOld : Bool) (t : Text) : Except Fault Value :=
  let t := floatNumeral t
  if t.isEmpty then .error .emptyNumber
  else do
    let (negative, body) := splitSign t
    let x ← unsignedFloat isOld body
    .ok (.float (if negative then x.negate else x))

/-! ## Times -/

/-- The microseconds of a fraction, rounded at the seventh digit; a million is a whole second. -/
def microseconds (fraction : List Char) : Nat :=
  let kept := fraction.take 6
  let n := ofDigits 10 (kept ++ List.replicate (6 - kept.length) '0')
  match fraction.drop 6 with
  | d :: _ => if 4 < digitValue d then n + 1 else n
  | [] => n

/-- The minutes of an offset after its sign. -/
def offsetMinutes (cs : List Char) : Nat :=
  let hours := cs.takeWhile Char.isDigit
  ofDigits 10 hours * 60 + ofDigits 10 ((cs.drop hours.length).drop 1)

/-- An offset as it is written; it is less than a day. -/
def readZone (cs : List Char) : Except Fault (Option ZoneOffset) :=
  match cs with
  | [] => .ok none
  | 'Z' :: _ => .ok (some ⟨0, Text.ofChars cs⟩)
  | sign :: rest =>
    let n : Int := offsetMinutes rest
    let z : ZoneOffset := ⟨if sign == '-' then -n else n, Text.ofChars cs⟩
    if n < 1440 then .ok (some z) else .error (.badOffset z.lengthLiteral)

/-- The value of the fields of a timestamp. -/
def timestampValue (f : TimestampFields) : Except Fault Value :=
  let date := (Date.check (ofDigits 10 f.year) (ofDigits 10 f.month) (ofDigits 10 f.day)).mapError
    Fault.badCalendar
  match f.clock with
  | none => date.map .date
  | some clock => do
    let zone ← readZone clock.zone
    let micro := microseconds clock.fraction
    let time ← (DateTime.check (← date) (ofDigits 10 clock.hour) (ofDigits 10 clock.minute)
      (ofDigits 10 clock.second) (micro % 1000000) zone).mapError Fault.badCalendar
    if micro < 1000000 then .ok (.dateTime time)
    else (time.nextSecond.mapError Fault.badCalendar).map .dateTime

/-! ## Bytes -/

/-- The value of a digit of base 64. -/
def base64Digit? (c : Char) : Option Nat :=
  if 'A' ≤ c && c ≤ 'Z' then some (c.toNat - 65)
  else if 'a' ≤ c && c ≤ 'z' then some (c.toNat - 71)
  else if c.isDigit then some (c.toNat + 4)
  else if c == '+' then some 62
  else if c == '/' then some 63
  else none

/-- The bytes of base 64 text. `held` are the digits read of the current group of four, and `pads`
the equals signs after them; other characters are passed over. None if a group is left open. -/
def base64Bytes? (held : List Nat) (pads : Nat) : List Char → Option (List UInt8)
  | [] => if held.isEmpty then some [] else none
  | c :: rest =>
    if c == '=' then
      if 2 ≤ held.length then
        if 4 ≤ held.length + pads + 1 then some (close held)
        else base64Bytes? held (pads + 1) rest
      else base64Bytes? held pads rest
    else
      match base64Digit? c with
      | none => base64Bytes? held pads rest
      | some d =>
        match held with
        | [a, b, e] => (base64Bytes? [] 0 rest).map (group a b e d ++ ·)
        | _ => base64Bytes? (held ++ [d]) 0 rest
where
  /-- The three bytes of four digits. -/
  group (a b c d : Nat) : List UInt8 :=
    [UInt8.ofNat (a * 4 + b / 16), UInt8.ofNat (b % 16 * 16 + c / 4), UInt8.ofNat (c % 4 * 64 + d)]
  /-- The whole bytes of a group that is cut off. -/
  close : List Nat → List UInt8
    | [a, b] => (group a b 0 0).take 1
    | [a, b, c] => (group a b c 0).take 2
    | _ => []

/-! ## All tags -/

/-- The value of a scalar. A tag for collections, and one that is not known, fits no scalar. -/
def scalarValue (isOld : Bool) (line : Nat) (tag : Tag) (t : Text) : Except Fault Value :=
  match tag with
  | .null => .ok .null
  | .bool => truthValue t
  | .int => integerValue isOld t
  | .float => floatValue isOld t
  | .timestamp =>
    match t.chars?.bind fun cs => timestampFields? (dropLastFeed cs) with
    | some fields => timestampValue fields
    | none => .error (.meaning ⟨line, t⟩)
  | .binary =>
    match t.chars? with
    | none => .error (.meaning line)
    | some cs =>
      match if cs.all (·.toNat < 128) then base64Bytes? [] 0 cs else none with
      | some bs => .ok (.bytes bs)
      | none => .error (.meaning line)
  | .str => .ok (.str t)
  | _ => .error (.meaning line)

end AgentFlow.Yaml
