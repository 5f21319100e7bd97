import AgentFlow.Text.Basic

/-!
# Letters in ASCII

Punycode writes a label with letters beyond ASCII in ASCII. The ASCII letters come first; behind a
hyphen stand the others, in ascending order, each as a number that says how far it lies from the one
before, in value and in place. The numbers are written in digits of base 36 with thresholds that
adapt to the numbers seen so far, the least significant digit first.

* `Punycode.encode`: the ASCII letters for a label.
* `Punycode.decode?`: the label that ASCII letters spell.
-/

namespace AgentFlow.Punycode

/-- The digit of a value below 36. -/
def digit (n : Nat) : Char := if n < 26 then Char.ofNat (97 + n) else Char.ofNat (22 + n)

/-- The value of a digit. -/
def value? (c : Char) : Option Nat :=
  if c.isLower then some (c.toNat - 97)
  else if c.isDigit then some (c.toNat - 22)
  else none

/-- The least value of a digit that is not the last one of its number. -/
def threshold (bias position : Nat) : Nat := max 1 (min 26 (position - bias))

theorem threshold_pos (bias position : Nat) : 0 < threshold bias position := by
  unfold threshold; omega

/-- How often a number is divided until it is small, counted in positions, and what is left. -/
def shrink (delta position : Nat) : Nat × Nat :=
  if 455 < delta then shrink (delta / 35) (position + 36) else (delta, position)
termination_by delta
decreasing_by omega

/-- The bias for the next number. -/
def adapt (delta count : Nat) (isFirst : Bool) : Nat :=
  let delta := if isFirst then delta / 700 else delta / 2
  let (delta, position) := shrink (delta + delta / count) 0
  position + 36 * delta / (delta + 38)

/-! ## Writing -/

/-- The digits of a number. -/
def digits (bias position n : Nat) : List Char :=
  let t := threshold bias position
  if n < t then [digit n]
  else digit (t + (n - t) % (36 - t)) :: digits bias (position + 36) ((n - t) / (36 - t))
termination_by n
decreasing_by
  have := threshold_pos bias position
  have := Nat.div_le_self (n - threshold bias position) (36 - threshold bias position)
  omega

/-- What is known while a label is written. -/
structure Encoder where
  /-- How many letters have been written. -/
  count : Nat
  bias : Nat
  /-- How far the next letter lies from the last one. -/
  delta : Nat
  isFirst : Bool
  written : List Char

/-- One letter of the label while those of number `point` are written. -/
def Encoder.pass (point : Nat) (e : Encoder) (c : Char) : Encoder :=
  if c.toNat < point then { e with delta := e.delta + 1 }
  else if c.toNat = point then
    { count := e.count + 1
      bias := adapt e.delta (e.count + 1) e.isFirst
      delta := 0
      isFirst := false
      written := e.written ++ digits e.bias 36 e.delta }
  else e

/-- The letters of a label, number by number. -/
def Encoder.run (label : List Char) : Nat → List Nat → Encoder → Encoder
  | _, [], e => e
  | next, point :: points, e =>
    let e := label.foldl (pass point) { e with delta := e.delta + (point - next) * (e.count + 1) }
    run label (point + 1) points { e with delta := e.delta + 1 }

/-- Whether a character is ASCII. -/
def isBasic (c : Char) : Bool := c.toNat < 0x80

/-- A label in ASCII letters. -/
def encode (label : List Char) : List Char :=
  let basic := label.filter isBasic
  let points := ((label.filter fun c => !isBasic c).map Char.toNat).eraseDups.mergeSort
  let e := Encoder.run label 0x80 points ⟨basic.length, 72, 0, true, []⟩
  (if basic.isEmpty then [] else basic ++ ['-']) ++ e.written

/-! ## Reading -/

/-- What is known while a label is read. -/
structure Decoder where
  letters : List Nat
  /-- The number of the last letter that was read. -/
  point : Nat
  /-- The place behind that letter. -/
  place : Nat
  bias : Nat
  /-- The number that is being read, the weight of its next digit and the position of that. -/
  delta : Nat
  weight : Nat
  position : Nat
  isFirst : Bool

/-- One digit more. The last one of a number puts a letter in its place. -/
def Decoder.feed? (d : Decoder) (c : Char) : Option Decoder := do
  let n ← value? c
  let t := threshold d.bias d.position
  let delta := d.delta + n * d.weight
  if n < t then
    let count := d.letters.length + 1
    let point := d.point + (d.place + delta) / count
    let place := (d.place + delta) % count
    if point < 0x110000 then
      return { letters := d.letters.take place ++ point :: d.letters.drop place
               point := point
               place := place + 1
               bias := adapt delta count d.isFirst
               delta := 0
               weight := 1
               position := 36
               isFirst := false }
    else none
  else return { d with delta := delta, weight := d.weight * (36 - t), position := d.position + 36 }

/-- The label that ASCII letters spell. Its letters are given as numbers, for halves of a surrogate
pair can be spelled as well. -/
def decode? (t : List Char) : Option (List Nat) := do
  let tail := (t.reverse.takeWhile (· != '-')).reverse
  let basic := t.take (t.length - tail.length - 1)
  let d ← tail.foldlM Decoder.feed? ⟨basic.map Char.toNat, 0x80, 0, 72, 0, 1, 36, true⟩
  if d.position = 36 then some d.letters else none

example : encode "bücher".toList = "bcher-kva".toList := by decide +kernel

example : decode? "bcher-kva".toList = some ("bücher".toList.map Char.toNat) := by decide +kernel

end AgentFlow.Punycode
