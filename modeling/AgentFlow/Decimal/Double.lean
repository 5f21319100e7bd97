/-!
# Doubles

A double of the IEEE 754 binary64 format, as its sign and the rank of its magnitude: the number
of doubles of that sign that lie closer to zero. The rank is the exponent and fraction fields
read as one number, so neighbouring doubles have neighbouring ranks, and infinity follows the
greatest finite one. All arithmetic here is exact, on natural numbers.

* `Double.ofRatio`: the double nearest to a quotient, of two equally near ones the one with the
  even mantissa.
* `roundQuotient_half`: that rounding is off by half a unit at most.
-/

namespace AgentFlow

/-- A double: its sign, and the rank of its magnitude among the doubles of that sign. Ranks above
the rank of infinity are not numbers. -/
structure Double where
  negative : Bool
  rank : Nat
  deriving DecidableEq, Inhabited

/-- The integer nearest to `num / den`, of two equally near ones the even one. -/
def roundQuotient (num den : Nat) : Nat :=
  let q := num / den
  let r := num % den
  if 2 * r < den then q
  else if den < 2 * r then q + 1
  else if q % 2 = 0 then q else q + 1

theorem roundQuotient_half (num : Nat) {den : Nat} (h : 0 < den) :
    2 * (roundQuotient num den * den) ≤ 2 * num + den ∧
      2 * num ≤ 2 * (roundQuotient num den * den) + den := by
  have hq := Nat.div_add_mod num den
  have hr := Nat.mod_lt num h
  unfold roundQuotient
  simp only []
  generalize num / den = q at *
  generalize num % den = r at *
  have hc : den * q = q * den := Nat.mul_comm _ _
  split <;> (try split) <;> (try split) <;> (try rw [Nat.add_mul]) <;> omega

/-- `base ^ e` over one or one over `base ^ (-e)`, as numerator and denominator. -/
def powerRatio (base : Nat) (e : Int) : Nat × Nat :=
  (base.pow e.toNat, base.pow (-e).toNat)

namespace Double

/-- The number of doubles of one sign and exponent: `2 ^ 52`. -/
def binade : Nat := 1 <<< 52

/-- The rank of infinity. -/
def infiniteRank : Nat := 2047 * binade

def infinity (negative : Bool) : Double := ⟨negative, infiniteRank⟩

/-- One of the doubles that are no numbers, told apart from the others by a number of its own. -/
def nanOf (n : Nat) : Double := ⟨false, infiniteRank + binade / 2 + n⟩

def nan : Double := nanOf 0

def isFinite (x : Double) : Bool := x.rank < infiniteRank

def isInfinite (x : Double) : Bool := x.rank == infiniteRank

def isNaN (x : Double) : Bool := infiniteRank < x.rank

/-- The mantissa of a finite double: a whole number below `2 ^ 53`, which is two binades. -/
def mantissa (x : Double) : Nat :=
  if x.rank < binade then x.rank else binade + x.rank % binade

/-- The exponent of a finite double, whose magnitude is `mantissa * 2 ^ exponent`. -/
def exponent (x : Double) : Int :=
  if x.rank < binade then -1074 else (x.rank / binade : Nat) - 1075

theorem mantissa_lt (x : Double) : x.mantissa < 2 * binade := by
  unfold mantissa
  split
  · omega
  · have := Nat.mod_lt x.rank (show 0 < binade by decide)
    omega

/-- The magnitude of a finite double as a quotient of natural numbers. -/
def ratio (x : Double) : Nat × Nat :=
  let p := powerRatio 2 x.exponent
  (x.mantissa * p.1, p.2)

/-- The rank of the double nearest to `num / den`, where `den` is positive. The binary exponent
is chosen so that the rounded mantissa has 53 bits, or fewer below the normal range; a mantissa
that rounds up to `2 ^ 53` lands on the first rank of the next exponent by itself. -/
def rankOfRatio (num den : Nat) : Nat :=
  if num = 0 then 0
  else
    let guess : Int := (num.log2 : Int) - den.log2 - 53
    let p := powerRatio 2 guess
    let e := if num * p.2 < 2 * binade * (den * p.1) then guess else guess + 1
    let e := max e (-1074)
    let s := powerRatio 2 e
    let m := roundQuotient (num * s.2) (den * s.1)
    min infiniteRank ((e + 1074).toNat * binade + m)

/-- The double nearest to `num / den` with a given sign. -/
def ofRatio (negative : Bool) (num den : Nat) : Double := ⟨negative, rankOfRatio num den⟩

/-- The double nearest to an integer. -/
def ofInt (n : Int) : Double := ofRatio (n < 0) n.natAbs 1

/-- The double nearest to `coefficient * 10 ^ exponent`. Magnitudes that are out of all range are
decided by their number of digits. -/
def ofDecimal (negative : Bool) (coefficient : Nat) (exponent : Int) : Double :=
  if coefficient = 0 then ⟨negative, 0⟩
  else
    let size : Int := (Nat.toDigits 10 coefficient).length + exponent
    if size > 400 then infinity negative
    else if size < -400 then ⟨negative, 0⟩
    else
      let p := powerRatio 10 exponent
      ofRatio negative (coefficient * p.1) p.2

/-- The integer that a double is equal to, if it is a whole number. -/
def toInt? (x : Double) : Option Int :=
  if x.isFinite then
    let r := x.ratio
    if r.1 % r.2 = 0 then
      some (if x.negative then -((r.1 / r.2 : Nat) : Int) else (r.1 / r.2 : Nat))
    else none
  else none

theorem ofInt_zero : ofInt 0 = ⟨false, 0⟩ := by decide

theorem rankOfRatio_le (num den : Nat) : rankOfRatio num den ≤ infiniteRank := by
  unfold rankOfRatio
  split
  · exact Nat.zero_le _
  · exact Nat.min_le_left _ _

end Double

end AgentFlow
