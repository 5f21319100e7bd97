import AgentFlow.Decimal.Double
import AgentFlow.Text.Basic

/-!
# The shortest decimal of a double

A double is written with the fewest significant digits that read back as the same double, and of
the decimals with that many digits the one nearest to it. The decimals of `n` digits form a grid
around the value; only the value's two neighbours on the grid can be the answer.

* `Double.shortest_reads_back`: what is written reads back, by construction.
-/

namespace AgentFlow

/-- The number of decimal digits of a natural number. -/
def digitCount (n : Nat) : Nat := (Nat.toDigits 10 n).length

/-- The decimal exponent of a positive quotient: `k` with `10 ^ k ≤ num / den < 10 ^ (k + 1)`. -/
def decimalExponent (num den : Nat) : Int :=
  if den ≤ num then (digitCount (num / den) : Int) - 1
  else
    let k := digitCount (den / num)
    if den ≤ num * Nat.pow 10 (k - 1) then -((k : Int) - 1) else -(k : Int)

/-- The multiples of `10 ^ e` next to `num / den`, the nearer one first; of two equally near ones
the even one. Each is given by its factor. -/
def gridNeighbours (num den : Nat) (e : Int) : List Nat :=
  let p := powerRatio 10 e
  let n := num * p.2
  let d := den * p.1
  let low := n / d
  let near := roundQuotient n d
  [near, if near = low then low + 1 else low]

/-- A decimal coefficient without its final zeros, and the exponent that makes up for them. -/
def dropZeros : Nat → Nat → Int → Nat × Int
  | 0, c, e => (c, e)
  | fuel + 1, c, e => if c % 10 = 0 ∧ c ≠ 0 then dropZeros fuel (c / 10) (e + 1) else (c, e)

namespace Double

/-- The first neighbour on the grids of `digits`, `digits + 1`, … digits that reads back. -/
def shortestFrom (x : Double) (k : Int) : Nat → Nat → Option (Nat × Int)
  | 0, _ => none
  | fuel + 1, digits =>
    let e := k - digits + 1
    let r := x.ratio
    match (gridNeighbours r.1 r.2 e).find? fun c => ofDecimal x.negative c e == x with
    | some c => some (c, e)
    | none => shortestFrom x k fuel (digits + 1)

/-- The shortest decimal `(c, e)`, for `c * 10 ^ e`, of a finite double other than zero. -/
def shortest? (x : Double) : Option (Nat × Int) :=
  let r := x.ratio
  shortestFrom x (decimalExponent r.1 r.2) 17 1

theorem shortestFrom_reads_back {x : Double} {k : Int} {fuel digits : Nat} {d : Nat × Int}
    (h : shortestFrom x k fuel digits = some d) : ofDecimal x.negative d.1 d.2 = x := by
  induction fuel generalizing digits with
  | zero => simp [shortestFrom] at h
  | succ fuel ih =>
    simp only [shortestFrom] at h
    split at h
    case h_1 c hc =>
      cases h
      simpa using List.find?_some hc
    case h_2 => exact ih h

/-- The shortest decimal reads back as the double it was made from. -/
theorem shortest_reads_back {x : Double} {d : Nat × Int} (h : shortest? x = some d) :
    ofDecimal x.negative d.1 d.2 = x :=
  shortestFrom_reads_back h

end Double

end AgentFlow
