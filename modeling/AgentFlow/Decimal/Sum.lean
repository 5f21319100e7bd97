import AgentFlow.Decimal.Double

/-!
# Sums and multiples of doubles

The sum of two doubles and the multiple of a double by a natural number, each the exact value
rounded to the nearest double.
-/

namespace AgentFlow.Double

/-- The exact value of a finite double as a quotient with its sign. -/
def signedRatio (x : Double) : Int × Nat :=
  let r := x.ratio
  (if x.negative then -(r.1 : Int) else r.1, r.2)

/-- The sum of two doubles. Infinities of both signs have none. -/
def add (x y : Double) : Double :=
  if x.isNaN || y.isNaN then nan
  else if x.isInfinite then
    if y.isInfinite && x.negative != y.negative then nan else x
  else if y.isInfinite then y
  else
    let a := x.signedRatio
    let b := y.signedRatio
    let sum : Int := a.1 * b.2 + b.1 * a.2
    let negative := if sum = 0 then x.negative && y.negative else sum < 0
    ofRatio negative sum.natAbs (a.2 * b.2)

/-- A double times a natural number that is not zero. -/
def multiple (x : Double) (n : Nat) : Double :=
  if x.isFinite then
    let r := x.ratio
    ofRatio x.negative (r.1 * n) r.2
  else x

/-- A double with its sign turned. -/
def negate (x : Double) : Double := if x.isNaN then x else { x with negative := !x.negative }

end AgentFlow.Double
