import AgentFlow.Decimal.Shortest

/-!
# How a double is written

The digits of a double are fixed by `Double.shortest?`; a `DecimalLayout` says how they are set
out. Two layouts are used, and they differ in the names of infinity and of what is not a number.
-/

namespace AgentFlow

/-- The decisions of a decimal notation: between which decimal exponents a number is written
without an exponent, how many digits an exponent has at least, and the names of the values that
have no digits. -/
structure DecimalLayout where
  positionalFrom : Int
  positionalBelow : Int
  exponentWidth : Nat
  infinity : Text
  nan : Text

/-- Numbers from `10 ^ -4` up to `10 ^ 16` are written without an exponent, others with an
exponent of two digits or more; a whole number keeps the digit after its point. -/
def DecimalLayout.plain : DecimalLayout where
  positionalFrom := -4
  positionalBelow := 16
  exponentWidth := 2
  infinity := "inf"
  nan := "nan"

/-- The layout of numbers in JSON text: plain, with `Infinity` and `NaN`. -/
def DecimalLayout.json : DecimalLayout :=
  { DecimalLayout.plain with infinity := "Infinity", nan := "NaN" }

namespace DecimalLayout

/-- An exponent after its mark: a sign and the digits, filled up with zeros. -/
def exponentText (layout : DecimalLayout) (k : Int) : Text :=
  let ds := Nat.toDigits 10 k.natAbs
  .char 'e' :: .char (if k < 0 then '-' else '+')
    :: Text.ofChars (List.replicate (layout.exponentWidth - ds.length) '0' ++ ds)

/-- The number whose significant digits are `ds` and whose first digit counts `10 ^ k`. -/
def digitsText (layout : DecimalLayout) (ds : List Char) (k : Int) : Text :=
  if layout.positionalFrom ≤ k && k < layout.positionalBelow then
    if k < 0 then
      Text.ofChars ('0' :: '.' :: List.replicate (k.natAbs - 1) '0' ++ ds)
    else
      let whole := ds.take (k.toNat + 1)
      let whole := whole ++ List.replicate (k.toNat + 1 - whole.length) '0'
      let part := ds.drop (k.toNat + 1)
      Text.ofChars (whole ++ '.' :: (if part.isEmpty then ['0'] else part))
  else
    match ds with
    | [] => []
    | d :: [] => .char d :: layout.exponentText k
    | d :: part => .char d :: .char '.' :: Text.ofChars part ++ layout.exponentText k

/-- The text of a magnitude, without its sign. -/
def magnitudeText (layout : DecimalLayout) (x : Double) : Text :=
  if x.rank = 0 then layout.digitsText ['0'] 0
  else
    match x.shortest? with
    | none => []
    | some (c, e) =>
      let (c, e) := dropZeros 17 c e
      let ds := Nat.toDigits 10 c
      layout.digitsText ds (e + ds.length - 1)

/-- The text of a double. -/
def render (layout : DecimalLayout) (x : Double) : Text :=
  if x.isNaN then layout.nan
  else
    (if x.negative then ([.char '-'] : Text) else [])
      ++ if x.isInfinite then layout.infinity else layout.magnitudeText x

end DecimalLayout

end AgentFlow
