import AgentFlow.Text.Printable

/-!
# Quoted texts

The display of a text inside a larger value: between quotes, with escapes for what is not
printable. Single quotes are used unless the text holds one and no double quote.
-/

namespace AgentFlow

/-- A number in small hexadecimal digits, with zeros in front up to a width. -/
def hexText (width n : Nat) : Text :=
  let ds := Nat.toDigits 16 n
  Text.ofChars (List.replicate (width - ds.length) '0' ++ ds)

/-- A code point as an escape. -/
def CodePoint.escaped (p : CodePoint) : Text :=
  let n := p.toNat
  if n < 0x100 then ("\\x" : Text) ++ hexText 2 n
  else if n < 0x10000 then ("\\u" : Text) ++ hexText 4 n
  else ("\\U" : Text) ++ hexText 8 n

namespace Text

/-- A code point between quotes `quote`. -/
def quotedPoint (quote : Char) (p : CodePoint) : Text :=
  if p = .char quote ∨ p = .char '\\' then [.char '\\', p]
  else if p = .char '\n' then "\\n"
  else if p = .char '\r' then "\\r"
  else if p = .char '\t' then "\\t"
  else if p.isPrintable then [p]
  else p.escaped

/-- The quote for a text: the single one, unless the text holds it and no double quote. -/
def quoteFor (t : Text) : Char :=
  if t.contains (.char '\'') && !t.contains (.char '"') then '"' else '\''

/-- A text between quotes. -/
def quoted (t : Text) : Text :=
  let quote := quoteFor t
  .char quote :: t.flatMap (quotedPoint quote) ++ [.char quote]

end Text

end AgentFlow
