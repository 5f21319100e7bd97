import AgentFlow.Text.Basic

/-!
# White space

The Unicode property White_Space, and the slightly larger set of characters that patterns take
for blanks.

* `isSpaceChar`: the property; numerals and members of a model may have such characters around.
* `isBlankChar`: the property and the four separators of information.
-/

namespace AgentFlow

/-- Whether a character has the property White_Space. -/
def isSpaceChar (c : Char) : Bool :=
  let n := c.toNat
  (0x09 ≤ n && n ≤ 0x0D) || n == 0x20 || n == 0x85 || n == 0xA0 || n == 0x1680
    || (0x2000 ≤ n && n ≤ 0x200A) || n == 0x2028 || n == 0x2029 || n == 0x202F || n == 0x205F
    || n == 0x3000

/-- Whether a character is a blank for patterns: of bidirectional class WS, B or S, or a space
separator. -/
def isBlankChar (c : Char) : Bool := isSpaceChar c || (0x1C ≤ c.toNat && c.toNat ≤ 0x1F)

/-- Whether a code point is a blank for patterns. -/
def CodePoint.isBlank (p : CodePoint) : Bool := p.isChar isBlankChar

/-- Whether a code point has the property White_Space. -/
def CodePoint.isSpace (p : CodePoint) : Bool := p.isChar isSpaceChar

namespace Text

/-- A text without the white space at its start. -/
def trimStart (t : Text) : Text := t.dropWhile CodePoint.isSpace

/-- A text without the white space at its two ends. -/
def trim (t : Text) : Text := (trimStart (trimStart t).reverse).reverse

end Text

end AgentFlow
