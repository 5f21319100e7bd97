import AgentFlow.Decimal.Numeral
import AgentFlow.Text.Units

/-!
# Escape sequences

What an escape sequence of a string literal stands for. A sequence may name half of a surrogate
pair, so the result is a text; the parts of a literal are paired up once they are all known.
-/

namespace AgentFlow.Script

/-- Why an escape sequence stands for nothing: its digits are no number, or its number belongs to
no code point. -/
inductive EscapeError where
  | notHexadecimal (digits : Text)
  | noCodePoint (n : Int)
  deriving DecidableEq

namespace EscapeError

/-- Whether an error is about a number that is beyond all machine integers of 32 bits. -/
def isOverflow : EscapeError → Bool
  | .noCodePoint n => n < -0x80000000 || 0x80000000 ≤ n
  | .notHexadecimal _ => false

/-- The wording of an error. -/
def message (e : EscapeError) : Text :=
  match e with
  | .notHexadecimal digits => Numeral.badIntMessage 16 digits
  | .noCodePoint _ =>
    if e.isOverflow then "Python int too large to convert to C int"
    else "chr() arg not in range(0x110000)"

end EscapeError

/-- The code point whose number is spelled in hexadecimal digits. -/
def hexPoint (digits : Text) : Except EscapeError CodePoint :=
  match Numeral.readInt? 16 digits with
  | none => .error (.notHexadecimal digits)
  | some n =>
    match (if n < 0 then none else CodePoint.ofNat? n.toNat) with
    | some p => .ok p
    | none => .error (.noCodePoint n)

/-- The characters that escapes of one letter stand for. -/
def letterEscapes : List (Char × Char) :=
  [('n', '\n'), ('t', '\t'), ('r', '\r'), ('b', '\x08'), ('f', '\x0c'), ('v', '\x0b'),
    ('0', '\x00')]

/-- The code points that go on with a literal on the next line when they are escaped. -/
def continuesLine (p : CodePoint) : Bool :=
  p.isChar fun c => c == '\n' || c == '\r' || c == '\u2028' || c == '\u2029'

/-- What an escape sequence stands for, given what follows its backslash. A sequence without a
meaning of its own stands for itself. -/
def decodeBody (body : Text) : Except EscapeError Text :=
  match body with
  | .char 'u' :: .char '\x7b' :: digits => do
    let p ← hexPoint digits.dropLast
    .ok [p]
  | p :: q :: rest =>
    if p = .char 'x' ∨ p = .char 'u' then do
      let p ← hexPoint (q :: rest)
      .ok [p]
    else if continuesLine p then .ok []
    else .ok body
  | [p] =>
    if continuesLine p then .ok []
    else
      match letterEscapes.find? fun e => CodePoint.char e.1 == p with
      | some e => .ok [.char e.2]
      | none => .ok body
  | [] => .ok []

/-- What an escape sequence stands for. -/
def decodeEscape (sequence : Text) : Except EscapeError Text := decodeBody (sequence.drop 1)

example : decodeEscape "\\u0041" = .ok "A" := rfl

end AgentFlow.Script
