import AgentFlow.Text.Basic

/-!
# Decimal digits

Numerals may be written with the decimal digits of any script. Each script has its ten digits in
a row, so a table of the zeros is enough (`decimalZeros`); the ASCII digits stand first.
-/

namespace AgentFlow

/-- The zeros of the Unicode decimal digits (general category Nd). -/
def decimalZeros : List Nat :=
  [0x30, 0x660, 0x6f0, 0x7c0, 0x966, 0x9e6, 0xa66, 0xae6, 0xb66, 0xbe6, 0xc66, 0xce6, 0xd66,
    0xde6, 0xe50, 0xed0, 0xf20, 0x1040, 0x1090, 0x17e0, 0x1810, 0x1946, 0x19d0, 0x1a80, 0x1a90,
    0x1b50, 0x1bb0, 0x1c40, 0x1c50, 0xa620, 0xa8d0, 0xa900, 0xa9d0, 0xa9f0, 0xaa50, 0xabf0,
    0xff10, 0x104a0, 0x10d30, 0x11066, 0x110f0, 0x11136, 0x111d0, 0x112f0, 0x11450, 0x114d0,
    0x11650, 0x116c0, 0x11730, 0x118e0, 0x11950, 0x11c50, 0x11d50, 0x11da0, 0x16a60, 0x16ac0,
    0x16b50, 0x1d7ce, 0x1d7d8, 0x1d7e2, 0x1d7ec, 0x1d7f6, 0x1e140, 0x1e2f0, 0x1e950, 0x1fbf0]

/-- The value of a decimal digit of any script. -/
def decimalDigit? (c : Char) : Option Nat :=
  (decimalZeros.find? fun z => z ≤ c.toNat && c.toNat < z + 10).map (c.toNat - ·)

/-- Whether a character is an ASCII digit of the given base (at most sixteen). -/
def isDigitOf (base : Nat) (c : Char) : Bool :=
  if c.isDigit then c.toNat - 48 < base
  else if 'a' ≤ c && c ≤ 'f' then c.toNat - 87 < base
  else if 'A' ≤ c && c ≤ 'F' then c.toNat - 55 < base
  else false

/-- The value of an ASCII digit or letter: letters continue after nine, in either case. -/
def digitValue (c : Char) : Nat :=
  if c.isDigit then c.toNat - 48
  else if 'a' ≤ c && c ≤ 'z' then c.toNat - 87
  else if 'A' ≤ c && c ≤ 'Z' then c.toNat - 55
  else 0

/-- The number that a row of digits spells in a base. -/
def ofDigits (base : Nat) (ds : List Char) : Nat :=
  ds.foldl (fun n c => n * base + digitValue c) 0

theorem ofDigits_nil (base : Nat) : ofDigits base [] = 0 := rfl

end AgentFlow
