import AgentFlow.Text.Quoted
import AgentFlow.Text.Units

/-!
# Encodings

A document that is sent arrives as bytes. A byte order mark in front tells how it is encoded.
Without one, JSON text starts with ASCII characters, so the zeros among the first bytes tell how
wide its units are and in which order their bytes stand. Lone surrogates are let through.

* `Encoding.detect`: the encoding of a document, and its bytes behind the mark.
* `decodeDocument?`: the text of a document, none if its bytes are not one in its encoding.
* `Unencodable`: why a text has no bytes.
-/

namespace AgentFlow

/-- The order of the bytes of a unit. -/
inductive ByteOrder where
  | big
  | little
  deriving DecidableEq

/-- The encodings that JSON text may have. -/
inductive Encoding where
  | utf8
  | utf16 (order : ByteOrder)
  | utf32 (order : ByteOrder)
  deriving DecidableEq

/-- The number that the bytes of a unit spell. -/
def ByteOrder.unit (order : ByteOrder) (bytes : List UInt8) : Nat :=
  let spell (bs : List UInt8) : Nat := bs.foldl (fun n b => n * 256 + b.toNat) 0
  match order with
  | .big => spell bytes
  | .little => spell bytes.reverse

/-- The bytes of a list of characters. -/
def utf8Bytes (cs : List Char) : List UInt8 := (String.ofList cs).toUTF8.data.toList

namespace Encoding

/-- The byte order marks of encodings. The first mark that a document begins with counts. -/
def marks : List (List UInt8 × Encoding) :=
  [([0x00, 0x00, 0xFE, 0xFF], .utf32 .big), ([0xFF, 0xFE, 0x00, 0x00], .utf32 .little),
    ([0xFE, 0xFF], .utf16 .big), ([0xFF, 0xFE], .utf16 .little), ([0xEF, 0xBB, 0xBF], .utf8)]

/-- The encoding of a document without a mark, told by the zeros in front. -/
def ofZeros : List UInt8 → Encoding
  | [a, b] =>
    if a = 0 then .utf16 .big
    else if b = 0 then .utf16 .little
    else .utf8
  | a :: b :: c :: d :: _ =>
    if a = 0 then (if b = 0 then .utf32 .big else .utf16 .big)
    else if b = 0 then (if c = 0 ∧ d = 0 then .utf32 .little else .utf16 .little)
    else .utf8
  | _ => .utf8

/-- The encoding of a document, with the bytes that are encoded so. -/
def detect (bytes : List UInt8) : Encoding × List UInt8 :=
  match marks.find? fun m => m.1.isPrefixOf bytes with
  | some (mark, encoding) => (encoding, bytes.drop mark.length)
  | none => (ofZeros bytes, bytes)

/-- The lowest six bits of a byte that goes on with a code point of UTF-8. -/
def sextet? (b : UInt8) : Option Nat :=
  if b.toNat / 64 = 2 then some (b.toNat % 64) else none

/-- The code point of a number in front of a text, unless fewer bytes would do for the number. -/
def pointAbove? (least n : Nat) (t : Option Text) : Option Text :=
  if n < least then none else do
    let p ← CodePoint.ofNat? n
    return p :: (← t)

/-- The text of bytes of UTF-8; the first byte of a code point tells how many more it has. -/
def octets? : List UInt8 → Option Text
  | [] => some []
  | a :: rest =>
    let a := a.toNat
    if a < 0x80 then pointAbove? 0 a (octets? rest)
    else
      match rest with
      | [] => none
      | b :: rest => do
        let b ← sextet? b
        if a / 32 = 6 then pointAbove? 0x80 (a % 32 * 64 + b) (octets? rest)
        else
          match rest with
          | [] => none
          | c :: rest => do
            let c ← sextet? c
            if a / 16 = 14 then pointAbove? 0x800 ((a % 16 * 64 + b) * 64 + c) (octets? rest)
            else
              match rest with
              | [] => none
              | d :: rest => do
                let d ← sextet? d
                if a / 8 = 30 then
                  pointAbove? 0x10000 (((a % 8 * 64 + b) * 64 + c) * 64 + d) (octets? rest)
                else none

/-- The sixteen-bit units of bytes, none if a byte is left over. -/
def pairs? (order : ByteOrder) : List UInt8 → Option (List Nat)
  | [] => some []
  | a :: b :: rest => (pairs? order rest).map (order.unit [a, b] :: ·)
  | [_] => none

/-- The text of bytes of four each, none if some are left over or are no code point. -/
def quadruples? (order : ByteOrder) : List UInt8 → Option Text
  | [] => some []
  | a :: b :: c :: d :: rest => do
    let p ← CodePoint.ofNat? (order.unit [a, b, c, d])
    return p :: (← quadruples? order rest)
  | _ => none

/-- The text of bytes in an encoding. -/
def decode? (encoding : Encoding) (bytes : List UInt8) : Option Text :=
  match encoding with
  | .utf8 => octets? bytes
  | .utf16 order => (pairs? order bytes).map Text.ofUnits
  | .utf32 order => quadruples? order bytes

end Encoding

/-- The text of a document that is sent. -/
def decodeDocument? (bytes : List UInt8) : Option Text :=
  let (encoding, bytes) := Encoding.detect bytes
  encoding.decode? bytes

/-- A mark, a brace and half of a surrogate pair. -/
example : decodeDocument? [0xEF, 0xBB, 0xBF, 0x7B, 0xED, 0xA0, 0x80]
    = some [.char '\x7b', .surrogate 0] := by decide

/-! ## Texts without bytes -/

/-- A row of code points that an encoding has no bytes for. -/
structure Unencodable where
  /-- The name of the encoding. -/
  codec : Text
  reason : Text
  /-- The place of the row. -/
  start : Nat
  row : Text
  deriving DecidableEq, Inhabited

namespace Unencodable

/-- The first row of code points of a text that satisfy `bad`, with its place. -/
def first? (bad : CodePoint → Bool) (t : Text) : Option (Nat × Text) :=
  let start := (t.takeWhile fun p => !bad p).length
  match (t.drop start).takeWhile bad with
  | [] => none
  | row => some (start, row)

/-- What is not ASCII in a text. -/
def ascii? (t : Text) : Option Unencodable :=
  (first? (fun p => 128 ≤ p.toNat) t).map fun e =>
    ⟨"ascii", "ordinal not in range(128)", e.1, e.2⟩

/-- The lone surrogates of a text. -/
def utf8? (t : Text) : Option Unencodable :=
  (first? (fun p => !p.isChar fun _ => true) t).map fun e =>
    ⟨"utf-8", "surrogates not allowed", e.1, e.2⟩

/-- What is said about a text without bytes. -/
def message (e : Unencodable) : Text :=
  let place : Text :=
    match e.row with
    | [p] => ("character '" : Text) ++ p.escaped ++ "' in position " ++ Text.ofNat e.start
    | _ =>
      ("characters in position " : Text) ++ Text.ofNat e.start ++ "-"
        ++ Text.ofNat (e.start + e.row.length - 1)
  ("'" : Text) ++ e.codec ++ "' codec can't encode " ++ place ++ ": " ++ e.reason

end Unencodable

end AgentFlow
