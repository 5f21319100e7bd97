import AgentFlow.Text.Basic

/-!
# Bytes and sixteen-bit units

Editors count sixteen-bit units, syntax trees count bytes. A character above `U+FFFF` is two
units; a lone surrogate is one unit and has no bytes.

* `byteLength_append`: byte lengths add up over concatenation.
* `scalars_ofChars`: pairing up units changes no text that has no surrogates.
-/

namespace AgentFlow

/-- The number of bytes of a list of characters in UTF-8. -/
def byteLength : List Char → Nat
  | [] => 0
  | c :: cs => c.utf8Size + byteLength cs

@[simp] theorem byteLength_nil : byteLength [] = 0 := rfl

@[simp] theorem byteLength_cons (c : Char) (cs : List Char) :
    byteLength (c :: cs) = c.utf8Size + byteLength cs := rfl

@[simp] theorem byteLength_append (cs ds : List Char) :
    byteLength (cs ++ ds) = byteLength cs + byteLength ds := by
  induction cs with
  | nil => simp
  | cons c cs ih => simp [ih, Nat.add_assoc]

/-- The characters at the start of a list that make up a number of bytes. -/
def bytePrefix : Nat → List Char → List Char
  | _, [] => []
  | n, c :: cs => if n = 0 then [] else c :: bytePrefix (n - c.utf8Size) cs

theorem bytePrefix_append (cs ds : List Char) : bytePrefix (byteLength cs) (cs ++ ds) = cs := by
  induction cs with
  | nil => cases ds <;> simp [bytePrefix]
  | cons c cs ih =>
    have h : 0 < c.utf8Size := Char.utf8Size_pos c
    have h' : c.utf8Size + byteLength cs ≠ 0 := by omega
    rw [List.cons_append, bytePrefix, byteLength_cons, if_neg h', Nat.add_sub_cancel_left, ih]

/-- The number of sixteen-bit units of a character. -/
def unitCount (c : Char) : Nat := if c.toNat > 0xFFFF then 2 else 1

theorem unitCount_pos (c : Char) : 0 < unitCount c := by
  unfold unitCount; split <;> decide

/-- The sixteen-bit units of a text. -/
def Text.units : Text → List Nat
  | [] => []
  | .surrogate u :: rest => (0xD800 + u.val) :: units rest
  | .char c :: rest =>
    if c.toNat > 0xFFFF then
      (0xD800 + (c.toNat - 0x10000) / 1024) :: (0xDC00 + (c.toNat - 0x10000) % 1024) :: units rest
    else c.toNat :: units rest

/-- The character that a high and a low surrogate spell together. -/
def pairSurrogates (high low : Fin 2048) : Char :=
  Char.ofNat (0x10000 + high.val * 1024 + (low.val - 1024))

/-- The text of sixteen-bit units: a high surrogate and a low one after it are one character. -/
def Text.ofUnits : List Nat → Text
  | [] => []
  | [u] => (CodePoint.ofNat? u).toList
  | high :: low :: rest =>
    if 0xD800 ≤ high ∧ high < 0xDC00 ∧ 0xDC00 ≤ low ∧ low < 0xE000 then
      .char (Char.ofNat (0x10000 + (high - 0xD800) * 1024 + (low - 0xDC00))) :: ofUnits rest
    else (CodePoint.ofNat? high).toList ++ ofUnits (low :: rest)

/-- A text as a reader of sixteen-bit units sees it: a high surrogate and a low one after it are
one character, and any other surrogate is shown as the replacement character. -/
def Text.scalars : Text → List Char
  | [] => []
  | .char c :: rest => c :: scalars rest
  | .surrogate high :: .surrogate low :: rest =>
    if high.val < 1024 ∧ 1024 ≤ low.val then pairSurrogates high low :: scalars rest
    else '\uFFFD' :: scalars (.surrogate low :: rest)
  | .surrogate _ :: rest => '\uFFFD' :: scalars rest

theorem Text.scalars_ofChars (cs : List Char) : scalars (ofChars cs) = cs := by
  induction cs with
  | nil => rfl
  | cons c cs ih => simpa [ofChars, scalars] using ih

/-- The longest start of a list of characters that `units` sixteen-bit units reach into. A pair
that is cut in the middle is taken whole. -/
def unitPrefix : Nat → List Char → List Char
  | _, [] => []
  | units, c :: cs => if units = 0 then [] else c :: unitPrefix (units - unitCount c) cs

@[simp] theorem unitPrefix_zero (cs : List Char) : unitPrefix 0 cs = [] := by
  cases cs <;> rfl

theorem unitPrefix_isPrefix (units : Nat) (cs : List Char) : unitPrefix units cs <+: cs := by
  induction cs generalizing units with
  | nil => simp [unitPrefix]
  | cons c cs ih =>
    unfold unitPrefix
    split
    · exact List.nil_prefix
    · exact List.cons_prefix_cons.2 ⟨rfl, ih _⟩

end AgentFlow
