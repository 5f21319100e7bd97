import AgentFlow.Text.Units
import Mathlib.Data.List.Basic

/-!
# Reading sixteen-bit units

The parts of a text may be written one by one, each as units of its own, and the halves of a pair of
surrogates may belong to two parts. What is read is settled by the row of units alone.

* `pointUnits`: the units of a code point. `Text.units_append`: the units of a text are those of its
  points, one after the other.
* `readUnits`: what a row of units is read as. `Text.scalars_eq_readUnits`: a text with surrogates
  is shown as what its units are read as.
* `readUnits_units_ofChars`: characters are read back from their units.
* `count_readUnits`: a character that is a single unit is read as often as this unit stands there.
-/

namespace AgentFlow

/-! ## Units of points -/

/-- The sixteen-bit units of the code point with a number. -/
def pointUnits (n : Nat) : List Nat :=
  if n > 0xFFFF then [0xD800 + (n - 0x10000) / 1024, 0xDC00 + (n - 0x10000) % 1024] else [n]

namespace Text

theorem units_cons (p : CodePoint) (t : Text) : units (p :: t) = pointUnits p.toNat ++ units t := by
  cases p with
  | surrogate u =>
    have hle : ¬ (CodePoint.surrogate u).toNat > 0xFFFF := by
      have hlt := u.isLt
      simp only [CodePoint.toNat]
      omega
    rw [units, pointUnits, if_neg hle]
    rfl
  | char c =>
    rw [units, pointUnits, CodePoint.toNat]
    split <;> rfl

theorem units_append (t u : Text) : units (t ++ u) = units t ++ units u := by
  induction t with
  | nil => rfl
  | cons p t ih => rw [List.cons_append, units_cons, units_cons, ih, List.append_assoc]

theorem ofChars_injective : Function.Injective ofChars :=
  List.map_injective_iff.2 fun _ _ h => CodePoint.char.inj h

end Text

theorem CodePoint.toNat_of_ofNat? {n : Nat} {p : CodePoint} (h : ofNat? n = some p) :
    p.toNat = n := by
  rw [ofNat?] at h
  by_cases hsurrogate : 0xD800 ≤ n ∧ n < 0xE000
  · rw [dif_pos hsurrogate] at h
    cases h
    exact Nat.add_sub_cancel' hsurrogate.1
  · rw [dif_neg hsurrogate] at h
    by_cases hvalid : n.isValidChar
    · rw [dif_pos hvalid] at h
      cases h
      rfl
    · rw [dif_neg hvalid] at h
      cases h

/-! ## Reading units -/

/-- Whether a unit is the first half of a pair. -/
def IsHigh (u : Nat) : Prop := 0xD800 ≤ u ∧ u < 0xDC00

/-- Whether a unit is the second half of a pair. -/
def IsLow (u : Nat) : Prop := 0xDC00 ≤ u ∧ u < 0xE000

instance (u : Nat) : Decidable (IsHigh u) := inferInstanceAs (Decidable (_ ∧ _))

instance (u : Nat) : Decidable (IsLow u) := inferInstanceAs (Decidable (_ ∧ _))

/-- What a unit that is not part of a pair is read as. -/
def unitChar (u : Nat) : Char := if IsHigh u ∨ IsLow u then '\uFFFD' else Char.ofNat u

/-- What a row of units is read as: a high surrogate and a low one behind it are one character, and
every other surrogate is replaced. -/
def readUnits : List Nat → List Char
  | [] => []
  | [u] => [unitChar u]
  | u :: v :: us =>
    if IsHigh u ∧ IsLow v then
      Char.ofNat (0x10000 + (u - 0xD800) * 1024 + (v - 0xDC00)) :: readUnits us
    else unitChar u :: readUnits (v :: us)

section

variable {u v : Nat} {us : List Nat}

theorem readUnits_pair (hu : IsHigh u) (hv : IsLow v) (us : List Nat) :
    readUnits (u :: v :: us) =
      Char.ofNat (0x10000 + (u - 0xD800) * 1024 + (v - 0xDC00)) :: readUnits us :=
  if_pos ⟨hu, hv⟩

theorem readUnits_single (h : IsHigh u → ∀ v ∈ us.head?, ¬ IsLow v) :
    readUnits (u :: us) = unitChar u :: readUnits us := by
  cases us with
  | nil => rfl
  | cons v us => exact if_neg fun ⟨hu, hv⟩ => h hu v rfl hv

/-- The number of a character is no surrogate. -/
theorem not_surrogate_toNat (c : Char) : ¬ IsHigh c.toNat ∧ ¬ IsLow c.toNat := by
  have hvalid : c.toNat.isValidChar := c.valid
  unfold Nat.isValidChar at hvalid
  unfold IsHigh IsLow
  omega

/-- The unit of a character is read as this character. -/
theorem readUnits_char (c : Char) (us : List Nat) :
    readUnits (c.toNat :: us) = c :: readUnits us := by
  obtain ⟨hhigh, hlow⟩ := not_surrogate_toNat c
  rw [readUnits_single fun hu => absurd hu hhigh, unitChar, if_neg (not_or.2 ⟨hhigh, hlow⟩),
    Char.ofNat_toNat]

/-- A character beyond the sixteen-bit ones is read back from its pair. -/
theorem readUnits_wide {c : Char} (h : c.toNat > 0xFFFF) (us : List Nat) :
    readUnits ((0xD800 + (c.toNat - 0x10000) / 1024) ::
      (0xDC00 + (c.toNat - 0x10000) % 1024) :: us) = c :: readUnits us := by
  have hvalid : c.toNat.isValidChar := c.valid
  unfold Nat.isValidChar at hvalid
  rw [readUnits_pair (by unfold IsHigh; omega) (by unfold IsLow; omega)]
  have hnumber : 0x10000 + (0xD800 + (c.toNat - 0x10000) / 1024 - 0xD800) * 1024
      + (0xDC00 + (c.toNat - 0x10000) % 1024 - 0xDC00) = c.toNat := by omega
  rw [hnumber, Char.ofNat_toNat]

end

/-- The units of what does not begin with a surrogate do not begin with a low one. -/
theorem not_isLow_head_units {t : Text} (h : ∀ u rest, t ≠ .surrogate u :: rest) :
    ∀ v ∈ t.units.head?, ¬ IsLow v := by
  intro v hv
  match t with
  | [] => cases hv
  | .surrogate u :: rest => exact absurd rfl (h u rest)
  | .char c :: rest =>
    have hvalid : c.toNat.isValidChar := c.valid
    unfold Nat.isValidChar at hvalid
    rw [Text.units] at hv
    split at hv
    all_goals
      obtain rfl := Option.some.inj hv
      unfold IsLow
      omega

theorem unitChar_surrogate (u : Fin 2048) : unitChar (0xD800 + u.val) = '\uFFFD' := by
  have hlt := u.isLt
  exact if_pos (by unfold IsHigh IsLow; omega)

/-- **A text with surrogates is shown as what its units are read as.** -/
theorem Text.scalars_eq_readUnits (t : Text) : t.scalars = readUnits t.units := by
  fun_induction Text.scalars t with
  | case1 => rfl
  | case2 c rest ih =>
    rw [units, ih]
    split
    case isTrue h => rw [readUnits_wide h]
    case isFalse => rw [readUnits_char]
  | case3 high low rest h ih =>
    have hlt := low.isLt
    have hhigh : IsHigh (0xD800 + high.val) := ⟨by omega, by omega⟩
    have hlow : IsLow (0xD800 + low.val) := ⟨by omega, by omega⟩
    have hfirst : 0xD800 + high.val - 0xD800 = high.val := by omega
    have hsecond : 0xD800 + low.val - 0xDC00 = low.val - 1024 :=
      Nat.add_sub_add_left 0xD800 low.val 1024
    rw [units, units, readUnits_pair hhigh hlow, ih, pairSurrogates]
    simp only [hfirst, hsecond]
  | case4 high low rest h ih =>
    rw [units, readUnits_single, ih, unitChar_surrogate]
    intro hhigh v hv
    obtain rfl := Option.some.inj hv
    unfold IsHigh at hhigh
    unfold IsLow
    omega
  | case5 u rest h ih =>
    rw [units, readUnits_single fun _ => not_isLow_head_units h, ih, unitChar_surrogate]

/-- Characters are read back from their units. -/
theorem readUnits_units_ofChars (cs : List Char) : readUnits (Text.ofChars cs).units = cs := by
  rw [← Text.scalars_eq_readUnits, Text.scalars_ofChars]

/-! ## Single units -/

theorem toNat_ofNat {n : Nat} (h : n.isValidChar) : (Char.ofNat n).toNat = n := by
  rw [Char.ofNat, dif_pos h]
  rfl

theorem unitChar_eq_iff {c : Char} {u : Nat} (hzero : c ≠ Char.ofNat 0) (hreplaced : c ≠ '\uFFFD') :
    unitChar u = c ↔ u = c.toNat := by
  constructor
  · intro h
    unfold unitChar at h
    split at h
    case isTrue => exact absurd h.symm hreplaced
    case isFalse =>
      by_cases hvalid : u.isValidChar
      · rw [← h, toNat_ofNat hvalid]
      · rw [Char.ofNat, dif_neg hvalid] at h
        exact absurd h.symm hzero
  · rintro rfl
    obtain ⟨hhigh, hlow⟩ := not_surrogate_toNat c
    rw [unitChar, if_neg (not_or.2 ⟨hhigh, hlow⟩), Char.ofNat_toNat]

/-- A character that is a single unit is read as often as this unit stands in a row. -/
theorem count_readUnits {c : Char} (hsingle : c.toNat ≤ 0xFFFF) (hzero : c ≠ Char.ofNat 0)
    (hreplaced : c ≠ '\uFFFD') (us : List Nat) :
    (readUnits us).count c = us.count c.toNat := by
  have hunit (u : Nat) : (unitChar u == c) = (u == c.toNat) := by
    rw [Bool.eq_iff_iff, beq_iff_eq, beq_iff_eq, unitChar_eq_iff hzero hreplaced]
  fun_induction readUnits us with
  | case1 => rfl
  | case2 u => rw [List.count_cons, List.count_cons, hunit]; rfl
  | case3 u v us h ih =>
    obtain ⟨hhigh, hlow⟩ := not_surrogate_toNat c
    have hpair : Char.ofNat (0x10000 + (u - 0xD800) * 1024 + (v - 0xDC00)) ≠ c := by
      obtain ⟨hu, hv⟩ := h
      unfold IsHigh at hu
      unfold IsLow at hv
      rintro rfl
      rw [toNat_ofNat (by unfold Nat.isValidChar; omega)] at hsingle
      omega
    have hu : u ≠ c.toNat := fun hu => hhigh (hu ▸ h.1)
    have hv : v ≠ c.toNat := fun hv => hlow (hv ▸ h.2)
    rw [List.count_cons_of_ne hpair, List.count_cons_of_ne hu, List.count_cons_of_ne hv, ih]
  | case4 u v us h ih => rw [List.count_cons, List.count_cons, hunit, ih]

end AgentFlow
