import AgentFlow.Text.Digit
import Mathlib.Algebra.Group.Nat.Defs

/-!
# Digits of natural numbers

The decimal digits that a number is written with, and the number that digits spell.

* `ofDigits_toDigits`: the digits of a number spell it.
* `ofDigits_zeros_append`, `ofDigits_append_zeros`: zeros in front change nothing, zeros behind
  multiply by ten.
* `lt_pow_length_toDigits`, `pow_length_toDigits_le`: the number of digits is the decimal size.
* `length_toDigits_mul_pow`: each factor of ten is one more digit.
-/

namespace AgentFlow

theorem digitValue_of_isDigit {c : Char} (h : c.isDigit) : digitValue c = c.toNat - 48 := by
  simp [digitValue, h]

/-- A row of decimal digits spells what the standard library reads from it. -/
theorem ofDigits_eq_ofDigitChars {ds : List Char} (h : ∀ c ∈ ds, c.isDigit) :
    ofDigits 10 ds = Nat.ofDigitChars 10 ds 0 := by
  suffices ∀ n, ds.foldl (fun n c => n * 10 + digitValue c) n = Nat.ofDigitChars 10 ds n from
    this 0
  induction ds with
  | nil => intro n; simp
  | cons c ds ih =>
    intro n
    rw [List.foldl_cons, ih fun d hd => h d (List.mem_cons_of_mem _ hd), Nat.ofDigitChars_cons,
      digitValue_of_isDigit (h c List.mem_cons_self), Nat.mul_comm n]
    rfl

theorem isDigit_of_mem_toDigits {c : Char} {n : Nat} (h : c ∈ Nat.toDigits 10 n) : c.isDigit :=
  Nat.isDigit_of_mem_toDigits (by decide) (by decide) h

/-- The digits of a number spell it. -/
theorem ofDigits_toDigits (n : Nat) : ofDigits 10 (Nat.toDigits 10 n) = n := by
  rw [ofDigits_eq_ofDigitChars fun _ => isDigit_of_mem_toDigits, Nat.ofDigitChars_ten_toDigits]

theorem ofDigits_append (b : Nat) (cs ds : List Char) :
    ofDigits b (cs ++ ds) = ds.foldl (fun n c => n * b + digitValue c) (ofDigits b cs) := by
  simp [ofDigits]

theorem ofDigits_zeros (b k : Nat) : ofDigits b (List.replicate k '0') = 0 := by
  induction k with
  | zero => rfl
  | succ k ih => rw [List.replicate_succ', ofDigits_append, ih]; simp [digitValue]

/-- Zeros in front change nothing. -/
theorem ofDigits_zeros_append (b k : Nat) (ds : List Char) :
    ofDigits b (List.replicate k '0' ++ ds) = ofDigits b ds := by
  rw [ofDigits_append, ofDigits_zeros]
  rfl

/-- Each zero behind multiplies by the base. -/
theorem ofDigits_append_zeros (b : Nat) (ds : List Char) (k : Nat) :
    ofDigits b (ds ++ List.replicate k '0') = ofDigits b ds * b ^ k := by
  induction k with
  | zero => simp
  | succ k ih =>
    rw [List.replicate_succ', ← List.append_assoc, ofDigits_append, ih, Nat.pow_succ]
    simp [digitValue, Nat.mul_assoc]

/-! ## The decimal size of a number -/

theorem lt_pow_length_toDigits (n : Nat) : n < 10 ^ (Nat.toDigits 10 n).length :=
  (Nat.length_toDigits_le_iff (by decide) Nat.length_toDigits_pos).1 (Nat.le_refl _)

theorem pow_length_toDigits_le {n : Nat} (h : 0 < n) :
    10 ^ ((Nat.toDigits 10 n).length - 1) ≤ n := by
  have hpos : 0 < (Nat.toDigits 10 n).length := Nat.length_toDigits_pos
  rcases Nat.eq_zero_or_pos ((Nat.toDigits 10 n).length - 1) with h0 | h1
  · rw [h0]
    exact h
  · have hle := Nat.length_toDigits_le_iff (n := n) (b := 10) (by decide) h1
    exact Nat.not_lt.1 fun hlt => absurd (hle.2 hlt) (by omega)

/-- The number of digits is fixed by the powers of ten around a number. -/
theorem length_toDigits_eq {n k : Nat} (hlo : 10 ^ k ≤ n) (hhi : n < 10 ^ (k + 1)) :
    (Nat.toDigits 10 n).length = k + 1 := by
  have hle := (Nat.length_toDigits_le_iff (n := n) (b := 10) (by decide) k.succ_pos).2 hhi
  have hpow : 10 ^ k < 10 ^ (Nat.toDigits 10 n).length :=
    Nat.lt_of_le_of_lt hlo (lt_pow_length_toDigits n)
  have := (Nat.pow_lt_pow_iff_right (by decide : 1 < 10)).1 hpow
  omega

theorem length_toDigits_mul_pow {n : Nat} (h : 0 < n) (k : Nat) :
    (Nat.toDigits 10 (n * 10 ^ k)).length = (Nat.toDigits 10 n).length + k := by
  have hpos : 0 < (Nat.toDigits 10 n).length := Nat.length_toDigits_pos
  have hlo := Nat.mul_le_mul_right (10 ^ k) (pow_length_toDigits_le h)
  have hhi := Nat.mul_lt_mul_of_pos_right (lt_pow_length_toDigits n) (Nat.pow_pos (n := k)
    (show 0 < 10 by decide))
  rw [← Nat.pow_add] at hlo hhi
  have hk : (Nat.toDigits 10 n).length - 1 + k + 1 = (Nat.toDigits 10 n).length + k := by omega
  rw [length_toDigits_eq hlo (hk ▸ hhi), hk]

/-- No number but zero is written with a zero in front. -/
theorem head?_toDigits_ne_zero {n : Nat} (h : 0 < n) : (Nat.toDigits 10 n).head? ≠ some '0' := by
  induction n using Nat.base_induction 10 (by decide) with
  | single m hm =>
    rw [Nat.toDigits_of_lt_base hm]
    intro hd
    have hd := congrArg Char.toNat (Option.some.inj hd)
    rw [Nat.toNat_digitChar_of_lt_ten hm] at hd
    exact absurd hd (by simp; omega)
  | digit m k hk hm ih =>
    rw [← Nat.toDigits_append_toDigits (by decide) hm hk]
    cases hd : Nat.toDigits 10 m with
    | nil => exact absurd hd Nat.toDigits_ne_nil
    | cons d ds => simpa [hd] using ih hm

end AgentFlow
