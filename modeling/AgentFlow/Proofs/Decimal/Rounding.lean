import AgentFlow.Decimal.Double
import AgentFlow.Proofs.Decimal.Digits
import Mathlib.Algebra.Order.Field.Power
import Mathlib.Algebra.Order.Ring.Rat
import Mathlib.Tactic.FieldSimp
import Mathlib.Tactic.Linarith
import Mathlib.Tactic.NormNum
import Mathlib.Tactic.Positivity

/-!
# Rounding of quotients to doubles

What the double nearest to a quotient depends on. Quotients and doubles are compared by their
exact values, which are rational numbers.

* `IsScale q e`: doubles near `q` are counted in units of `2 ^ e`. There is one such scale
  (`IsScale.unique`), and rounding finds it (`isScale_scaleOf`).
* `rankOfRatio_congr`: equal quotients have the same double.
* `rankOfRatio_of_near`: a quotient that lies within `2 ^ -54` of a double, relative to that
  double, rounds to it. The bound is half of the least distance between neighbours.
* `ofDecimal_mul_pow`: a decimal may be written with more zeros at its end.
* `ofDecimal_of_near`: a decimal that lies that close to a double reads as it.
-/

namespace AgentFlow

/-! ## Rounded quotients -/

theorem roundQuotient_mul {k : Nat} (hk : 0 < k) (n d : Nat) :
    roundQuotient (k * n) (k * d) = roundQuotient n d := by
  have hlt : ∀ a b : Nat, k * a < k * b ↔ a < b := fun a b => Nat.mul_lt_mul_left hk
  have h2 : 2 * (k * (n % d)) = k * (2 * (n % d)) := by rw [Nat.mul_left_comm]
  simp only [roundQuotient, Nat.mul_div_mul_left n d hk, Nat.mul_mod_mul_left, h2, hlt]

/-- Rounding depends on the quotient only. -/
theorem roundQuotient_congr {n₁ d₁ n₂ d₂ : Nat} (h₁ : 0 < d₁) (h₂ : 0 < d₂)
    (h : n₁ * d₂ = n₂ * d₁) : roundQuotient n₁ d₁ = roundQuotient n₂ d₂ := by
  rw [← roundQuotient_mul h₂ n₁ d₁, ← roundQuotient_mul h₁ n₂ d₂, Nat.mul_comm d₂ n₁, h,
    Nat.mul_comm d₁ n₂, Nat.mul_comm d₂ d₁]

/-- A quotient less than a half away from an integer rounds to it. -/
theorem roundQuotient_of_near {n d m : Nat} (hd : 0 < d) (h : |(n : ℚ) / d - m| < 1 / 2) :
    roundQuotient n d = m := by
  have hd' : (0 : ℚ) < d := Nat.cast_pos.2 hd
  obtain ⟨hlo, hhi⟩ := abs_lt.1 h
  have hlo' : 2 * (m * d) < 2 * n + d := by
    have : (m - 1 / 2) * (d : ℚ) < n := (lt_div_iff₀ hd').1 (by linarith)
    have : (2 * (m * d) : ℚ) < 2 * n + d := by linarith
    exact_mod_cast this
  have hhi' : 2 * n < 2 * (m * d) + d := by
    have : (n : ℚ) < (m + 1 / 2) * d := (div_lt_iff₀ hd').1 (by linarith)
    have : (2 * n : ℚ) < 2 * (m * d) + d := by linarith
    exact_mod_cast this
  obtain ⟨hr₁, hr₂⟩ := roundQuotient_half n hd
  rcases Nat.lt_trichotomy (roundQuotient n d) m with hlt | heq | hlt
  · have := Nat.mul_le_mul_right d hlt
    rw [Nat.succ_mul] at this
    omega
  · exact heq
  · have := Nat.mul_le_mul_right d hlt
    rw [Nat.succ_mul] at this
    omega

/-! ## Powers as quotients -/

theorem powerRatio_eq (b : Nat) (e : Int) :
    powerRatio b e = (b ^ e.toNat, b ^ (-e).toNat) := rfl

theorem powerRatio_pos {b : Nat} (hb : 0 < b) (e : Int) :
    0 < (powerRatio b e).1 ∧ 0 < (powerRatio b e).2 :=
  ⟨Nat.pow_pos hb, Nat.pow_pos hb⟩

theorem powerRatio_quot {b : Nat} (hb : 0 < b) (e : Int) :
    ((powerRatio b e).1 : ℚ) / (powerRatio b e).2 = (b : ℚ) ^ e := by
  have hb' : (b : ℚ) ≠ 0 := Nat.cast_ne_zero.2 hb.ne'
  simp only [powerRatio_eq, Nat.cast_pow]
  rw [← zpow_natCast, ← zpow_natCast, ← zpow_sub₀ hb']
  congr 1
  omega

/-- A quotient times a power, as it is written with the two parts of the power. -/
theorem mul_powerRatio_quot {b : Nat} (hb : 0 < b) (n d : Nat) (e : Int) :
    ((n * (powerRatio b e).1 : Nat) : ℚ) / (d * (powerRatio b e).2 : Nat)
      = n / d * (b : ℚ) ^ e := by
  rw [← powerRatio_quot hb e]
  push_cast
  rw [div_mul_div_comm]

theorem div_powerRatio_quot {b : Nat} (hb : 0 < b) (n d : Nat) (e : Int) :
    ((n * (powerRatio b e).2 : Nat) : ℚ) / (d * (powerRatio b e).1 : Nat)
      = n / d / (b : ℚ) ^ e := by
  rw [← powerRatio_quot hb e]
  push_cast
  rw [div_div_div_eq]

namespace Double

theorem binade_eq : binade = 2 ^ 52 := rfl

theorem two_zpow_pos (e : Int) : (0 : ℚ) < 2 ^ e := zpow_pos (by norm_num) e

theorem two_zpow_succ (e : Int) : (2 : ℚ) ^ (e + 1) = 2 * 2 ^ e := by
  rw [zpow_add_one₀ (by norm_num), mul_comm]

/-! ## The scale of a quotient -/

/-- Doubles near `q` are multiples of `2 ^ e` by less than `2 ^ 53`: `q` has 53 bits in this unit,
or fewer in the smallest unit. -/
structure IsScale (q : ℚ) (e : Int) : Prop where
  smallest : -1074 ≤ e
  lt : q < 2 ^ 53 * 2 ^ e
  le : e = -1074 ∨ 2 ^ 52 * 2 ^ e ≤ q

private theorem IsScale.not_lt {q : ℚ} {e e' : Int} (h : IsScale q e) (h' : IsScale q e') :
    ¬ e < e' := by
  intro hlt
  have hle : (2 : ℚ) ^ (e + 1) ≤ 2 ^ e' := zpow_le_zpow_right₀ (by norm_num) hlt
  rw [two_zpow_succ] at hle
  have := h.lt
  have := h.smallest
  rcases h'.le with he | he
  · omega
  · linarith

theorem IsScale.unique {q : ℚ} {e e' : Int} (h : IsScale q e) (h' : IsScale q e') : e = e' := by
  have := h.not_lt h'
  have := h'.not_lt h
  omega

/-- The exponent that rounding works with. -/
def scaleOf (num den : Nat) : Int :=
  let guess : Int := (num.log2 : Int) - den.log2 - 53
  let p := powerRatio 2 guess
  max (if num * p.2 < 2 * binade * (den * p.1) then guess else guess + 1) (-1074)

theorem rankOfRatio_eq_scaleOf {num : Nat} (hn : 0 < num) (den : Nat) :
    rankOfRatio num den = min infiniteRank ((scaleOf num den + 1074).toNat * binade
      + roundQuotient (num * (powerRatio 2 (scaleOf num den)).2)
          (den * (powerRatio 2 (scaleOf num den)).1)) := by
  rw [rankOfRatio, if_neg hn.ne']
  rfl

/-- A quotient between the powers that the binary lengths of its parts tell. -/
private theorem quot_bounds {num den : Nat} (hn : 0 < num) (hd : 0 < den) :
    2 ^ 52 * 2 ^ ((num.log2 : Int) - den.log2 - 53) < (num / den : ℚ) ∧
      (num / den : ℚ) < 2 ^ 54 * 2 ^ ((num.log2 : Int) - den.log2 - 53) := by
  have hd' : (0 : ℚ) < den := Nat.cast_pos.2 hd
  have hn₁ : ((2 ^ num.log2 : Nat) : ℚ) ≤ num := Nat.cast_le.2 (Nat.log2_self_le hn.ne')
  have hn₂ : (num : ℚ) < (2 ^ (num.log2 + 1) : Nat) := Nat.cast_lt.2 Nat.lt_log2_self
  have hd₁ : ((2 ^ den.log2 : Nat) : ℚ) ≤ den := Nat.cast_le.2 (Nat.log2_self_le hd.ne')
  have hd₂ : (den : ℚ) < (2 ^ (den.log2 + 1) : Nat) := Nat.cast_lt.2 Nat.lt_log2_self
  push_cast [pow_succ] at hn₁ hn₂ hd₁ hd₂
  generalize num.log2 = a at *
  generalize den.log2 = b at *
  have hsplit : (2 : ℚ) ^ ((a : Int) - b - 53) = 2 ^ a / 2 ^ b / 2 ^ 53 := by
    rw [zpow_sub₀ (by norm_num), zpow_sub₀ (by norm_num), zpow_natCast, zpow_natCast]
    norm_num
  have ha : (0 : ℚ) < 2 ^ a := by positivity
  have hb : (0 : ℚ) < 2 ^ b := by positivity
  rw [hsplit]
  constructor
  · rw [lt_div_iff₀ hd']
    calc 2 ^ 52 * (2 ^ a / 2 ^ b / 2 ^ 53) * (den : ℚ)
        < 2 ^ 52 * (2 ^ a / 2 ^ b / 2 ^ 53) * (2 ^ b * 2) := by gcongr
      _ = 2 ^ a := by field_simp
      _ ≤ num := hn₁
  · rw [div_lt_iff₀ hd']
    calc (num : ℚ) < 2 ^ a * 2 := hn₂
      _ = 2 ^ 54 * (2 ^ a / 2 ^ b / 2 ^ 53) * 2 ^ b := by field_simp
      _ ≤ 2 ^ 54 * (2 ^ a / 2 ^ b / 2 ^ 53) * den := by gcongr

/-- Rounding tests its guess of a scale without leaving the natural numbers. -/
private theorem lt_scale_iff (num : Nat) {den : Nat} (hd : 0 < den) (e : Int) :
    num * (powerRatio 2 e).2 < 2 * binade * (den * (powerRatio 2 e).1) ↔
      (num / den : ℚ) < 2 ^ 53 * 2 ^ e := by
  have hd' : (0 : ℚ) < den := Nat.cast_pos.2 hd
  have hp : (0 : ℚ) < (powerRatio 2 e).2 := Nat.cast_pos.2 (powerRatio_pos two_pos e).2
  have hquot := powerRatio_quot two_pos e
  rw [Nat.cast_ofNat] at hquot
  rw [← hquot, mul_div_assoc', div_lt_div_iff₀ hd' hp, ← Nat.cast_lt (α := ℚ)]
  simp only [binade_eq, Nat.cast_mul, Nat.cast_pow, Nat.cast_ofNat]
  rw [← pow_succ', mul_assoc (2 ^ 53 : ℚ), mul_comm (den : ℚ)]

/-- Rounding works with the scale of its quotient. -/
theorem isScale_scaleOf {num den : Nat} (hn : 0 < num) (hd : 0 < den) :
    IsScale (num / den) (scaleOf num den) := by
  obtain ⟨hlo, hhi⟩ := quot_bounds hn hd
  unfold scaleOf
  generalize (num.log2 : Int) - den.log2 - 53 = guess at hlo hhi ⊢
  simp only []
  have htest := lt_scale_iff num hd guess
  have hpow (e : Int) : (2 : ℚ) ^ 53 * 2 ^ e ≤ 2 ^ 53 * 2 ^ max e (-1074) :=
    mul_le_mul_of_nonneg_left (zpow_le_zpow_right₀ (by norm_num) (le_max_left _ _)) (by norm_num)
  split
  case isTrue h =>
    refine ⟨le_max_right _ _, (htest.1 h).trans_le (hpow _), ?_⟩
    rcases le_total guess (-1074) with hg | hg
    · exact .inl (max_eq_right hg)
    · rw [max_eq_left hg]
      exact .inr hlo.le
  case isFalse h =>
    have hge : 2 ^ 52 * 2 ^ (guess + 1) ≤ (num / den : ℚ) := by
      rw [two_zpow_succ]
      linarith [not_lt.1 (fun hlt => h (htest.2 hlt))]
    have hlt : (num / den : ℚ) < 2 ^ 53 * 2 ^ (guess + 1) := by
      rw [two_zpow_succ]
      linarith
    refine ⟨le_max_right _ _, hlt.trans_le (hpow _), ?_⟩
    rcases le_total (guess + 1) (-1074) with hg | hg
    · exact .inl (max_eq_right hg)
    · rw [max_eq_left hg]
      exact .inr hge

theorem rankOfRatio_of_isScale {num den m : Nat} {e : Int} (hn : 0 < num) (hd : 0 < den)
    (he : IsScale (num / den) e) (hm : |(num / den / 2 ^ e : ℚ) - m| < 1 / 2) :
    rankOfRatio num den = min infiniteRank ((e + 1074).toNat * binade + m) := by
  obtain rfl := he.unique (isScale_scaleOf hn hd)
  have hpos := powerRatio_pos (show 0 < 2 by norm_num) (scaleOf num den)
  have hquot := div_powerRatio_quot (show 0 < 2 by norm_num) num den (scaleOf num den)
  rw [Nat.cast_ofNat] at hquot
  rw [rankOfRatio_eq_scaleOf hn, roundQuotient_of_near (Nat.mul_pos hd hpos.1)]
  rwa [hquot]

/-- Rounding depends on the exact value only. -/
theorem rankOfRatio_congr {n₁ d₁ n₂ d₂ : Nat} (h₁ : 0 < d₁) (h₂ : 0 < d₂)
    (hq : (n₁ / d₁ : ℚ) = n₂ / d₂) : rankOfRatio n₁ d₁ = rankOfRatio n₂ d₂ := by
  have h : n₁ * d₂ = n₂ * d₁ := by
    rw [div_eq_div_iff (Nat.cast_ne_zero.2 h₁.ne') (Nat.cast_ne_zero.2 h₂.ne')] at hq
    exact_mod_cast hq
  rcases Nat.eq_zero_or_pos n₁ with rfl | hn₁
  · rw [Nat.zero_mul] at h
    have hn₂ : n₂ = 0 := (Nat.mul_eq_zero.1 h.symm).resolve_right h₁.ne'
    rw [hn₂, rankOfRatio, rankOfRatio, if_pos rfl, if_pos rfl]
  · have hn₂ : 0 < n₂ := Nat.pos_of_mul_pos_right (h ▸ Nat.mul_pos hn₁ h₂ : 0 < n₂ * d₁)
    have hs : scaleOf n₁ d₁ = scaleOf n₂ d₂ :=
      (hq ▸ isScale_scaleOf hn₁ h₁ : IsScale (n₂ / d₂) (scaleOf n₁ d₁)).unique
        (isScale_scaleOf hn₂ h₂)
    have hp := powerRatio_pos (show 0 < 2 by norm_num) (scaleOf n₂ d₂)
    rw [rankOfRatio_eq_scaleOf hn₁, rankOfRatio_eq_scaleOf hn₂, hs,
      roundQuotient_congr (Nat.mul_pos h₁ hp.1) (Nat.mul_pos h₂ hp.1)]
    rw [Nat.mul_mul_mul_comm, h, ← Nat.mul_mul_mul_comm]

/-! ## Doubles by their magnitude -/

/-- The exact magnitude of a finite double. -/
def magnitude (x : Double) : ℚ := x.mantissa * 2 ^ x.exponent

theorem ratio_pos (x : Double) : 0 < x.ratio.2 :=
  (powerRatio_pos (by norm_num) _).2

theorem ratio_quot (x : Double) : (x.ratio.1 : ℚ) / x.ratio.2 = x.magnitude := by
  have h := mul_powerRatio_quot (show 0 < 2 by norm_num) x.mantissa 1 x.exponent
  simpa [ratio, magnitude] using h

theorem rank_eq (x : Double) : x.rank = (x.exponent + 1074).toNat * binade + x.mantissa := by
  rw [exponent, mantissa, binade_eq]
  split <;> omega

theorem exponent_ge (x : Double) : -1074 ≤ x.exponent := by
  rw [exponent, binade_eq]
  split <;> omega

/-- A double counted in the smallest unit may have any number of bits, any other has 53. -/
theorem exponent_eq_or_le_mantissa (x : Double) : x.exponent = -1074 ∨ binade ≤ x.mantissa := by
  unfold exponent mantissa
  split
  · exact .inl rfl
  · exact .inr (Nat.le_add_right _ _)

theorem mantissa_pos {x : Double} (h : 0 < x.rank) : 0 < x.mantissa := by
  rcases x.exponent_eq_or_le_mantissa with he | hm
  · have := x.rank_eq
    rw [he, binade_eq] at this
    omega
  · exact Nat.lt_of_lt_of_le (by decide) hm

theorem magnitude_pos {x : Double} (h : 0 < x.rank) : 0 < x.magnitude :=
  mul_pos (Nat.cast_pos.2 (mantissa_pos h)) (two_zpow_pos _)

theorem mantissa_le (x : Double) : (x.mantissa : ℚ) ≤ 2 ^ 53 - 1 := by
  have hlt : x.mantissa + 1 ≤ 2 ^ 53 := x.mantissa_lt
  have hcast : (x.mantissa : ℚ) + 1 ≤ 2 ^ 53 := by exact_mod_cast hlt
  linarith

theorem rank_le_of_isFinite {x : Double} (hx : x.isFinite) : x.rank ≤ infiniteRank := by
  have hlt : x.rank < infiniteRank := by simpa [isFinite] using hx
  exact hlt.le

/-- A number near a double, in units of the double: the double itself is its mantissa then. -/
private theorem exists_units_of_near {x : Double} {q : ℚ}
    (h : |q - x.magnitude| < x.magnitude / 2 ^ 54) :
    ∃ t : ℚ, q = t * 2 ^ x.exponent ∧ |t - x.mantissa| < x.mantissa / 2 ^ 54 := by
  have hE := two_zpow_pos x.exponent
  have ht : q = q / 2 ^ x.exponent * 2 ^ x.exponent := (div_mul_cancel₀ _ hE.ne').symm
  refine ⟨_, ht, ?_⟩
  rw [ht, magnitude, ← sub_mul, abs_mul, abs_of_pos hE, mul_div_right_comm] at h
  exact lt_of_mul_lt_mul_right h hE.le

section

variable {x : Double} {num den : Nat} {t : ℚ}

/-- A quotient that is counted in the unit of a double and lies near it rounds to it. -/
private theorem rankOfRatio_of_same_unit (hx : x.isFinite) (hn : 0 < num) (hd : 0 < den)
    (ht : (num / den : ℚ) = t * 2 ^ x.exponent) (hnear : |t - x.mantissa| < x.mantissa / 2 ^ 54)
    (hunit : x.exponent = -1074 ∨ 2 ^ 52 ≤ t) : rankOfRatio num den = x.rank := by
  have hE := two_zpow_pos x.exponent
  have hM := x.mantissa_le
  obtain ⟨hlo, hhi⟩ := abs_lt.1 hnear
  have hs : IsScale (num / den) x.exponent := by
    refine ⟨x.exponent_ge, ?_, hunit.imp_right fun hle => ?_⟩
    · rw [ht]
      exact mul_lt_mul_of_pos_right (by linarith) hE
    · rw [ht]
      exact mul_le_mul_of_nonneg_right hle hE.le
  rw [rankOfRatio_of_isScale (m := x.mantissa) hn hd hs, ← x.rank_eq,
    min_eq_right (rank_le_of_isFinite hx)]
  rw [ht, mul_div_cancel_right₀ _ hE.ne']
  linarith

/-- Below the least mantissa the neighbours lie closer: the double is that mantissa, and the
quotient is counted in half the unit. -/
private theorem rankOfRatio_of_half_unit (hx : x.isFinite) (hn : 0 < num) (hd : 0 < den)
    (ht : (num / den : ℚ) = t * 2 ^ x.exponent) (hnear : |t - x.mantissa| < x.mantissa / 2 ^ 54)
    (hne : x.exponent ≠ -1074) (hlt : t < 2 ^ 52) : rankOfRatio num den = x.rank := by
  have hM := x.mantissa_le
  obtain ⟨hlo, hhi⟩ := abs_lt.1 hnear
  have hM' : x.mantissa = 2 ^ 52 := by
    have hge : 2 ^ 52 ≤ x.mantissa := x.exponent_eq_or_le_mantissa.resolve_left hne
    have hcast : (x.mantissa : ℚ) < 2 ^ 52 + 1 := by linarith
    have hle : x.mantissa < 2 ^ 52 + 1 := by exact_mod_cast hcast
    omega
  have hMq : (x.mantissa : ℚ) = 2 ^ 52 := by rw [hM']; norm_num
  have hunit : (2 : ℚ) ^ x.exponent = 2 * 2 ^ (x.exponent - 1) := by
    rw [← two_zpow_succ, sub_add_cancel]
  have hE := two_zpow_pos (x.exponent - 1)
  have hge := x.exponent_ge
  rw [hMq] at hlo hhi
  have hs : IsScale (num / den) (x.exponent - 1) := by
    refine ⟨by omega, ?_, .inr ?_⟩
    · rw [ht, hunit, ← mul_assoc]
      exact mul_lt_mul_of_pos_right (by linarith) hE
    · rw [ht, hunit, ← mul_assoc]
      exact mul_le_mul_of_nonneg_right (by linarith) hE.le
  have hrank : x.rank = (x.exponent - 1 + 1074).toNat * binade + 2 ^ 53 := by
    rw [x.rank_eq, hM', binade_eq]
    omega
  rw [rankOfRatio_of_isScale (m := 2 ^ 53) hn hd hs, ← hrank,
    min_eq_right (rank_le_of_isFinite hx)]
  rw [ht, hunit, ← mul_assoc, mul_div_cancel_right₀ _ hE.ne', Nat.cast_pow, Nat.cast_ofNat]
  rw [abs_lt]
  constructor <;> linarith

/-- Near a finite double that is not zero, quotients round to it. -/
theorem rankOfRatio_of_near (hx : x.isFinite) (hr : 0 < x.rank) (hd : 0 < den)
    (h : |(num / den : ℚ) - x.magnitude| < x.magnitude / 2 ^ 54) :
    rankOfRatio num den = x.rank := by
  have hn : 0 < num := by
    rcases Nat.eq_zero_or_pos num with rfl | hn
    · have hpos := magnitude_pos hr
      rw [Nat.cast_zero, zero_div, zero_sub, abs_neg, abs_of_pos hpos] at h
      linarith
    · exact hn
  obtain ⟨t, ht, hnear⟩ := exists_units_of_near h
  by_cases hunit : x.exponent = -1074 ∨ 2 ^ 52 ≤ t
  · exact rankOfRatio_of_same_unit hx hn hd ht hnear hunit
  · rw [not_or, not_le] at hunit
    exact rankOfRatio_of_half_unit hx hn hd ht hnear hunit.1 hunit.2

end

/-! ## Decimals -/

/-- A decimal lies between the powers of ten that its number of digits tells. -/
private theorem decimal_bounds {c : Nat} (hc : 0 < c) (e : Int) :
    (10 : ℚ) ^ (((Nat.toDigits 10 c).length : Int) + e - 1) ≤ c * 10 ^ e ∧
      (c : ℚ) * 10 ^ e < 10 ^ (((Nat.toDigits 10 c).length : Int) + e) := by
  have hten : (10 : ℚ) ≠ 0 := by norm_num
  have he : (0 : ℚ) < 10 ^ e := zpow_pos (by norm_num) e
  have hpos : 0 < (Nat.toDigits 10 c).length := Nat.length_toDigits_pos
  have hlo : ((10 ^ ((Nat.toDigits 10 c).length - 1) : Nat) : ℚ) ≤ c :=
    Nat.cast_le.2 (pow_length_toDigits_le hc)
  have hhi : (c : ℚ) < (10 ^ (Nat.toDigits 10 c).length : Nat) :=
    Nat.cast_lt.2 (lt_pow_length_toDigits c)
  push_cast at hlo hhi
  constructor
  · have hk : ((Nat.toDigits 10 c).length : Int) + e - 1
        = ((Nat.toDigits 10 c).length - 1 : Nat) + e := by omega
    rw [hk, zpow_add₀ hten, zpow_natCast]
    exact mul_le_mul_of_nonneg_right hlo he.le
  · rw [zpow_add₀ hten, zpow_natCast]
    exact mul_lt_mul_of_pos_right hhi he

/-- The magnitudes of finite doubles other than zero. -/
theorem magnitude_bounds {x : Double} (hx : x.isFinite) (hr : 0 < x.rank) :
    (2 : ℚ) ^ (-1074 : Int) ≤ x.magnitude ∧ x.magnitude < 2 ^ (1024 : Int) := by
  have hM : (1 : ℚ) ≤ x.mantissa := Nat.one_le_cast.2 (mantissa_pos hr)
  have hM' : (x.mantissa : ℚ) < 2 ^ 53 := x.mantissa_le.trans_lt (by norm_num)
  have he : x.exponent ≤ 971 := by
    have : x.rank < 2047 * 2 ^ 52 := of_decide_eq_true hx
    rw [exponent, binade_eq]
    split <;> omega
  have hE := two_zpow_pos x.exponent
  constructor
  · calc (2 : ℚ) ^ (-1074 : Int) ≤ 2 ^ x.exponent :=
          zpow_le_zpow_right₀ (by norm_num) x.exponent_ge
      _ ≤ x.magnitude := le_mul_of_one_le_left hE.le hM
  · calc x.magnitude < (2 : ℚ) ^ (53 : Int) * 2 ^ x.exponent :=
          mul_lt_mul_of_pos_right (by exact_mod_cast hM') hE
      _ = 2 ^ (53 + x.exponent) := (zpow_add₀ (by norm_num) _ _).symm
      _ ≤ 2 ^ (1024 : Int) := zpow_le_zpow_right₀ (by norm_num) (by omega)

private theorem two_pow_lt_ten_pow : 2 * (2 : ℚ) ^ (1024 : Int) < 10 ^ (400 : Int) := by
  calc 2 * (2 : ℚ) ^ (1024 : Int) = 2 ^ (1024 + 1 : Int) := (two_zpow_succ 1024).symm
    _ = (2 ^ (41 : Int)) ^ (25 : Int) := by rw [← zpow_mul]; congr 1
    _ < (10 ^ (16 : Int)) ^ (25 : Int) :=
      zpow_lt_zpow_left₀ (by norm_num) (by norm_num) (by norm_num)
    _ = 10 ^ (400 : Int) := by rw [← zpow_mul]; congr 1

private theorem ten_pow_lt_two_pow : 2 * (10 : ℚ) ^ (-400 : Int) < 2 ^ (-1074 : Int) := by
  calc 2 * (10 : ℚ) ^ (-400 : Int) = 2 * ((10 ^ (16 : Int)) ^ (25 : Int))⁻¹ := by
        rw [← zpow_mul, ← zpow_neg]; congr 1
    _ < 2 * ((2 ^ (43 : Int)) ^ (25 : Int))⁻¹ := by
        refine mul_lt_mul_of_pos_left (inv_strictAnti₀ (by positivity) ?_) (by norm_num)
        exact zpow_lt_zpow_left₀ (by norm_num) (by norm_num) (by norm_num)
    _ = 2 ^ (-1075 + 1 : Int) := by rw [← zpow_mul, ← zpow_neg, two_zpow_succ]; congr 1
    _ = 2 ^ (-1074 : Int) := by congr 1

/-- A decimal near a finite double is not out of all range. -/
private theorem size_of_near {x : Double} (hx : x.isFinite) (hr : 0 < x.rank) {c : Nat} {e : Int}
    (hc : 0 < c) (h : |(c : ℚ) * 10 ^ e - x.magnitude| < x.magnitude / 2 ^ 54) :
    -400 ≤ ((Nat.toDigits 10 c).length : Int) + e ∧
      ((Nat.toDigits 10 c).length : Int) + e ≤ 400 := by
  obtain ⟨hmin, hmax⟩ := magnitude_bounds hx hr
  obtain ⟨hlo, hhi⟩ := abs_lt.1 h
  obtain ⟨hsize₁, hsize₂⟩ := decimal_bounds hc e
  have hX := magnitude_pos hr
  constructor
  · by_contra hlt
    have hten : (10 : ℚ) ^ (((Nat.toDigits 10 c).length : Int) + e) ≤ 10 ^ (-400 : Int) :=
      zpow_le_zpow_right₀ (by norm_num) (by omega)
    have hhalf : x.magnitude < 2 * ((c : ℚ) * 10 ^ e) := by linarith only [hlo, hX]
    exact lt_irrefl _ (calc x.magnitude < 2 * ((c : ℚ) * 10 ^ e) := hhalf
      _ < 2 * 10 ^ (-400 : Int) :=
        mul_lt_mul_of_pos_left (hsize₂.trans_le hten) (by norm_num)
      _ < 2 ^ (-1074 : Int) := ten_pow_lt_two_pow
      _ ≤ x.magnitude := hmin)
  · by_contra hgt
    have hten : (10 : ℚ) ^ (400 : Int) ≤ 10 ^ (((Nat.toDigits 10 c).length : Int) + e - 1) :=
      zpow_le_zpow_right₀ (by norm_num) (by omega)
    have hdouble : (c : ℚ) * 10 ^ e < 2 * x.magnitude := by linarith only [hhi, hX]
    exact lt_irrefl _ (calc (10 : ℚ) ^ (400 : Int) ≤ c * 10 ^ e := hten.trans hsize₁
      _ < 2 * x.magnitude := hdouble
      _ < 2 * 2 ^ (1024 : Int) := mul_lt_mul_of_pos_left hmax (by norm_num)
      _ < 10 ^ (400 : Int) := two_pow_lt_ten_pow)

/-- A decimal near a finite double that is not zero reads as it. -/
theorem ofDecimal_of_near {x : Double} (hx : x.isFinite) (hr : 0 < x.rank) {c : Nat} {e : Int}
    (h : |(c : ℚ) * 10 ^ e - x.magnitude| < x.magnitude / 2 ^ 54) :
    ofDecimal x.negative c e = x := by
  have hc : 0 < c := by
    rcases Nat.eq_zero_or_pos c with rfl | hc
    · have hX := magnitude_pos hr
      have hlo := (abs_lt.1 h).1
      rw [Nat.cast_zero, zero_mul] at hlo
      linarith
    · exact hc
  obtain ⟨hlarge, hsmall⟩ := size_of_near hx hr hc h
  have hp := powerRatio_pos (show 0 < 10 by norm_num) e
  have hquot := powerRatio_quot (show 0 < 10 by norm_num) e
  rw [Nat.cast_ofNat] at hquot
  have hrank : rankOfRatio (c * (powerRatio 10 e).1) (powerRatio 10 e).2 = x.rank := by
    refine rankOfRatio_of_near hx hr hp.2 ?_
    rwa [Nat.cast_mul, mul_div_assoc, hquot]
  rw [ofDecimal, if_neg hc.ne']
  simp only [if_neg (Int.not_lt.2 hsmall), if_neg (Int.not_lt.2 hlarge), ofRatio, hrank]

/-- A decimal may be written with more zeros at its end. -/
theorem ofDecimal_mul_pow (negative : Bool) (c : Nat) (e : Int) (k : Nat) :
    ofDecimal negative (c * 10 ^ k) (e - k) = ofDecimal negative c e := by
  rcases Nat.eq_zero_or_pos c with rfl | hc
  · simp [ofDecimal]
  have hck : 0 < c * 10 ^ k := Nat.mul_pos hc (Nat.pow_pos (by decide))
  have hsize : ((Nat.toDigits 10 (c * 10 ^ k)).length : Int) + (e - k)
      = (Nat.toDigits 10 c).length + e := by
    rw [length_toDigits_mul_pow hc]
    omega
  have hp := powerRatio_pos (show 0 < 10 by norm_num) e
  have hp' := powerRatio_pos (show 0 < 10 by norm_num) (e - k)
  have hquot := powerRatio_quot (show 0 < 10 by norm_num) e
  have hquot' := powerRatio_quot (show 0 < 10 by norm_num) (e - k)
  rw [Nat.cast_ofNat] at hquot hquot'
  have hrank : rankOfRatio (c * 10 ^ k * (powerRatio 10 (e - k)).1) (powerRatio 10 (e - k)).2
      = rankOfRatio (c * (powerRatio 10 e).1) (powerRatio 10 e).2 := by
    refine rankOfRatio_congr hp'.2 hp.2 ?_
    rw [Nat.cast_mul, Nat.cast_mul c (powerRatio 10 e).1, mul_div_assoc, mul_div_assoc, hquot,
      hquot', zpow_sub₀ (by norm_num), zpow_natCast]
    push_cast
    field_simp
  rw [ofDecimal, ofDecimal, if_neg hc.ne', if_neg hck.ne']
  simp only [hsize, ofRatio, hrank]

end Double

end AgentFlow
