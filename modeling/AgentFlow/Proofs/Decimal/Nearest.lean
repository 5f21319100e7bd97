import AgentFlow.Proofs.Decimal.Rounding

/-!
# The nearest double

Rounding gives the double that lies nearest to a quotient, and of two that lie equally near the one
with the even mantissa. Infinity takes part as if it were the double behind the greatest finite one,
so it is also what all greater numbers are rounded to.

* `roundQuotient_nearest`, `roundQuotient_even`: the same of integers.
* `magnitude_of_rank`, `magnitude_grid`: doubles as multiples of a power of two.
* `Double.IsNearest`, `isNearest_ofRatio`: rounding gives the nearest double.
* `IsNearest.isFinite_iff`: which numbers are rounded to a finite double.
* `IsNearest.magnitude_eq`, `IsNearest.le_magnitude`: integers below `2 ^ 53` are doubles, and no
  other number is rounded to one of them.
* `ofDecimal_zero_exponent`: decimal digits without a point are rounded in the same way.
-/

namespace AgentFlow

/-! ## The nearest integer -/

section

variable {num den k : Nat}

/-- Rounding is off by half a unit at most. -/
theorem abs_roundQuotient_sub_le (num : Nat) (hd : 0 < den) :
    |(roundQuotient num den : ℚ) - num / den| ≤ 1 / 2 := by
  have hd' : (0 : ℚ) < den := Nat.cast_pos.2 hd
  obtain ⟨hlo, hhi⟩ := roundQuotient_half num hd
  have hlo' : (2 * (roundQuotient num den * den) : ℚ) ≤ 2 * num + den := by exact_mod_cast hlo
  have hhi' : (2 * num : ℚ) ≤ 2 * (roundQuotient num den * den) + den := by exact_mod_cast hhi
  have hq : (num / den : ℚ) * den = num := div_mul_cancel₀ _ hd'.ne'
  rw [← hq] at hlo' hhi'
  rw [abs_le]
  constructor
  · refine le_of_mul_le_mul_right ?_ hd'
    linarith
  · refine le_of_mul_le_mul_right ?_ hd'
    linarith

/-- Different integers are a unit apart. -/
private theorem one_le_abs_sub {m : Nat} (h : k ≠ m) : (1 : ℚ) ≤ |(k : ℚ) - m| := by
  have hne : (k : Int) - m ≠ 0 := by omega
  exact_mod_cast Int.one_le_abs hne

/-- No integer lies nearer to a quotient than the one it is rounded to. -/
theorem roundQuotient_nearest (num : Nat) (hd : 0 < den) (k : Nat) :
    |(roundQuotient num den : ℚ) - num / den| ≤ |(k : ℚ) - num / den| := by
  have hhalf := abs_roundQuotient_sub_le num hd
  by_cases hk : k = roundQuotient num den
  · rw [hk]
  · have hone := one_le_abs_sub hk
    have htriangle := abs_sub_le (k : ℚ) (num / den) (roundQuotient num den)
    rw [abs_sub_comm (num / den : ℚ)] at htriangle
    linarith

theorem roundQuotient_cases (num den : Nat) :
    (roundQuotient num den = num / den ∧
        (2 * (num % den) < den ∨ 2 * (num % den) = den ∧ num / den % 2 = 0)) ∨
      (roundQuotient num den = num / den + 1 ∧
        (den < 2 * (num % den) ∨ 2 * (num % den) = den ∧ num / den % 2 = 1)) := by
  unfold roundQuotient
  simp only []
  by_cases hlow : 2 * (num % den) < den
  · exact .inl ⟨if_pos hlow, .inl hlow⟩
  · rw [if_neg hlow]
    by_cases hhigh : den < 2 * (num % den)
    · exact .inr ⟨if_pos hhigh, .inl hhigh⟩
    · rw [if_neg hhigh]
      by_cases heven : num / den % 2 = 0
      · exact .inl ⟨if_pos heven, .inr ⟨by omega, heven⟩⟩
      · exact .inr ⟨if_neg heven, .inr ⟨by omega, by omega⟩⟩

/-- A quotient half a unit away from what it is rounded to is rounded to an even integer. -/
private theorem even_roundQuotient_of_half (hd : 0 < den)
    (h : 2 * (roundQuotient num den * den) = 2 * num + den ∨
      2 * num = 2 * (roundQuotient num den * den) + den) : roundQuotient num den % 2 = 0 := by
  have hq := Nat.div_add_mod num den
  have hlt := Nat.mod_lt num hd
  have hcases := roundQuotient_cases num den
  rw [Nat.mul_comm] at hq
  generalize num / den = q at hq hcases
  generalize num % den = r at hq hlt hcases
  rcases hcases with ⟨heq, hr⟩ | ⟨heq, hr⟩
  · rw [heq] at h ⊢
    omega
  · rw [heq, Nat.add_one_mul q den] at h
    omega

/-- Of two integers that lie equally near to a quotient the even one is taken. -/
theorem roundQuotient_even (hd : 0 < den) (hk : k ≠ roundQuotient num den)
    (h : |(roundQuotient num den : ℚ) - num / den| = |(k : ℚ) - num / den|) :
    roundQuotient num den % 2 = 0 := by
  have hd' : (0 : ℚ) < den := Nat.cast_pos.2 hd
  have hhalf := abs_roundQuotient_sub_le num hd
  have hone := one_le_abs_sub hk
  have htriangle := abs_sub_le (k : ℚ) (num / den) (roundQuotient num den)
  rw [abs_sub_comm (num / den : ℚ), ← h] at htriangle
  have heq : |(roundQuotient num den : ℚ) - num / den| = 1 / 2 := by linarith
  have hq : (num / den : ℚ) * den = num := div_mul_cancel₀ _ hd'.ne'
  refine even_roundQuotient_of_half hd ?_
  rcases (abs_eq (by norm_num)).1 heq with hup | hdown
  · have hscaled := congrArg (· * (den : ℚ)) hup
    simp only [sub_mul, hq] at hscaled
    have : (2 * (roundQuotient num den * den) : ℚ) = 2 * num + den := by linarith
    exact .inl (by exact_mod_cast this)
  · have hscaled := congrArg (· * (den : ℚ)) hdown
    simp only [sub_mul, hq] at hscaled
    have : (2 * num : ℚ) = 2 * (roundQuotient num den * den) + den := by linarith
    exact .inr (by exact_mod_cast this)

end

namespace Double

/-! ## Doubles as multiples of a power of two -/

section

variable {x y : Double} {e : Int} {m : Nat}

/-- The rank of `m` units of `2 ^ e` tells the magnitude; `2 ^ 53` units are the first double of the
next exponent. -/
theorem magnitude_of_rank (he : -1074 ≤ e) (hm : m ≤ 2 * binade)
    (hunit : e = -1074 ∨ binade ≤ m) (hx : x.rank = (e + 1074).toNat * binade + m) :
    x.magnitude = m * 2 ^ e := by
  rw [binade_eq] at hm hunit hx
  rcases Nat.lt_or_ge m (2 ^ 53) with hlt | hge
  · have hexponent : x.exponent = e := by
      rw [exponent, binade_eq, hx]
      split <;> omega
    have hmantissa : x.mantissa = m := by
      rw [mantissa, binade_eq, hx]
      split <;> omega
    rw [magnitude, hexponent, hmantissa]
  · have hexponent : x.exponent = e + 1 := by
      rw [exponent, binade_eq, hx]
      split <;> omega
    have hmantissa : x.mantissa = 2 ^ 52 := by
      rw [mantissa, binade_eq, hx]
      split <;> omega
    have hm' : m = 2 * 2 ^ 52 := by omega
    rw [magnitude, hexponent, hmantissa, two_zpow_succ, hm', Nat.cast_mul, Nat.cast_ofNat,
      mul_left_comm, mul_assoc]

theorem mantissa_mod_two (hx : x.rank = (e + 1074).toNat * binade + m)
    (hm : m % 2 = 0) : x.mantissa % 2 = 0 := by
  rw [binade_eq] at hx
  rw [mantissa, binade_eq, hx]
  split <;> omega

/-- A double is a whole number of units of `2 ^ e`, or it has less than `2 ^ 52` of them. -/
theorem magnitude_grid (y : Double) (e : Int) :
    (∃ k : Nat, y.magnitude = k * 2 ^ e) ∨ -1074 < e ∧ y.magnitude < 2 ^ 52 * 2 ^ e := by
  have hge := y.exponent_ge
  rcases lt_or_ge y.exponent e with hlt | hle
  · refine .inr ⟨by omega, ?_⟩
    have hM : (y.mantissa : ℚ) < 2 ^ 53 := y.mantissa_le.trans_lt (by norm_num)
    calc y.magnitude < 2 ^ 53 * 2 ^ y.exponent :=
          mul_lt_mul_of_pos_right hM (two_zpow_pos _)
      _ = 2 ^ 52 * 2 ^ (y.exponent + 1) := by
          rw [two_zpow_succ, ← mul_assoc, ← pow_succ]
      _ ≤ 2 ^ 52 * 2 ^ e :=
          mul_le_mul_of_nonneg_left (zpow_le_zpow_right₀ (by norm_num) hlt) (by norm_num)
  · refine .inl ⟨y.mantissa * 2 ^ (y.exponent - e).toNat, ?_⟩
    have hsplit : (2 : ℚ) ^ y.exponent = 2 ^ (y.exponent - e).toNat * 2 ^ e := by
      rw [← zpow_natCast, ← zpow_add₀ (by norm_num)]
      congr 1
      omega
    rw [magnitude, hsplit, ← mul_assoc]
    push_cast
    rfl

private theorem two_pow_1024 : (2 : ℚ) ^ 1024 = 2 ^ 52 * 2 ^ (972 : Int) := by
  rw [← zpow_natCast, ← zpow_natCast, ← zpow_add₀ (by norm_num)]
  rfl

theorem magnitude_infinity (negative : Bool) : (infinity negative).magnitude = 2 ^ 1024 := by
  have h := magnitude_of_rank (x := infinity negative) (e := 972) (m := binade) (by decide)
    (by decide) (.inr (Nat.le_refl _)) (show infiniteRank = _ by decide)
  rw [h, binade_eq, Nat.cast_pow, Nat.cast_ofNat, two_pow_1024]

theorem magnitude_of_rank_eq (h : x.rank = infiniteRank) : x.magnitude = 2 ^ 1024 := by
  have hx : x = infinity x.negative := by rw [infinity, ← h]
  rw [hx, magnitude_infinity]

/-- No double lies behind infinity. -/
theorem magnitude_le (h : x.rank ≤ infiniteRank) : x.magnitude ≤ 2 ^ 1024 := by
  rcases Nat.lt_or_eq_of_le h with hlt | heq
  · rcases Nat.eq_zero_or_pos x.rank with h0 | hpos
    · have hm : x.mantissa = 0 := by rw [mantissa, h0]; rfl
      rw [magnitude, hm, Nat.cast_zero, zero_mul]
      positivity
    · have hx : x.isFinite = true := by simpa [isFinite] using hlt
      exact_mod_cast (magnitude_bounds hx hpos).2.le
  · exact (magnitude_of_rank_eq heq).le

end

/-! ## The nearest double -/

/-- A double is the nearest one to a number that is not negative: no magnitude of a double lies
nearer, and if another one lies as near, the mantissa is even. Infinity counts as `2 ^ 1024`. -/
structure IsNearest (x : Double) (q : ℚ) : Prop where
  rank_le : x.rank ≤ infiniteRank
  near : ∀ y : Double, y.rank ≤ infiniteRank → |x.magnitude - q| ≤ |y.magnitude - q|
  even : ∀ y : Double, y.rank ≤ infiniteRank → y.magnitude ≠ x.magnitude →
    |x.magnitude - q| = |y.magnitude - q| → x.mantissa % 2 = 0

/-- A number rounded to `m` units of `2 ^ e`, its scale. -/
structure IsRounding (q : ℚ) (e : Int) (m : Nat) : Prop where
  scale : IsScale q e
  near : ∀ k : Nat, |(m : ℚ) - q / 2 ^ e| ≤ |(k : ℚ) - q / 2 ^ e|
  even : ∀ k : Nat, k ≠ m → |(m : ℚ) - q / 2 ^ e| = |(k : ℚ) - q / 2 ^ e| → m % 2 = 0

/-- Rounding to a double is rounding to units of the scale, up to infinity. -/
theorem exists_isRounding {num den : Nat} (hn : 0 < num) (hd : 0 < den) :
    ∃ e m, IsRounding (num / den) e m ∧
      rankOfRatio num den = min infiniteRank ((e + 1074).toNat * binade + m) := by
  have hpos := powerRatio_pos (show 0 < 2 by norm_num) (scaleOf num den)
  have hquot := div_powerRatio_quot (show 0 < 2 by norm_num) num den (scaleOf num den)
  rw [Nat.cast_ofNat] at hquot
  refine ⟨_, _, ⟨isScale_scaleOf hn hd, fun k => ?_, fun k hk h => ?_⟩,
    rankOfRatio_eq_scaleOf hn den⟩
  · rw [← hquot]
    exact roundQuotient_nearest _ (Nat.mul_pos hd hpos.1) k
  · rw [← hquot] at h
    exact roundQuotient_even (Nat.mul_pos hd hpos.1) hk h

/-- Distances in units of `2 ^ e`. -/
private theorem abs_mul_sub_eq (k q : ℚ) (e : Int) :
    |k * 2 ^ e - q| = |k - q / 2 ^ e| * 2 ^ e := by
  have he := two_zpow_pos e
  rw [← abs_of_pos he, ← abs_mul, abs_of_pos he, sub_mul, div_mul_cancel₀ _ he.ne']

namespace IsRounding

variable {q : ℚ} {e : Int} {m : Nat}

theorem le (h : IsRounding q e m) : m ≤ 2 ^ 53 := by
  have hlt : q / 2 ^ e < 2 ^ 53 := (div_lt_iff₀ (two_zpow_pos e)).2 h.scale.lt
  have hnear := h.near (2 ^ 53)
  by_contra hm
  have hm' : (2 ^ 53 : ℚ) < m := by exact_mod_cast Nat.not_le.1 hm
  rw [abs_of_pos (by linarith), abs_of_pos (by push_cast; linarith)] at hnear
  push_cast at hnear
  linarith

/-- The scale leaves 53 bits, but in the smallest unit. -/
theorem unit (h : IsRounding q e m) : e = -1074 ∨ 2 ^ 52 ≤ m := by
  refine h.scale.le.imp_right fun hq => ?_
  have hle : 2 ^ 52 ≤ q / 2 ^ e := (le_div_iff₀ (two_zpow_pos e)).2 hq
  have hnear := h.near (2 ^ 52)
  by_contra hm
  have hm' : (m : ℚ) < 2 ^ 52 := by exact_mod_cast Nat.not_le.1 hm
  rw [abs_of_neg (by linarith), abs_of_nonpos (by push_cast; linarith)] at hnear
  push_cast at hnear
  linarith

/-- No magnitude lies nearer than the rounded one, and if another one lies as near, the rounded one
is an even number of units. -/
theorem near_magnitude (h : IsRounding q e m) (y : Double) :
    |m * 2 ^ e - q| ≤ |y.magnitude - q| ∧
      (y.magnitude ≠ m * 2 ^ e → |m * 2 ^ e - q| = |y.magnitude - q| → m % 2 = 0) := by
  have he := two_zpow_pos e
  rcases y.magnitude_grid e with ⟨k, hk⟩ | ⟨hne, hlt⟩
  · rw [hk, abs_mul_sub_eq, abs_mul_sub_eq]
    refine ⟨mul_le_mul_of_nonneg_right (h.near k) he.le, fun hdiff hdist => ?_⟩
    refine h.even k ?_ (mul_right_cancel₀ he.ne' hdist)
    rintro rfl
    exact hdiff rfl
  · -- Doubles of smaller exponents lie behind `2 ^ 52` units, which the number has not left.
    have hq : 2 ^ 52 * 2 ^ e ≤ q := h.scale.le.resolve_left (by omega)
    have hnear := mul_le_mul_of_nonneg_right (h.near (2 ^ 52)) he.le
    rw [← abs_mul_sub_eq, ← abs_mul_sub_eq, Nat.cast_pow, Nat.cast_ofNat,
      abs_of_nonpos (by linarith : (2 : ℚ) ^ 52 * 2 ^ e - q ≤ 0)] at hnear
    rw [abs_sub_comm y.magnitude, abs_of_pos (by linarith : 0 < q - y.magnitude)]
    exact ⟨by linarith, fun _ hdist => absurd hdist (by linarith)⟩

/-- Numbers that would be rounded behind infinity are no less than it counts. -/
theorem two_pow_le (h : IsRounding q e m)
    (hlt : infiniteRank < (e + 1074).toNat * binade + m) : 2 ^ 1024 ≤ q := by
  have hm := h.le
  have he : 972 ≤ e := by
    rw [infiniteRank, binade_eq] at hlt
    omega
  calc (2 : ℚ) ^ 1024 = 2 ^ 52 * 2 ^ (972 : Int) := two_pow_1024
    _ ≤ 2 ^ 52 * 2 ^ e :=
      mul_le_mul_of_nonneg_left (zpow_le_zpow_right₀ (by norm_num) he) (by norm_num)
    _ ≤ q := h.scale.le.resolve_left (by omega)

end IsRounding

/-- **Rounding gives the nearest double.** -/
theorem isNearest_ofRatio (negative : Bool) (num : Nat) {den : Nat} (hd : 0 < den) :
    (ofRatio negative num den).IsNearest (num / den) := by
  rcases Nat.eq_zero_or_pos num with rfl | hn
  · have hzero : (ofRatio negative 0 den).magnitude = 0 := by
      rw [ofRatio, rankOfRatio, if_pos rfl, magnitude]
      exact mul_eq_zero_of_left Nat.cast_zero _
    refine ⟨rankOfRatio_le 0 den, fun y _ => ?_, fun y _ hne hdist => ?_⟩
    · rw [hzero, Nat.cast_zero, zero_div, sub_zero, abs_zero]
      exact abs_nonneg _
    · rw [hzero, Nat.cast_zero, zero_div, sub_zero, sub_zero, abs_zero] at hdist
      exact absurd (hzero ▸ abs_eq_zero.1 hdist.symm) hne
  obtain ⟨e, m, h, hrank⟩ := exists_isRounding hn hd
  rcases Nat.lt_or_ge infiniteRank ((e + 1074).toNat * binade + m) with hlt | hle
  · rw [min_eq_left hlt.le] at hrank
    have hm : (ofRatio negative num den).magnitude = 2 ^ 1024 := magnitude_of_rank_eq hrank
    have hq := h.two_pow_le hlt
    refine ⟨rankOfRatio_le num den, fun y hy => ?_, fun y _ _ _ => ?_⟩
    · have hy := magnitude_le hy
      rw [hm]
      generalize (2 : ℚ) ^ 1024 = b at hq hy ⊢
      rw [abs_of_nonpos (by linarith), abs_of_nonpos (by linarith)]
      linarith
    · rw [mantissa, show (ofRatio negative num den).rank = infiniteRank from hrank]
      rfl
  · rw [min_eq_right hle] at hrank
    have hm := magnitude_of_rank (x := ofRatio negative num den) h.scale.smallest h.le h.unit hrank
    refine ⟨rankOfRatio_le num den, fun y _ => ?_, fun y _ hne hdist => ?_⟩
    · rw [hm]
      exact (h.near_magnitude y).1
    · rw [hm] at hne hdist
      exact mantissa_mod_two hrank ((h.near_magnitude y).2 hne hdist)

/-! ## Finite doubles -/

theorem rank_eq_of_not_isFinite {x : Double} (h : x.rank ≤ infiniteRank)
    (hx : ¬ x.isFinite = true) : x.rank = infiniteRank := by
  have hge : ¬ x.rank < infiniteRank := by simpa [isFinite] using hx
  omega

private theorem two_pow_1024_sub :
    (2 : ℚ) ^ 1024 - 2 * 2 ^ 970 = (2 ^ 53 - 1) * 2 ^ (971 : Int) := by
  have hlarge : (2 : ℚ) ^ 1024 = 2 ^ 53 * 2 ^ (971 : Int) := by
    rw [two_pow_1024, show (972 : Int) = 971 + 1 from rfl, two_zpow_succ, ← mul_assoc, ← pow_succ]
  have hsmall : 2 * (2 : ℚ) ^ 970 = 2 ^ (971 : Int) := by
    rw [show (971 : Int) = 970 + 1 from rfl, two_zpow_succ]
    rfl
  rw [hlarge, hsmall, sub_one_mul]

/-- The greatest finite magnitude. -/
theorem magnitude_le_of_isFinite {x : Double} (hx : x.isFinite) :
    x.magnitude ≤ 2 ^ 1024 - 2 * 2 ^ 970 ∧
      (x.magnitude = 2 ^ 1024 - 2 * 2 ^ 970 → x.mantissa % 2 = 1) := by
  have hexponent : x.exponent ≤ 971 := by
    have : x.rank < 2047 * 2 ^ 52 := of_decide_eq_true hx
    rw [exponent, binade_eq]
    split <;> omega
  have hpow : (2 : ℚ) ^ x.exponent ≤ 2 ^ (971 : Int) :=
    zpow_le_zpow_right₀ (by norm_num) hexponent
  have hM := x.mantissa_le
  have hpos := two_zpow_pos x.exponent
  rw [two_pow_1024_sub, magnitude]
  generalize (2 : ℚ) ^ x.exponent = p at hpow hpos ⊢
  generalize (2 : ℚ) ^ (971 : Int) = b at hpow ⊢
  refine ⟨mul_le_mul hM hpow hpos.le (by norm_num), fun h => ?_⟩
  have hmantissa : (x.mantissa : ℚ) = 2 ^ 53 - 1 := by
    by_contra hne
    have hlt : (x.mantissa : ℚ) < 2 ^ 53 - 1 := lt_of_le_of_ne hM hne
    exact absurd h (mul_lt_mul hlt hpow hpos (by norm_num)).ne
  have hnat : x.mantissa + 1 = 2 ^ 53 := by
    have : (x.mantissa : ℚ) + 1 = 2 ^ 53 := by linarith
    exact_mod_cast this
  omega

/-- The greatest finite double. -/
def greatest : Double := ⟨false, infiniteRank - 1⟩

theorem magnitude_greatest : greatest.magnitude = 2 ^ 1024 - 2 * 2 ^ 970 := by
  have h := magnitude_of_rank (x := greatest) (e := 971) (m := 2 * binade - 1) (by decide)
    (by decide) (.inr (by decide)) (by decide)
  have hm : ((2 * binade - 1 : Nat) : ℚ) = 2 ^ 53 - 1 := by
    rw [binade_eq]
    norm_num
  rw [h, hm, two_pow_1024_sub]

/-- **Which numbers are rounded to a finite double:** those that lie nearer to the greatest one than
to `2 ^ 1024`. -/
theorem IsNearest.isFinite_iff {x : Double} {q : ℚ} (h : x.IsNearest q) :
    x.isFinite = true ↔ q < 2 ^ 1024 - 2 ^ 970 := by
  have hu : (0 : ℚ) < 2 ^ 970 := by positivity
  have hinfinity := magnitude_infinity false
  have hnear := h.near (infinity false) (Nat.le_refl _)
  have heven := h.even (infinity false) (Nat.le_refl _)
  have hgreatest := magnitude_greatest
  have hnear' := h.near greatest (Nat.sub_le _ _)
  rw [hinfinity] at hnear heven
  rw [hgreatest] at hnear'
  constructor
  · intro hx
    obtain ⟨hle, hodd⟩ := magnitude_le_of_isFinite hx
    generalize (2 : ℚ) ^ 1024 = b at *
    generalize (2 : ℚ) ^ 970 = u at *
    by_contra hq
    have hq := not_lt.1 hq
    rw [abs_of_nonpos (by linarith)] at hnear heven
    rcases le_total b q with hbq | hqb
    · rw [abs_of_nonpos (by linarith)] at hnear
      linarith
    · -- Only the number in the middle is left, and it belongs to the even one of its neighbours.
      rw [abs_of_nonneg (by linarith)] at hnear heven
      have hmagnitude : x.magnitude = b - 2 * u := by linarith
      have := heven (by linarith) (by linarith)
      have := hodd hmagnitude
      omega
  · intro hq
    by_contra hx
    rw [magnitude_of_rank_eq (rank_eq_of_not_isFinite h.rank_le hx)] at hnear'
    generalize (2 : ℚ) ^ 1024 = b at *
    generalize (2 : ℚ) ^ 970 = u at *
    rw [abs_of_pos (by linarith)] at hnear'
    rcases le_total q (b - 2 * u) with hle | hge
    · rw [abs_of_nonneg (by linarith)] at hnear'
      linarith
    · rw [abs_of_nonpos (by linarith)] at hnear'
      linarith

/-! ## Whole numbers -/

/-- A double that is a whole number is read as it. -/
theorem toInt?_of_magnitude {x : Double} {n : Nat} (hx : x.isFinite) (h : x.magnitude = n) :
    x.toInt? = some (if x.negative then -(n : Int) else n) := by
  have hpos := x.ratio_pos
  have hquot := x.ratio_quot
  have hnum : x.ratio.1 = n * x.ratio.2 := by
    rw [h, div_eq_iff (Nat.cast_ne_zero.2 hpos.ne')] at hquot
    exact_mod_cast hquot
  rw [toInt?, if_pos hx]
  simp only []
  rw [hnum, if_pos (Nat.mul_mod_left _ _), Nat.mul_div_cancel _ hpos]

/-- What is read as a whole number is that number. -/
theorem natAbs_of_toInt? {x : Double} {k : Int} (h : x.toInt? = some k) :
    (k.natAbs : ℚ) = x.magnitude := by
  have hpos := x.ratio_pos
  rw [toInt?] at h
  split at h
  case isFalse => cases h
  case isTrue =>
    simp only [] at h
    split at h
    case isFalse => cases h
    case isTrue hmod =>
      have hk : k.natAbs = x.ratio.1 / x.ratio.2 := by
        rw [← Option.some.inj h]
        split
        · exact Int.natAbs_neg _
        · rfl
      have hnum : (k.natAbs : ℚ) * x.ratio.2 = x.ratio.1 := by
        rw [hk]
        exact_mod_cast Nat.div_mul_cancel (Nat.dvd_of_mod_eq_zero hmod)
      rw [← x.ratio_quot, ← hnum, mul_div_cancel_right₀ _ (Nat.cast_ne_zero.2 hpos.ne')]

/-- Every integer below `2 ^ 53` is a double. -/
theorem exists_magnitude_eq {n : Nat} (hn : n < 2 ^ 53) :
    ∃ x : Double, x.isFinite = true ∧ x.magnitude = n := by
  rcases Nat.eq_zero_or_pos n with rfl | hpos
  · exact ⟨⟨false, 0⟩, by decide, by rw [magnitude]; exact mul_eq_zero_of_left Nat.cast_zero _⟩
  have hlow := Nat.log2_self_le hpos.ne'
  have hhigh : n < 2 ^ (n.log2 + 1) := Nat.lt_log2_self
  have hlog : n.log2 ≤ 52 := by
    by_contra hgt
    have := Nat.pow_le_pow_right (show 0 < 2 by decide) (Nat.not_le.1 hgt)
    omega
  -- The number has `log2 n + 1` bits, and is shifted until it has 53 of them.
  have hmin : binade ≤ n * 2 ^ (52 - n.log2) := by
    have := Nat.mul_le_mul_right (2 ^ (52 - n.log2)) hlow
    rwa [← Nat.pow_add, Nat.add_sub_cancel' hlog] at this
  have hmax : n * 2 ^ (52 - n.log2) < 2 * binade := by
    have := Nat.mul_lt_mul_of_pos_right hhigh (Nat.two_pow_pos (52 - n.log2))
    rwa [← Nat.pow_add, show n.log2 + 1 + (52 - n.log2) = 53 by omega] at this
  have hx := magnitude_of_rank
    (x := ⟨false, ((n.log2 : Int) - 52 + 1074).toNat * binade + n * 2 ^ (52 - n.log2)⟩)
    (by omega) hmax.le (.inr hmin) rfl
  refine ⟨_, decide_eq_true ?_, hx.trans ?_⟩
  · rw [binade_eq] at hmax
    show ((n.log2 : Int) - 52 + 1074).toNat * 2 ^ 52 + n * 2 ^ (52 - n.log2) < 2047 * 2 ^ 52
    omega
  · have hone : (2 : ℚ) ^ (52 - n.log2) * 2 ^ ((n.log2 : Int) - 52) = 1 := by
      rw [← zpow_natCast, ← zpow_add₀ (by norm_num), show ((52 - n.log2 : Nat) : Int)
        + ((n.log2 : Int) - 52) = 0 by omega, zpow_zero]
    rw [Nat.cast_mul, Nat.cast_pow, Nat.cast_ofNat, mul_assoc, hone, mul_one]

/-- An integer below `2 ^ 53` is rounded to itself. -/
theorem IsNearest.magnitude_eq {x : Double} {n : Nat} (h : x.IsNearest n) (hn : n < 2 ^ 53) :
    x.magnitude = n := by
  obtain ⟨y, hy, hyn⟩ := exists_magnitude_eq hn
  have hnear := h.near y (rank_le_of_isFinite hy)
  rw [hyn, sub_self, abs_zero] at hnear
  exact sub_eq_zero.1 (abs_eq_zero.1 (le_antisymm hnear (abs_nonneg _)))

/-- Numbers from `2 ^ 53` on are not rounded to less. -/
theorem IsNearest.le_magnitude {x : Double} {q : ℚ} (h : x.IsNearest q) (hq : 2 ^ 53 ≤ q) :
    2 ^ 53 ≤ x.magnitude := by
  have hlimit := magnitude_of_rank (x := ⟨false, 1074 * binade + 2 * binade⟩) (e := 0)
    (m := 2 * binade) (by decide) (by decide) (.inr (by decide)) rfl
  have hnear := h.near ⟨false, 1074 * binade + 2 * binade⟩ (show _ ≤ infiniteRank by decide)
  have hunits : ((2 * binade : Nat) : ℚ) = 2 ^ 53 := by
    rw [binade_eq]
    norm_num
  rw [hlimit, hunits, zpow_zero, mul_one,
    abs_of_nonpos (by linarith : (2 : ℚ) ^ 53 - q ≤ 0)] at hnear
  by_contra hlt
  rw [abs_of_nonpos (by linarith)] at hnear
  linarith

/-! ## Decimal integers -/

theorem ofInt_natCast (n : Nat) : ofInt n = ofRatio false n 1 := by
  rw [ofInt, Int.natAbs_natCast, decide_eq_false (by omega)]

theorem isNearest_ofInt (n : Nat) : (ofInt n).IsNearest n := by
  have h := isNearest_ofRatio false n Nat.one_pos
  rwa [Nat.cast_one, div_one, ← ofInt_natCast] at h

/-- A row of decimal digits is read as the double nearest to its number. -/
theorem ofDecimal_zero_exponent (n : Nat) : ofDecimal false n 0 = ofInt n := by
  rcases Nat.eq_zero_or_pos n with rfl | hpos
  · exact ofInt_zero.symm
  rw [ofDecimal, if_neg hpos.ne']
  simp only [add_zero]
  split
  case isTrue hsize =>
    have hlarge : 2 ^ 1024 ≤ n := by
      have hn := pow_length_toDigits_le hpos
      have hlength : 400 ≤ (Nat.toDigits 10 n).length - 1 := by omega
      generalize (Nat.toDigits 10 n).length - 1 = k at hn hlength
      have hbinary : 2 ^ (3 * k) ≤ 10 ^ k := by
        rw [Nat.pow_mul]
        exact Nat.pow_le_pow_left (by decide) k
      exact (pow_le_pow_right₀ one_le_two (by omega)).trans (hbinary.trans hn)
    have hinfinite : ¬ (ofInt n).isFinite = true := by
      rw [(isNearest_ofInt n).isFinite_iff]
      have hcast : (2 : ℚ) ^ 1024 ≤ n := by exact_mod_cast hlarge
      have hu : (0 : ℚ) < 2 ^ 970 := by positivity
      generalize (2 : ℚ) ^ 1024 = b at *
      generalize (2 : ℚ) ^ 970 = u at *
      linarith
    have hrank := rank_eq_of_not_isFinite (isNearest_ofInt n).rank_le hinfinite
    rw [ofInt_natCast] at hrank ⊢
    rw [infinity, ← hrank]
    rfl
  case isFalse =>
    rw [if_neg (by omega), ofInt_natCast]
    simp [powerRatio]

end Double

end AgentFlow
