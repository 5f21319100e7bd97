import AgentFlow.Decimal.Shortest
import AgentFlow.Proofs.Decimal.Rounding
import Mathlib.Data.Nat.Cast.Order.Field

/-!
# Seventeen digits are enough

The search for the shortest decimal of a double always ends with one: the nearest decimal of
seventeen digits lies closer to the double than half of the way to its neighbours, because
`2 ^ 53 < 10 ^ 16`.

* `exists_shortest`: every finite double other than zero has a shortest decimal.
* `ofDecimal_dropZeros`: zeros at the end of a coefficient may go into the exponent.
-/

namespace AgentFlow

/-! ## The decimal exponent of a quotient -/

theorem pow_decimalExponent_le {num den : Nat} (hn : 0 < num) (hd : 0 < den) :
    (10 : ℚ) ^ decimalExponent num den ≤ num / den := by
  have hn' : (0 : ℚ) < num := Nat.cast_pos.2 hn
  have hd' : (0 : ℚ) < den := Nat.cast_pos.2 hd
  have hneg (k : Nat) (h : den ≤ num * 10 ^ k) : (10 : ℚ) ^ (-(k : Int)) ≤ num / den := by
    have h' : (den : ℚ) ≤ num * 10 ^ k := by exact_mod_cast h
    rw [zpow_neg, zpow_natCast, le_div_iff₀ hd', inv_mul_le_iff₀ (by positivity), mul_comm]
    exact h'
  unfold decimalExponent
  split
  case isTrue hle =>
    have hq : 0 < num / den := Nat.div_pos hle hd
    have hlow : ((10 ^ (digitCount (num / den) - 1) : Nat) : ℚ) ≤ (num / den : Nat) :=
      Nat.cast_le.2 (pow_length_toDigits_le hq)
    have hpos : 0 < digitCount (num / den) := Nat.length_toDigits_pos
    have hk : (digitCount (num / den) : Int) - 1 = (digitCount (num / den) - 1 : Nat) := by omega
    rw [hk, zpow_natCast]
    push_cast at hlow
    exact hlow.trans Nat.cast_div_le
  case isFalse hlt =>
    have hpos : 0 < digitCount (den / num) := Nat.length_toDigits_pos
    have hk : (digitCount (den / num) : Int) - 1 = (digitCount (den / num) - 1 : Nat) := by omega
    simp only []
    split
    case isTrue hle => exact hk ▸ hneg (digitCount (den / num) - 1) hle
    case isFalse _ =>
      refine hneg _ (Nat.le_of_lt ?_)
      rw [Nat.mul_comm, ← Nat.div_lt_iff_lt_mul hn]
      exact lt_pow_length_toDigits _

/-- The nearer neighbour on a grid is off by half a step at most. -/
theorem gridNeighbours_near (num : Nat) {den : Nat} (hd : 0 < den) (e : Int) :
    ∃ c ∈ gridNeighbours num den e, |(c : ℚ) * 10 ^ e - num / den| ≤ 10 ^ e / 2 := by
  refine ⟨_, List.mem_cons_self, ?_⟩
  have hp := powerRatio_pos (show 0 < 10 by norm_num) e
  have hquot := div_powerRatio_quot (show 0 < 10 by norm_num) num den e
  rw [Nat.cast_ofNat] at hquot
  have hD := Nat.mul_pos hd hp.1
  have hD' : (0 : ℚ) < (den * (powerRatio 10 e).1 : Nat) := Nat.cast_pos.2 hD
  have he : (0 : ℚ) < 10 ^ e := zpow_pos (by norm_num) e
  obtain ⟨h₁, h₂⟩ := roundQuotient_half (num * (powerRatio 10 e).2) hD
  have h₁' := Nat.cast_le (α := ℚ).2 h₁
  have h₂' := Nat.cast_le (α := ℚ).2 h₂
  -- In steps of the grid the quotient is `t`, and the neighbour lies within a half of it.
  obtain ⟨t, ht⟩ : ∃ t : ℚ, (num / den : ℚ) = t * 10 ^ e :=
    ⟨num / den / 10 ^ e, (div_mul_cancel₀ _ he.ne').symm⟩
  rw [ht, mul_div_cancel_right₀ _ he.ne', div_eq_iff hD'.ne'] at hquot
  generalize roundQuotient (num * (powerRatio 10 e).2) (den * (powerRatio 10 e).1) = r at *
  rw [Nat.cast_mul 2, Nat.cast_mul r, Nat.cast_add, Nat.cast_mul 2, hquot] at h₁'
  rw [Nat.cast_add, Nat.cast_mul 2, Nat.cast_mul 2, Nat.cast_mul r, hquot] at h₂'
  generalize ((den * (powerRatio 10 e).1 : Nat) : ℚ) = D at *
  have hup : (r : ℚ) - t ≤ 1 / 2 := le_of_mul_le_mul_right (by push_cast at h₁'; linarith) hD'
  have hdown : -(1 / 2 : ℚ) ≤ r - t := le_of_mul_le_mul_right (by push_cast at h₂'; linarith) hD'
  rw [ht, ← sub_mul, abs_mul, abs_of_pos he, div_eq_mul_inv, mul_comm ((10 : ℚ) ^ e)]
  refine mul_le_mul_of_nonneg_right (abs_le.2 ⟨?_, ?_⟩) he.le <;> linarith

namespace Double

/-! ## The search -/

/-- The search hits no later than on the last grid it looks at. -/
private theorem exists_shortestFrom {x : Double} {k : Int} {fuel digits : Nat}
    (h : ∃ c ∈ gridNeighbours x.ratio.1 x.ratio.2 (k - ((digits + fuel : Nat) : Int) + 1),
      ofDecimal x.negative c (k - ((digits + fuel : Nat) : Int) + 1) = x) :
    ∃ d, shortestFrom x k (fuel + 1) digits = some d := by
  induction fuel generalizing digits with
  | zero =>
    obtain ⟨c, hc, hx⟩ := h
    simp only [shortestFrom]
    split
    case h_1 c' hc' => exact ⟨_, rfl⟩
    case h_2 hnone =>
      rw [List.find?_eq_none] at hnone
      exact absurd (beq_iff_eq.2 hx) (hnone c hc)
  | succ fuel ih =>
    rw [shortestFrom]
    split
    case h_1 c hc => exact ⟨_, rfl⟩
    case h_2 =>
      refine ih ?_
      rwa [Nat.add_right_comm, Nat.add_assoc]

/-- Seventeen digits tell a finite double from its neighbours. -/
theorem exists_shortest {x : Double} (hx : x.isFinite) (hr : 0 < x.rank) :
    ∃ d, x.shortest? = some d := by
  have hX := magnitude_pos hr
  have hden := x.ratio_pos
  have hnum : 0 < x.ratio.1 := by
    rcases Nat.eq_zero_or_pos x.ratio.1 with h0 | hpos
    · have := x.ratio_quot
      rw [h0, Nat.cast_zero, zero_div] at this
      exact absurd this hX.ne
    · exact hpos
  have hk := pow_decimalExponent_le hnum hden
  refine exists_shortestFrom ?_
  obtain ⟨c, hc, hnear⟩ := gridNeighbours_near x.ratio.1 hden
    (decimalExponent x.ratio.1 x.ratio.2 - ((1 + 16 : Nat) : Int) + 1)
  refine ⟨c, hc, ofDecimal_of_near hx hr ?_⟩
  rw [x.ratio_quot] at hnear hk
  generalize decimalExponent x.ratio.1 x.ratio.2 = k at hnear hk ⊢
  have hstep : (10 : ℚ) ^ (k - ((1 + 16 : Nat) : Int) + 1) * 10 ^ 16 = 10 ^ k := by
    rw [← zpow_natCast, ← zpow_add₀ (by norm_num)]
    congr 1
    omega
  refine hnear.trans_lt ?_
  generalize (10 : ℚ) ^ (k - ((1 + 16 : Nat) : Int) + 1) = s at hstep
  linarith

theorem ofDecimal_zero (negative : Bool) (e : Int) : ofDecimal negative 0 e = ⟨negative, 0⟩ := by
  simp [ofDecimal]

/-- The coefficient of a shortest decimal is not zero. -/
theorem shortest_pos {x : Double} (hr : 0 < x.rank) {d : Nat × Int} (h : x.shortest? = some d) :
    0 < d.1 := by
  refine Nat.pos_of_ne_zero fun h0 => ?_
  have hx := shortest_reads_back h
  rw [h0, ofDecimal_zero] at hx
  rw [← hx] at hr
  exact Nat.lt_irrefl 0 hr

/-- Zeros at the end of a coefficient may go into the exponent. -/
theorem ofDecimal_dropZeros (negative : Bool) (fuel c : Nat) (e : Int) :
    ofDecimal negative (dropZeros fuel c e).1 (dropZeros fuel c e).2 = ofDecimal negative c e := by
  induction fuel generalizing c e with
  | zero => rfl
  | succ fuel ih =>
    rw [dropZeros]
    split
    case isTrue h =>
      have hshift := ofDecimal_mul_pow negative (c / 10) (e + 1) 1
      have hc : c / 10 * 10 ^ 1 = c := by omega
      rw [hc, Nat.cast_one, add_sub_cancel_right] at hshift
      rw [ih, hshift]
    case isFalse => rfl

theorem dropZeros_pos {c : Nat} (h : 0 < c) (fuel : Nat) (e : Int) :
    0 < (dropZeros fuel c e).1 := by
  induction fuel generalizing c e with
  | zero => exact h
  | succ fuel ih =>
    rw [dropZeros]
    split
    · exact ih (by omega) _
    · exact h

end Double

end AgentFlow
