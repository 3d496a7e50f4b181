import QueryForge.Proofs.Binary64.Rounding

/-!
# Arithmetic below whole numbers

A whole number of 53 bits is a finite magnitude, so an operation whose exact result is not above it
is not rounded above it either, and stays far from the end of the finite range.
-/

namespace QueryForge.Binary64

variable {n : Nat}

theorem exists_magnitude (positive : 0 < n) (small : n < 2 * binade) :
    ∃ m k, IsMagnitude m k ∧ n * unitsPerOne = m * 2 ^ k := by
  have double : 2 ^ 53 = 2 * binade := by decide
  have low : 2 ^ n.log2 ≤ n := Nat.log2_self_le (Nat.pos_iff_ne_zero.1 positive)
  have high : n < 2 ^ (n.log2 + 1) := Nat.lt_log2_self
  have bits : n.log2 < 53 := (Nat.log2_lt (Nat.pos_iff_ne_zero.1 positive)).2 (double ▸ small)
  refine ⟨n * 2 ^ (52 - n.log2), 1022 + n.log2, ⟨?_, .inr ?_⟩, ?_⟩
  · calc n * 2 ^ (52 - n.log2)
        < 2 ^ (n.log2 + 1) * 2 ^ (52 - n.log2) :=
          Nat.mul_lt_mul_of_pos_right high (Nat.two_pow_pos _)
      _ = 2 ^ 53 := by rw [← Nat.pow_add]; congr 1; omega
      _ = 2 * binade := double
  · calc binade = 2 ^ n.log2 * 2 ^ (52 - n.log2) := by
          rw [binade_eq, ← Nat.pow_add]; congr 1; omega
      _ ≤ n * 2 ^ (52 - n.log2) := Nat.mul_le_mul_right _ low
  · rw [Nat.mul_assoc, ← Nat.pow_add, unitsPerOne, Nat.one_shiftLeft]
    congr 2
    omega

/-- A quotient that is not above a whole number is not rounded above it. -/
theorem units_quotient_le {negative : Bool} {num den : Nat} (small : n < 2 * binade)
    (positive : 0 < den) (h : num ≤ n * den) :
    (ofRank negative (nearestRank num den)).units ≤ n * unitsPerOne := by
  by_cases zero : n = 0
  · have none : num = 0 := by
      rw [zero, Nat.zero_mul] at h
      exact Nat.le_zero.1 h
    have rank : nearestRank num den = 0 := by
      rw [none]
      unfold nearestRank roundHalfEven
      simp
    rw [rank, zero]
    exact Nat.le_refl 0
  · obtain ⟨m, k, magnitude, whole⟩ := exists_magnitude (Nat.pos_iff_ne_zero.2 zero) small
    rw [whole]
    apply units_ofRank_le magnitude
    rw [Nat.mul_assoc _ (2 ^ k)]
    refine double_lt_middle ?_ (Nat.mul_pos (Nat.two_pow_pos k) positive)
    calc num * unitsPerOne ≤ n * den * unitsPerOne := Nat.mul_le_mul_right _ h
      _ = m * (2 ^ k * den) := by rw [Nat.mul_right_comm, whole, Nat.mul_assoc]

section Operations

variable {x y : Binary64} (small : n < 2 * binade)

include small

theorem units_mul_le_whole (h : x.units * y.units ≤ n * (unitsPerOne * unitsPerOne)) :
    (x * y).units ≤ n * unitsPerOne :=
  units_quotient_le small (Nat.mul_pos unitsPerOne_pos unitsPerOne_pos) h

theorem units_sub_le_whole (h : (x.signedUnits - y.signedUnits).natAbs ≤ n * unitsPerOne) :
    (x - y).units ≤ n * unitsPerOne := by
  change (x.sub y).units ≤ _
  unfold Binary64.sub
  dsimp only
  split
  · exact Nat.zero_le _
  · exact units_quotient_le small unitsPerOne_pos h

theorem units_roundHalfAway_le_whole (h : x.units ≤ n * unitsPerOne) :
    x.roundHalfAway.units ≤ n * unitsPerOne := by
  refine units_quotient_le small Nat.one_pos ?_
  have half : (2 * x.units + unitsPerOne) < (n + 1) * (2 * unitsPerOne) := by
    have := unitsPerOne_pos
    rw [Nat.mul_left_comm, Nat.add_mul n 1]
    omega
  rw [Nat.mul_one]
  exact Nat.le_of_lt_succ ((Nat.div_lt_iff_lt_mul (Nat.mul_pos Nat.two_pos unitsPerOne_pos)).2 half)

theorem units_div_le_whole (positive : 0 < y.units) (h : x.units ≤ n * y.units) :
    (x / y).units ≤ n * unitsPerOne := by
  change (x.div y).units ≤ _
  unfold Binary64.div
  rw [if_neg (Nat.pos_iff_ne_zero.1 positive)]
  exact units_quotient_le small positive h

end Operations

/-- A fraction spread over the range from -1000 to 1000, rounded there and taken in hundredths. -/
theorem units_hundredths_le {x : Binary64} (fraction : x.IsFraction) (sign : x.negative = false) :
    ((x * ofNat 2000 - ofNat 1000).roundHalfAway / ofNat 100).units ≤ 10 * unitsPerOne := by
  have hundred : (ofNat 100).units = 100 * unitsPerOne := by decide +kernel
  have thousand : (ofNat 1000).signedUnits = 1000 * (unitsPerOne : Int) := by decide +kernel
  have scale : (ofNat 2000).units = 2000 * unitsPerOne := by decide +kernel
  have below : x.units ≤ unitsPerOne := by
    rw [unitsPerOne_eq_double rfl]
    exact Nat.le_trans fraction (Nat.mul_le_mul_right _ (Nat.sub_le _ _))
  have spread : (x * ofNat 2000).units ≤ 2000 * unitsPerOne := by
    apply units_mul_le_whole (by decide)
    rw [scale, Nat.mul_left_comm]
    exact Nat.mul_le_mul_left _ (Nat.mul_le_mul_right _ below)
  have positive : (x * ofNat 2000).signedUnits = (x * ofNat 2000).units := by
    have same : (x * ofNat 2000).negative = false := congrArg (· ^^ false) sign
    unfold signedUnits
    rw [same]
    rfl
  have centered : (x * ofNat 2000 - ofNat 1000).units ≤ 1000 * unitsPerOne := by
    apply units_sub_le_whole (by decide)
    rw [positive, thousand]
    omega
  have rounded := units_roundHalfAway_le_whole (by decide) centered
  apply units_div_le_whole (by decide)
  · rw [hundred]
    exact Nat.mul_pos (by decide) unitsPerOne_pos
  · rw [hundred, ← Nat.mul_assoc]
    exact rounded

end QueryForge.Binary64
