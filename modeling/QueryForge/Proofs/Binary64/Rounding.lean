import Mathlib.Algebra.Group.Nat.Defs
import QueryForge.Binary64

/-!
# Rounding

Rounding a quotient does not depend on how the quotient is written, and a quotient that is a finite
number already is rounded to that number. A finite magnitude is a whole number `m` below 2^53
shifted left by a number `k` of bits. A quotient below the middle between it and the next magnitude
is not rounded beyond it, so products and sums of bounded numbers are bounded.
-/

namespace QueryForge.Binary64

theorem roundHalfEven_mul_right (num den : Nat) {k : Nat} (hk : 0 < k) :
    roundHalfEven (num * k) (den * k) = roundHalfEven num den := by
  have low : num * k / (den * k) = num / den := Nat.mul_div_mul_right num den hk
  have rest : num * k % (den * k) = num % den * k := Nat.mul_mod_mul_right k num den
  have twice : 2 * (num % den * k) = 2 * (num % den) * k := (Nat.mul_assoc ..).symm
  unfold roundHalfEven
  simp only [low, rest, twice, Nat.mul_lt_mul_right hk, Nat.mul_left_inj (Nat.ne_of_gt hk)]

/-- The rank depends on the quotient alone. -/
theorem nearestRank_mul_right (num den : Nat) {k : Nat} (hk : 0 < k) :
    nearestRank (num * k) (den * k) = nearestRank num den := by
  have scaled : num * k * unitsPerOne = num * unitsPerOne * k := Nat.mul_right_comm ..
  have quotient : num * k * unitsPerOne / (den * k) = num * unitsPerOne / den := by
    rw [scaled, Nat.mul_div_mul_right _ _ hk]
  unfold nearestRank
  simp only [quotient, Nat.shiftLeft_eq]
  rw [scaled, Nat.mul_right_comm den k, roundHalfEven_mul_right _ _ hk]

theorem roundHalfEven_of_mul (m : Nat) {den : Nat} (hd : 0 < den) :
    roundHalfEven (m * den) den = m := by
  have low : m * den / den = m := Nat.mul_div_cancel m hd
  have rest : m * den % den = 0 := Nat.mul_mod_left m den
  unfold roundHalfEven
  simp only [low, rest]
  exact if_neg (by omega)

theorem unitsPerOne_pos : 0 < unitsPerOne := by decide

theorem binade_eq : binade = 2 ^ 52 := by decide

/-- A magnitude of `m` leading bits, `dropped` of them below the kept ones. -/
theorem nearestRank_shifted {m dropped : Nat} (h : (m * 2 ^ dropped).log2 - 52 = dropped) :
    nearestRank (m * 2 ^ dropped) unitsPerOne = dropped * binade + m := by
  have quotient : m * 2 ^ dropped * unitsPerOne / unitsPerOne = m * 2 ^ dropped :=
    Nat.mul_div_cancel _ unitsPerOne_pos
  unfold nearestRank
  simp only [quotient, h, Nat.shiftLeft_eq]
  rw [Nat.mul_comm unitsPerOne, roundHalfEven_mul_right _ _ unitsPerOne_pos,
    roundHalfEven_of_mul _ (Nat.two_pow_pos dropped)]

theorem log2_mul_two_pow {m k : Nat} (low : 2 ^ 52 ≤ m) (high : m < 2 ^ 53) :
    (m * 2 ^ k).log2 = 52 + k := by
  have positive : 0 < 2 ^ k := Nat.two_pow_pos k
  have nonzero : m * 2 ^ k ≠ 0 := Nat.ne_of_gt (Nat.mul_pos (by omega) positive)
  refine (Nat.log2_eq_iff nonzero).2 ⟨?_, ?_⟩
  · rw [Nat.pow_add]
    exact Nat.mul_le_mul_right _ low
  · rw [Nat.add_right_comm, Nat.pow_add]
    exact Nat.mul_lt_mul_of_pos_right high positive

/-- A finite magnitude is its own nearest rank. -/
theorem nearestRank_unitsOfRank (rank : Nat) :
    nearestRank (unitsOfRank rank) unitsPerOne = rank := by
  unfold unitsOfRank
  by_cases small : rank < binade
  · have bits : (rank * 2 ^ 0).log2 - 52 = 0 := by
      by_cases zero : rank = 0
      · simp [zero]
      · have : rank.log2 < 52 := (Nat.log2_lt zero).2 (binade_eq ▸ small)
        rw [Nat.pow_zero, Nat.mul_one]
        omega
    have exact := nearestRank_shifted bits
    rw [if_pos small]
    simpa using exact
  · let k := rank / binade - 1
    let m := binade + rank % binade
    have rest : rank % binade < binade := Nat.mod_lt _ (by decide)
    have parts : binade * (rank / binade) + rank % binade = rank := Nat.div_add_mod rank binade
    have whole : 1 ≤ rank / binade := (Nat.le_div_iff_mul_le (by decide)).2 (by omega)
    have bits : (m * 2 ^ k).log2 - 52 = k := by
      have low : 2 ^ 52 ≤ m := by
        rw [← binade_eq]
        exact Nat.le_add_right ..
      have high : m < 2 ^ 53 := by
        have : 2 ^ 53 = binade + binade := by decide
        omega
      rw [log2_mul_two_pow low high]
      omega
    rw [if_neg small, Nat.shiftLeft_eq, nearestRank_shifted bits]
    have count : k * binade + binade = binade * (rank / binade) := by
      rw [← Nat.succ_mul, Nat.mul_comm, Nat.succ_eq_add_one, Nat.sub_add_cancel whole]
    omega

/-- A magnitude has 53 leading bits and then a zero for every binade behind the first two. -/
theorem unitsOfRank_lt {rank k : Nat} (h : rank < (k + 2) * binade) :
    unitsOfRank rank < 1 <<< (53 + k) := by
  have double : 2 ^ 53 = binade + binade := by decide
  rw [Nat.shiftLeft_eq, Nat.one_mul, Nat.pow_add]
  unfold unitsOfRank
  by_cases small : rank < binade
  · rw [if_pos small]
    exact Nat.lt_of_lt_of_le (by omega) (Nat.le_mul_of_pos_right _ (Nat.two_pow_pos k))
  · have rest : rank % binade < binade := Nat.mod_lt _ (by decide)
    have whole : rank / binade < k + 2 := Nat.div_lt_of_lt_mul (Nat.mul_comm .. ▸ h)
    have shift : 2 ^ (rank / binade - 1) ≤ 2 ^ k := Nat.pow_le_pow_right (by decide) (by omega)
    rw [if_neg small, Nat.shiftLeft_eq]
    calc (binade + rank % binade) * 2 ^ (rank / binade - 1)
        ≤ (binade + rank % binade) * 2 ^ k := Nat.mul_le_mul_left _ shift
      _ < 2 ^ 53 * 2 ^ k := Nat.mul_lt_mul_of_pos_right (by omega) (Nat.two_pow_pos k)

theorem unitsOfRank_pos {rank : Nat} (h : rank ≠ 0) : 0 < unitsOfRank rank := by
  unfold unitsOfRank
  split
  · omega
  · rw [Nat.shiftLeft_eq]
    exact Nat.mul_pos (Nat.add_pos_left (by decide) _) (Nat.two_pow_pos _)

theorem ofRank?_rank (x : Binary64) : ofRank? x.negative x.rank = some x := dif_pos x.finite

/-- Where the magnitude of `m` shifted by `k` bits has the rank `k * binade + m`. -/
def IsMagnitude (m k : Nat) : Prop := m < 2 * binade ∧ (k = 0 ∨ binade ≤ m)

instance (m k : Nat) : Decidable (IsMagnitude m k) := inferInstanceAs (Decidable (_ ∧ _))

theorem roundHalfEven_le {num den m : Nat} (h : 2 * num < (2 * m + 1) * den) :
    roundHalfEven num den ≤ m := by
  have parts : den * (num / den) + num % den = num := Nat.div_add_mod num den
  have middle : (2 * m + 1) * den = 2 * (den * m) + den := by
    rw [Nat.succ_mul, Nat.mul_assoc, Nat.mul_comm m]
  unfold roundHalfEven
  dsimp only
  rcases Nat.lt_trichotomy (num / den) m with below | equal | above
  · split <;> omega
  · rw [equal] at parts ⊢
    exact Nat.le_of_eq (if_neg (by omega))
  · have : den * (m + 1) ≤ den * (num / den) := Nat.mul_le_mul_left den above
    rw [Nat.mul_succ] at this
    omega

/-- A quotient below the middle between a magnitude and the next one is not rounded beyond it. -/
theorem nearestRank_le {num den m k : Nat} (magnitude : IsMagnitude m k)
    (h : 2 * (num * unitsPerOne) < (2 * m + 1) * 2 ^ k * den) :
    nearestRank num den ≤ k * binade + m := by
  obtain ⟨small, normal⟩ := magnitude
  have double : 2 ^ 53 = 2 * binade := by decide
  have scale : 0 < 2 ^ k := Nat.two_pow_pos k
  have positive : 0 < den := Nat.pos_of_mul_pos_left (Nat.zero_lt_of_lt h)
  -- the quotient has at most 53 + k bits
  have quotient : num * unitsPerOne / den < 2 ^ (53 + k) := by
    rw [Nat.div_lt_iff_lt_mul positive]
    have : (2 * m + 1) * 2 ^ k * den ≤ 2 * (2 ^ (53 + k) * den) := by
      rw [Nat.pow_add, ← Nat.mul_assoc 2, ← Nat.mul_assoc 2]
      exact Nat.mul_le_mul_right den (Nat.mul_le_mul_right _ (by omega))
    omega
  have dropped : (num * unitsPerOne / den).log2 - 52 ≤ k := by
    by_cases zero : num * unitsPerOne / den = 0
    · rw [zero]
      exact Nat.zero_le k
    · have := (Nat.log2_lt zero).2 quotient
      omega
  unfold nearestRank
  dsimp only
  rw [Nat.shiftLeft_eq]
  rcases Nat.lt_or_eq_of_le dropped with fewer | equal
  · -- fewer bits are dropped, so the rank is at most that of the next power of two
    have low : binade ≤ m := by omega
    generalize hd : (num * unitsPerOne / den).log2 - 52 = d at fewer
    have kept : roundHalfEven (num * unitsPerOne) (den * 2 ^ d) ≤ 2 * binade := by
      have bits : num * unitsPerOne / den < 2 ^ (53 + d) := by
        by_cases zero : num * unitsPerOne / den = 0
        · rw [zero]
          exact Nat.two_pow_pos _
        · exact (Nat.log2_lt zero).1 (by omega)
      rw [Nat.div_lt_iff_lt_mul positive, Nat.pow_add, double, Nat.mul_assoc,
        Nat.mul_comm _ den] at bits
      refine roundHalfEven_le ?_
      have : (2 * (2 * binade) + 1) * (den * 2 ^ d) =
          2 * (2 * binade * (den * 2 ^ d)) + den * 2 ^ d := by
        rw [Nat.add_mul, Nat.mul_assoc, Nat.one_mul]
      omega
    have next : d * binade + binade ≤ k * binade := by
      rw [← Nat.succ_mul]
      exact Nat.mul_le_mul_right binade fewer
    omega
  · rw [equal]
    refine Nat.add_le_add_left (roundHalfEven_le ?_) _
    rwa [Nat.mul_comm den, ← Nat.mul_assoc (2 * m + 1)]

theorem unitsOfRank_le {rank m k : Nat} (magnitude : IsMagnitude m k)
    (h : rank ≤ k * binade + m) : unitsOfRank rank ≤ m * 2 ^ k := by
  obtain ⟨small, normal⟩ := magnitude
  have scale : 0 < 2 ^ k := Nat.two_pow_pos k
  unfold unitsOfRank
  by_cases first : rank < binade
  · rw [if_pos first]
    have widened : m ≤ m * 2 ^ k := Nat.le_mul_of_pos_right m scale
    rcases normal with rfl | low
    · omega
    · omega
  · have rest : rank % binade < binade := Nat.mod_lt _ (by decide)
    have parts : binade * (rank / binade) + rank % binade = rank := Nat.div_add_mod rank binade
    rw [if_neg first, Nat.shiftLeft_eq]
    generalize rank / binade = q at *
    have whole : q ≠ 0 := by
      intro none
      rw [none, Nat.mul_zero] at parts
      omega
    rcases Nat.lt_trichotomy q (k + 1) with below | equal | above
    · have low : binade ≤ m := by omega
      have halves : 2 ^ k = 2 * 2 ^ (k - 1) := by
        rw [← Nat.pow_succ', Nat.succ_eq_add_one, Nat.sub_add_cancel (by omega)]
      calc (binade + rank % binade) * 2 ^ (q - 1)
          ≤ (2 * binade) * 2 ^ (k - 1) :=
            Nat.mul_le_mul (by omega) (Nat.pow_le_pow_right (by decide) (by omega))
        _ = binade * 2 ^ k := by rw [halves, Nat.mul_comm 2, Nat.mul_assoc]
        _ ≤ m * 2 ^ k := Nat.mul_le_mul_right _ low
    · subst equal
      rw [Nat.mul_succ, Nat.mul_comm binade] at parts
      exact Nat.mul_le_mul_right _ (by omega)
    · have : binade * (k + 2) ≤ binade * q := Nat.mul_le_mul_left binade above
      rw [Nat.mul_add, Nat.mul_comm binade k] at this
      omega

/-- Rounding a quotient, with its magnitude as the bound. -/
theorem units_ofRank_le {negative : Bool} {num den m k : Nat} (magnitude : IsMagnitude m k)
    (h : 2 * (num * unitsPerOne) < (2 * m + 1) * 2 ^ k * den) :
    (ofRank negative (nearestRank num den)).units ≤ m * 2 ^ k :=
  unitsOfRank_le magnitude (Nat.le_trans (Nat.min_le_left _ _) (nearestRank_le magnitude h))

theorem units_mul_le {x y : Binary64} {m k : Nat} (magnitude : IsMagnitude m k)
    (h : 2 * (x.units * y.units) < (2 * m + 1) * 2 ^ k * unitsPerOne) :
    (x * y).units ≤ m * 2 ^ k := by
  have scaled := Nat.mul_lt_mul_of_pos_right h unitsPerOne_pos
  rw [Nat.mul_assoc 2, Nat.mul_assoc _ unitsPerOne] at scaled
  exact units_ofRank_le magnitude scaled

/-- Whole numbers are added, not subtracted from each other. -/
theorem units_add_le {x y : Binary64} (hx : x.negative = false) (hy : y.negative = false)
    {m k : Nat} (magnitude : IsMagnitude m k)
    (h : 2 * (x.units + y.units) < (2 * m + 1) * 2 ^ k) : (x + y).units ≤ m * 2 ^ k := by
  have first : x.signedUnits = x.units := by
    unfold signedUnits
    rw [hx]
    rfl
  have second : y.neg.signedUnits = -(y.units : Int) := by
    unfold signedUnits neg
    rw [hy]
    rfl
  have difference : x.signedUnits - y.neg.signedUnits = (x.units + y.units : Nat) := by
    rw [first, second]
    omega
  have scaled := Nat.mul_lt_mul_of_pos_right h unitsPerOne_pos
  rw [Nat.mul_assoc 2] at scaled
  change (x.sub y.neg).units ≤ _
  unfold Binary64.sub
  rw [difference]
  dsimp only
  split
  · exact Nat.zero_le _
  · exact units_ofRank_le magnitude scaled

theorem double_lt_middle {units m scale : Nat} (h : units ≤ m * scale) (positive : 0 < scale) :
    2 * units < (2 * m + 1) * scale := by
  rw [Nat.add_mul, Nat.mul_assoc]
  omega

/-- The greatest number below a power of two, scaled by at most another one. -/
theorem units_scaled_le {x y : Binary64} {k j : Nat} (hx : x.units ≤ (2 * binade - 1) * 2 ^ k)
    (hy : y.units ≤ 2 ^ j * unitsPerOne) : (x * y).units ≤ (2 * binade - 1) * 2 ^ (k + j) := by
  refine units_mul_le ⟨by decide, .inr (by decide)⟩ ?_
  rw [Nat.mul_assoc _ (2 ^ (k + j))]
  refine double_lt_middle ?_ (Nat.mul_pos (Nat.two_pow_pos _) unitsPerOne_pos)
  calc x.units * y.units
      ≤ (2 * binade - 1) * 2 ^ k * (2 ^ j * unitsPerOne) := Nat.mul_le_mul hx hy
    _ = (2 * binade - 1) * (2 ^ (k + j) * unitsPerOne) := by
        rw [Nat.mul_assoc, ← Nat.mul_assoc (2 ^ k), ← Nat.pow_add]

theorem unitsPerOne_eq {k : Nat} (h : k + 52 = 1074) : unitsPerOne = binade * 2 ^ k := by
  rw [unitsPerOne, ← h, Nat.one_shiftLeft, Nat.pow_add, Nat.mul_comm, ← binade_eq]

theorem unitsPerOne_eq_double {k : Nat} (h : k + 53 = 1074) :
    unitsPerOne = 2 * binade * 2 ^ k := by
  rw [unitsPerOne_eq (k := k + 1) (by omega), Nat.pow_succ, Nat.mul_comm (2 ^ k), Nat.mul_left_comm,
    Nat.mul_assoc]

theorem double_binade_lt_word (k : Nat) : 2 * (binade * 2 ^ (k + 0)) < 2 ^ (k + 64) := by
  rw [Nat.add_zero, Nat.pow_add, ← Nat.mul_assoc, Nat.mul_comm (2 ^ k)]
  exact Nat.mul_lt_mul_of_pos_right (by decide) (Nat.two_pow_pos k)

theorem word_units_eq {k : Nat} (h : k + 52 = 1074) :
    binade * 2 ^ (k + 64) = 2 ^ 64 * unitsPerOne := by
  rw [unitsPerOne_eq h, Nat.pow_add, ← Nat.mul_assoc, Nat.mul_comm (2 ^ 64)]

theorem fraction_word_lt {k : Nat} (h : k + 53 = 1074) :
    (2 * binade - 1) * 2 ^ (k + 64) < 2 ^ 64 * unitsPerOne := by
  rw [unitsPerOne_eq_double h, Nat.pow_add, ← Nat.mul_assoc, Nat.mul_comm (2 ^ 64)]
  refine Nat.mul_lt_mul_of_pos_right ?_ (Nat.two_pow_pos 64)
  exact Nat.mul_lt_mul_of_pos_right (by decide) (Nat.two_pow_pos k)

theorem units_ofNat_le {n j k : Nat} (one : unitsPerOne = binade * 2 ^ j) (h : n ≤ 2 ^ k) :
    (ofNat n).units ≤ binade * 2 ^ (j + k) := by
  refine units_ofRank_le ⟨by decide, .inr (Nat.le_refl _)⟩ ?_
  rw [Nat.mul_one]
  refine double_lt_middle ?_ (Nat.two_pow_pos _)
  calc n * unitsPerOne
      ≤ 2 ^ k * (binade * 2 ^ j) := one ▸ Nat.mul_le_mul_right _ h
    _ = binade * 2 ^ (j + k) := by rw [Nat.pow_add, Nat.mul_comm, Nat.mul_assoc]

/-- Not above the greatest number below one. -/
def IsFraction (x : Binary64) : Prop := x.units ≤ (2 * binade - 1) * 2 ^ 1021

theorem isFraction_ofFraction {num : Nat} (h : num < 1 <<< 53) :
    (ofFraction num (1 <<< 53)).IsFraction := by
  have whole : 1 <<< 53 = 2 * binade := by decide
  have one : unitsPerOne = 2 ^ 1021 * (2 * binade) := by
    rw [unitsPerOne_eq_double rfl, Nat.mul_comm]
  refine units_ofRank_le ⟨by decide, .inr (by decide)⟩ ?_
  rw [whole] at h ⊢
  rw [Nat.mul_assoc, ← one]
  exact double_lt_middle (Nat.mul_le_mul_right _ (Nat.le_sub_one_of_lt h)) unitsPerOne_pos

theorem IsFraction.mul {x y : Binary64} (hx : x.IsFraction) (hy : y.IsFraction) :
    (x * y).IsFraction := by
  have below : (2 * binade - 1) * 2 ^ 1021 ≤ 2 ^ 0 * unitsPerOne := by
    rw [Nat.pow_zero, Nat.one_mul, unitsPerOne_eq_double rfl]
    exact Nat.mul_le_mul_right _ (Nat.sub_le _ _)
  have product := units_scaled_le hx (Nat.le_trans hy below)
  rw [Nat.add_zero] at product
  exact product

/-- One more than a number of 64 bits is rounded to at most 2^64. -/
theorem units_succ_le {n : Nat} (h : n < 2 ^ 64) :
    (ofNat n + ofNat 1).units ≤ binade * 2 ^ (1022 + 64) := by
  have one : unitsPerOne = binade * 2 ^ 1022 := unitsPerOne_eq rfl
  have first := units_ofNat_le one (Nat.le_of_lt h)
  have second := units_ofNat_le (k := 0) one (Nat.le_refl 1)
  have half : 2 * (binade * 2 ^ (1022 + 0)) < 2 ^ (1022 + 64) := double_binade_lt_word 1022
  refine units_add_le rfl rfl ⟨by decide, .inr (Nat.le_refl _)⟩ ?_
  rw [Nat.add_mul, Nat.mul_assoc]
  omega

/-- The whole part of a fraction of it has 64 bits again. -/
theorem floor_mul_succ_lt {x : Binary64} (hx : x.IsFraction) {n : Nat} (h : n < 2 ^ 64) :
    (x * (ofNat n + ofNat 1)).floor < 2 ^ 64 := by
  have word : binade * 2 ^ (1022 + 64) ≤ 2 ^ 64 * unitsPerOne := Nat.le_of_eq (word_units_eq rfl)
  have below : (2 * binade - 1) * 2 ^ (1021 + 64) < 2 ^ 64 * unitsPerOne := fraction_word_lt rfl
  have units := units_scaled_le hx (Nat.le_trans (units_succ_le h) word)
  unfold floor
  split
  · exact Nat.two_pow_pos 64
  · exact (Nat.div_lt_iff_lt_mul unitsPerOne_pos).2 (Nat.lt_of_le_of_lt units below)

end QueryForge.Binary64
