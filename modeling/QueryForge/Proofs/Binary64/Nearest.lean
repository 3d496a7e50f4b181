import QueryForge.Binary64.Shortest
import QueryForge.Proofs.Binary64.Rounding

/-!
# Numerals denote the nearest number

A quotient is rounded to the rank that is nearest to it among all ranks, those behind the finite
ones included, and of two nearest ones to the even one. A decimal is rounded like the quotient that
it is, although very long and very short ones are told apart without computing it.
-/

namespace QueryForge

namespace Binary64

/-- How far the magnitude of a rank is from a quotient, in units and multiplied by the
denominator. -/
def distance (rank num den : Nat) : Nat :=
  ((unitsOfRank rank * den : Nat) - (num * unitsPerOne : Nat) : Int).natAbs

/-- No rank is nearer to the quotient, and another one is as near only if this one is even. -/
structure IsNearest (rank num den : Nat) : Prop where
  nearest : ∀ other, distance rank num den ≤ distance other num den
  even : ∀ other, other ≠ rank → distance other num den = distance rank num den → rank % 2 = 0

theorem roundHalfEven_nearest (num : Nat) {den : Nat} (positive : 0 < den) (j : Nat) :
    ((roundHalfEven num den * den : Nat) - (num : Nat) : Int).natAbs ≤
        ((j * den : Nat) - (num : Nat) : Int).natAbs ∧
      (j ≠ roundHalfEven num den → ((j * den : Nat) - (num : Nat) : Int).natAbs =
        ((roundHalfEven num den * den : Nat) - (num : Nat) : Int).natAbs →
        roundHalfEven num den % 2 = 0) := by
  have parts : num / den * den + num % den = num := Nat.div_add_mod' num den
  have rest : num % den < den := Nat.mod_lt num positive
  have next : (num / den + 1) * den = num / den * den + den := Nat.succ_mul ..
  have side : j * den + den ≤ num / den * den ∨ j = num / den ∨ j = num / den + 1 ∨
      num / den * den + den + den ≤ j * den := by
    rcases Nat.lt_trichotomy j (num / den) with below | equal | above
    · have scaled : (j + 1) * den ≤ num / den * den := Nat.mul_le_mul_right den below
      rw [Nat.succ_mul] at scaled
      exact .inl scaled
    · exact .inr (.inl equal)
    · rcases Nat.eq_or_lt_of_le above with equal | far
      · exact .inr (.inr (.inl equal.symm))
      · have scaled : (num / den + 1 + 1) * den ≤ j * den := Nat.mul_le_mul_right den far
        rw [Nat.succ_mul, next] at scaled
        exact .inr (.inr (.inr scaled))
  unfold roundHalfEven
  dsimp only
  -- the floor or the number above it, against any other number
  split <;> rcases side with below | rfl | rfl | above <;> omega

/-- The ranks of two neighbouring binades, up to the first one of the next. -/
theorem unitsOfRank_shifted {m k : Nat} (small : m ≤ 2 * binade) (normal : k = 0 ∨ binade ≤ m) :
    unitsOfRank (k * binade + m) = m * 2 ^ k := by
  have positive : 0 < binade := by decide
  unfold unitsOfRank
  rcases Nat.lt_or_ge m binade with low | high
  · obtain rfl : k = 0 := normal.resolve_right (Nat.not_le.2 low)
    rw [Nat.zero_mul, Nat.zero_add, if_pos low, Nat.pow_zero, Nat.mul_one]
  · have behind : ¬k * binade + m < binade := by omega
    rw [if_neg behind, Nat.shiftLeft_eq]
    rcases Nat.lt_or_eq_of_le small with inside | last
    · have rank : k * binade + m = binade * (k + 1) + (m - binade) := by
        rw [Nat.mul_succ, Nat.mul_comm]
        omega
      rw [rank, Nat.mul_add_div positive, Nat.mul_add_mod, Nat.div_eq_of_lt (by omega),
        Nat.mod_eq_of_lt (by omega), Nat.add_sub_cancel' high]
      rfl
    · have rank : k * binade + m = binade * (k + 2) := by
        rw [last, Nat.mul_add, Nat.mul_comm, Nat.mul_comm 2]
      rw [rank, Nat.mul_div_cancel_left _ positive, Nat.mul_mod_right, last, Nat.mul_comm 2,
        Nat.mul_assoc, ← Nat.pow_succ']
      rfl

/-- Every rank is a whole number of steps of `2 ^ k`, or below all that keep 53 bits at that
step. -/
theorem unitsOfRank_steps (rank k : Nat) :
    (∃ j, unitsOfRank rank = j * 2 ^ k) ∨ k ≠ 0 ∧ unitsOfRank rank < binade * 2 ^ k := by
  rcases Nat.eq_zero_or_pos k with rfl | coarse
  · exact .inl ⟨unitsOfRank rank, (Nat.mul_one _).symm⟩
  · unfold unitsOfRank
    by_cases first : rank < binade
    · rw [if_pos first]
      exact .inr ⟨Nat.ne_of_gt coarse,
        Nat.lt_of_lt_of_le first (Nat.le_mul_of_pos_right _ (Nat.two_pow_pos k))⟩
    · rw [if_neg first, Nat.shiftLeft_eq]
      have rest : rank % binade < binade := Nat.mod_lt _ (by decide)
      generalize rank / binade - 1 = e
      rcases Nat.lt_or_ge e k with fine | even
      · refine .inr ⟨Nat.ne_of_gt coarse, ?_⟩
        calc (binade + rank % binade) * 2 ^ e
            < 2 * binade * 2 ^ e := Nat.mul_lt_mul_of_pos_right (by omega) (Nat.two_pow_pos e)
          _ = binade * 2 ^ (e + 1) := by rw [Nat.pow_succ, Nat.mul_comm 2, Nat.mul_assoc,
                Nat.mul_comm 2]
          _ ≤ binade * 2 ^ k := Nat.mul_le_mul_left _ (Nat.pow_le_pow_right Nat.two_pos fine)
      · refine .inl ⟨(binade + rank % binade) * 2 ^ (e - k), ?_⟩
        rw [Nat.mul_assoc, ← Nat.pow_add, Nat.sub_add_cancel even]

theorem unitsOfRank_injective {a b : Nat} (h : unitsOfRank a = unitsOfRank b) : a = b := by
  rw [← nearestRank_unitsOfRank a, h, nearestRank_unitsOfRank b]

theorem le_roundHalfEven {num den m : Nat} (positive : 0 < den) (h : m * den ≤ num) :
    m ≤ roundHalfEven num den := by
  have low : m ≤ num / den := (Nat.le_div_iff_mul_le positive).2 h
  unfold roundHalfEven
  dsimp only
  split
  · exact Nat.le_succ_of_le low
  · exact low

/-- The nearest rank keeps 53 leading bits of the quotient, if it has so many. -/
theorem exists_nearestRank_eq (num : Nat) {den : Nat} (positive : 0 < den) : ∃ m k,
    nearestRank num den = k * binade + m ∧ m = roundHalfEven (num * unitsPerOne) (den * 2 ^ k) ∧
      m ≤ 2 * binade ∧ (k = 0 ∨ binade ≤ m ∧ binade * 2 ^ k * den ≤ num * unitsPerOne) := by
  have whole : binade = 2 ^ 52 := binade_eq
  generalize hk : (num * unitsPerOne / den).log2 - 52 = k
  refine ⟨roundHalfEven (num * unitsPerOne) (den * 2 ^ k), k, ?_, rfl, ?_, ?_⟩
  · unfold nearestRank
    dsimp only
    rw [hk, Nat.shiftLeft_eq]
  · have bits : num * unitsPerOne / den < 2 * binade * 2 ^ k := by
      have double : 2 * binade * 2 ^ k = 2 ^ (53 + k) := by
        rw [whole, ← Nat.pow_succ', ← Nat.pow_add]
      rw [double]
      by_cases zero : num * unitsPerOne / den = 0
      · rw [zero]
        exact Nat.two_pow_pos _
      · exact (Nat.log2_lt zero).1 (by omega)
    refine roundHalfEven_le (double_lt_middle ?_ (Nat.mul_pos positive (Nat.two_pow_pos k)))
    rw [Nat.mul_left_comm, Nat.mul_comm den]
    exact Nat.le_of_lt ((Nat.div_lt_iff_lt_mul positive).1 bits)
  · by_cases few : k = 0
    · exact .inl few
    · have nonzero : num * unitsPerOne / den ≠ 0 := by
        intro zero
        rw [zero] at hk
        exact few (hk ▸ rfl)
      have bits : binade * 2 ^ k ≤ num * unitsPerOne / den := by
        have low := Nat.log2_self_le nonzero
        rwa [show (num * unitsPerOne / den).log2 = 52 + k by omega, Nat.pow_add, ← whole] at low
      have scaled := (Nat.le_div_iff_mul_le positive).1 bits
      refine .inr ⟨le_roundHalfEven (Nat.mul_pos positive (Nat.two_pow_pos k)) ?_, scaled⟩
      rwa [Nat.mul_comm den, ← Nat.mul_assoc]

theorem isNearest_nearestRank (num : Nat) {den : Nat} (positive : 0 < den) :
    IsNearest (nearestRank num den) num den := by
  obtain ⟨m, k, rank, rounded, small, normal⟩ := exists_nearestRank_eq num positive
  have step : 0 < den * 2 ^ k := Nat.mul_pos positive (Nat.two_pow_pos k)
  have units : unitsOfRank (nearestRank num den) = m * 2 ^ k := by
    rw [rank]
    exact unitsOfRank_shifted small (normal.imp_right And.left)
  have steps (j : Nat) : j * 2 ^ k * den = j * (den * 2 ^ k) := by
    rw [Nat.mul_assoc, Nat.mul_comm den]
  have closest (j : Nat) := roundHalfEven_nearest (num * unitsPerOne) step j
  rw [← rounded] at closest
  -- a rank between two steps is farther away than the first magnitude of 53 bits at that step
  have between (other : Nat) (coarse : k ≠ 0) (below : unitsOfRank other < binade * 2 ^ k) :
      distance (nearestRank num den) num den < distance other num den := by
    have least := (normal.resolve_left coarse).2
    have scaled := Nat.mul_lt_mul_of_pos_right below positive
    have first := (closest binade).1
    unfold distance
    rw [units, steps]
    rw [← steps binade] at first
    generalize num * unitsPerOne = exact at first least ⊢
    omega
  constructor
  · intro other
    rcases unitsOfRank_steps other k with ⟨j, hj⟩ | ⟨coarse, below⟩
    · unfold distance
      rw [units, hj, steps, steps]
      exact (closest j).1
    · exact Nat.le_of_lt (between other coarse below)
  · intro other different equal
    rcases unitsOfRank_steps other k with ⟨j, hj⟩ | ⟨coarse, below⟩
    · have apart : j ≠ m := by
        rintro rfl
        exact different (unitsOfRank_injective (hj.trans units.symm))
      unfold distance at equal
      rw [units, hj, steps, steps] at equal
      have even := (closest j).2 apart equal
      have whole : k * binade = 2 * (k * 2 ^ 51) := by
        rw [binade_eq, Nat.pow_succ', Nat.mul_left_comm]
      rw [rank]
      omega
    · exact absurd equal.symm (Nat.ne_of_lt (between other coarse below))

theorem nearestRank_eq_zero {num den : Nat} (h : 2 * (num * unitsPerOne) < den) :
    nearestRank num den = 0 := by
  refine Nat.le_zero.1 (nearestRank_le (m := 0) (k := 0) ⟨by decide, .inl rfl⟩ ?_)
  simpa using h

/-- The first rank behind the finite ones is that of 2^1024. -/
theorem unitsOfRank_rankLimit : unitsOfRank rankLimit = 2 ^ 1024 * unitsPerOne := by
  have limit : rankLimit = 2046 * binade + binade := by decide
  rw [limit, unitsOfRank_shifted (by decide) (.inr (Nat.le_refl _)), unitsPerOne_eq rfl,
    Nat.mul_left_comm, ← Nat.pow_add]

theorem rankLimit_le_nearestRank {num den : Nat} (positive : 0 < den) (h : 2 ^ 1024 * den ≤ num) :
    rankLimit ≤ nearestRank num den := by
  have nearest := (isNearest_nearestRank num positive).nearest rankLimit
  have reached : unitsOfRank rankLimit * den ≤ num * unitsPerOne := by
    rw [unitsOfRank_rankLimit, Nat.mul_right_comm]
    exact Nat.mul_le_mul_right _ h
  refine Nat.le_of_not_lt fun below => ?_
  have farther : unitsOfRank (nearestRank num den) * den < unitsOfRank rankLimit * den := by
    refine Nat.mul_lt_mul_of_pos_right ?_ positive
    have top : 1 <<< (53 + 2045) = unitsOfRank rankLimit := by
      rw [unitsOfRank_rankLimit]
      decide +kernel
    rw [← top]
    exact unitsOfRank_lt (k := 2045) below
  unfold distance at nearest
  generalize num * unitsPerOne = exact at nearest reached
  omega

end Binary64

namespace Decimal

/-- The quotient of whole numbers that a decimal is. -/
def quotient (d : Decimal) : Nat × Nat :=
  if 0 ≤ d.exponent then (d.digits * Nat.pow 10 d.exponent.toNat, 1)
  else (d.digits, Nat.pow 10 (-d.exponent).toNat)

theorem quotient_pos (d : Decimal) : 0 < d.quotient.2 := by
  unfold quotient
  split
  · exact Nat.one_pos
  · exact Nat.pow_pos (by decide)

theorem quotient_natCast (digits k : Nat) :
    (⟨digits, k⟩ : Decimal).quotient = (digits * Nat.pow 10 k, 1) :=
  if_pos (Int.natCast_nonneg k)

theorem quotient_neg_natCast (digits k : Nat) :
    (⟨digits, -k⟩ : Decimal).quotient = (digits, Nat.pow 10 k) := by
  unfold quotient
  rcases Nat.eq_zero_or_pos k with rfl | fraction
  · exact congrArg (Prod.mk · 1) (Nat.mul_one digits)
  · dsimp only
    rw [if_neg (by omega), Int.neg_neg, Int.toNat_natCast]

theorem length_toDigits_le {n k : Nat} (hk : 0 < k) (h : n < Nat.pow 10 k) :
    (Nat.toDigits 10 n).length ≤ k :=
  (Nat.length_toDigits_le_iff (by decide) hk).2 h

theorem lt_length_toDigits {n k : Nat} (hk : 0 < k) (h : Nat.pow 10 k ≤ n) :
    k < (Nat.toDigits 10 n).length := by
  have longer := mt (Nat.length_toDigits_le_iff (by decide) hk).1 (Nat.not_lt.2 h)
  omega

theorem lt_pow_length_toDigits (n : Nat) : n < Nat.pow 10 (Nat.toDigits 10 n).length :=
  (Nat.length_toDigits_le_iff (by decide) (List.length_pos_iff.2 Nat.toDigits_ne_nil)).1
    (Nat.le_refl _)

theorem pow_length_toDigits_le {n : Nat} (h : n ≠ 0) :
    Nat.pow 10 ((Nat.toDigits 10 n).length - 1) ≤ n := by
  rcases Nat.eq_zero_or_pos ((Nat.toDigits 10 n).length - 1) with one | more
  · rw [one]
    exact Nat.pos_of_ne_zero h
  · refine Nat.le_of_not_lt fun small => ?_
    have shorter := length_toDigits_le more small
    omega

theorem double_units_lt {n k j : Nat} (least : 2 * Binary64.unitsPerOne ≤ Nat.pow 10 k)
    (h : (Nat.toDigits 10 n).length + k ≤ j) : 2 * (n * Binary64.unitsPerOne) < Nat.pow 10 j :=
  calc 2 * (n * Binary64.unitsPerOne)
      = n * (2 * Binary64.unitsPerOne) := Nat.mul_left_comm ..
    _ ≤ n * Nat.pow 10 k := Nat.mul_le_mul_left n least
    _ < Nat.pow 10 (Nat.toDigits 10 n).length * Nat.pow 10 k :=
      Nat.mul_lt_mul_of_pos_right (lt_pow_length_toDigits n) (Nat.pow_pos (by decide))
    _ = Nat.pow 10 ((Nat.toDigits 10 n).length + k) := (Nat.pow_add ..).symm
    _ ≤ Nat.pow 10 j := Nat.pow_le_pow_right (by decide) h

theorem le_mul_pow {n k j bound : Nat} (nonzero : n ≠ 0) (great : bound ≤ Nat.pow 10 k)
    (h : k ≤ (Nat.toDigits 10 n).length - 1 + j) : bound ≤ n * Nat.pow 10 j :=
  calc bound
      ≤ Nat.pow 10 k := great
    _ ≤ Nat.pow 10 ((Nat.toDigits 10 n).length - 1 + j) := Nat.pow_le_pow_right (by decide) h
    _ = Nat.pow 10 ((Nat.toDigits 10 n).length - 1) * Nat.pow 10 j := Nat.pow_add ..
    _ ≤ n * Nat.pow 10 j := Nat.mul_le_mul_right _ (pow_length_toDigits_le nonzero)

theorem mul_pow_le {n k j bound : Nat} (nonzero : n ≠ 0) (great : bound ≤ Nat.pow 10 k)
    (h : k + j ≤ (Nat.toDigits 10 n).length - 1) : bound * Nat.pow 10 j ≤ n :=
  calc bound * Nat.pow 10 j
      ≤ Nat.pow 10 k * Nat.pow 10 j := Nat.mul_le_mul_right _ great
    _ = Nat.pow 10 (k + j) := (Nat.pow_add ..).symm
    _ ≤ Nat.pow 10 ((Nat.toDigits 10 n).length - 1) := Nat.pow_le_pow_right (by decide) h
    _ ≤ n := pow_length_toDigits_le nonzero

/-- A decimal with 330 zeros behind the point is below half of the least number. -/
theorem quotient_small {d : Decimal}
    (h : d.digits = 0 ∨ (Nat.toDigits 10 d.digits).length + d.exponent < -330) :
    2 * (d.quotient.1 * Binary64.unitsPerOne) < d.quotient.2 := by
  rcases h with zero | far
  · have none : d.quotient.1 = 0 := by
      unfold quotient
      split
      · exact (congrArg (· * _) zero).trans (Nat.zero_mul _)
      · exact zero
    rw [none, Nat.zero_mul]
    exact d.quotient_pos
  · have least : 2 * Binary64.unitsPerOne ≤ Nat.pow 10 331 := by decide +kernel
    unfold quotient
    rw [if_neg (by omega)]
    dsimp only
    exact double_units_lt least (by omega)

/-- One of more than 310 places before the point is not below 2^1024. -/
theorem quotient_great {d : Decimal} (nonzero : d.digits ≠ 0)
    (h : 310 < (Nat.toDigits 10 d.digits).length + d.exponent) :
    2 ^ 1024 * d.quotient.2 ≤ d.quotient.1 := by
  have great : 2 ^ 1024 ≤ Nat.pow 10 310 := by decide +kernel
  unfold quotient
  split
  · rw [Nat.mul_one]
    exact le_mul_pow nonzero great (by omega)
  · dsimp only
    exact mul_pow_le nonzero great (by omega)

end Decimal

/-- A decimal is rounded as the quotient that it is. -/
theorem Binary64.ofDecimal?_eq (negative : Bool) (d : Decimal) :
    ofDecimal? negative d.digits d.exponent =
      ofRank? negative (nearestRank d.quotient.1 d.quotient.2) := by
  unfold ofDecimal?
  dsimp only
  split
  · next h =>
    rw [nearestRank_eq_zero (Decimal.quotient_small h)]
    rfl
  · next near =>
    rw [not_or] at near
    split
    · next h =>
      have beyond := rankLimit_le_nearestRank d.quotient_pos (Decimal.quotient_great near.1 h)
      unfold ofRank?
      rw [dif_neg (Nat.not_lt.2 beyond)]
    · unfold Decimal.quotient
      split <;> rfl

/-- The number nearest to a decimal of a sign, or nothing if that is beyond the finite ones. -/
def Decimal.RoundsTo (d : Decimal) (negative : Bool) (found : Option Binary64) : Prop :=
  ∃ rank, Binary64.IsNearest rank d.quotient.1 d.quotient.2 ∧ found = Binary64.ofRank? negative rank

theorem Decimal.roundsTo_ofDecimal? (d : Decimal) (negative : Bool) :
    d.RoundsTo negative (Binary64.ofDecimal? negative d.digits d.exponent) :=
  ⟨_, Binary64.isNearest_nearestRank _ d.quotient_pos, Binary64.ofDecimal?_eq negative d⟩

end QueryForge
