import Mathlib.Algebra.Order.Field.Power
import Mathlib.Data.Rat.Floor
import Mathlib.Tactic.FieldSimp
import Mathlib.Tactic.Linarith
import Mathlib.Tactic.Positivity
import QueryForge.Proofs.Binary64.ReadBack

/-!
# No decimal with fewer digits reads back

What lies between a number and a decimal that denotes it denotes the number as well. So if some
decimal of so many digits denotes a number, one of the two around the number does, and of two with
seventeen digits the nearer one always does. The chosen decimal has the fewest digits of all.
-/

namespace QueryForge

namespace Binary64

/-- The magnitude as a fraction. -/
def magnitude (x : Binary64) : ℚ := x.units / unitsPerOne

theorem exists_shifted (rank : Nat) :
    ∃ m k, rank = k * binade + m ∧ m < 2 * binade ∧ (k = 0 ∨ binade ≤ m) := by
  have positive : 0 < binade := by decide
  by_cases first : rank < binade
  · exact ⟨rank, 0, by omega, by omega, .inl rfl⟩
  · have whole : 1 ≤ rank / binade := (Nat.one_le_div_iff positive).2 (Nat.le_of_not_lt first)
    have rest : rank % binade < binade := Nat.mod_lt rank positive
    have parts := Nat.div_add_mod' rank binade
    have split : rank / binade * binade = (rank / binade - 1) * binade + binade := by
      rw [← Nat.succ_mul, Nat.succ_eq_add_one, Nat.sub_add_cancel whole]
    exact ⟨binade + rank % binade, rank / binade - 1, by omega, by omega, .inr (by omega)⟩

/-- A magnitude is at most 2^53 times its distance to the one before it. -/
theorem unitsOfRank_succ (rank : Nat) : unitsOfRank rank < unitsOfRank (rank + 1) ∧
    unitsOfRank (rank + 1) ≤ 2 * binade * (unitsOfRank (rank + 1) - unitsOfRank rank) := by
  obtain ⟨m, k, split, small, normal⟩ := exists_shifted rank
  have next : rank + 1 = k * binade + (m + 1) := by omega
  have positive : 0 < 2 ^ k := Nat.two_pow_pos k
  rw [next, split, unitsOfRank_shifted (Nat.le_of_lt small) normal,
    unitsOfRank_shifted small (normal.imp_right Nat.le_succ_of_le), Nat.succ_mul,
    Nat.add_sub_cancel_left]
  refine ⟨Nat.lt_add_of_pos_right positive, ?_⟩
  rw [← Nat.succ_mul]
  exact Nat.mul_le_mul_right _ small

theorem unitsOfRank_strictMono : StrictMono unitsOfRank :=
  strictMono_nat_of_lt_succ fun rank => (unitsOfRank_succ rank).1

/-- A magnitude is at most 2^53 times its distance to any other one. -/
theorem unitsOfRank_le_gap {rank other : Nat} (h : other ≠ rank) : unitsOfRank rank ≤
    2 * binade * ((unitsOfRank other : Int) - unitsOfRank rank).natAbs := by
  rcases Nat.lt_or_gt_of_ne h with below | above
  · obtain ⟨before, rfl⟩ := Nat.exists_eq_add_one_of_ne_zero (Nat.ne_zero_of_lt below)
    have far := unitsOfRank_strictMono.monotone (Nat.le_of_lt_succ below)
    have step := unitsOfRank_succ before
    refine Nat.le_trans step.2 (Nat.mul_le_mul_left _ ?_)
    omega
  · have far := unitsOfRank_strictMono.monotone (Nat.succ_le_of_lt above)
    have step := unitsOfRank_succ rank
    refine Nat.le_trans (Nat.le_trans (Nat.le_of_lt step.1) step.2) (Nat.mul_le_mul_left _ ?_)
    rw [Nat.succ_eq_add_one] at far
    omega

theorem nearestRank_le_of_mul_le {num den num' den' : Nat} (positive : 0 < den)
    (positive' : 0 < den') (h : num * den' ≤ num' * den) :
    nearestRank num den ≤ nearestRank num' den' := by
  have common : nearestRank num' den' = nearestRank (num' * den) (den * den') := by
    rw [Nat.mul_comm den, nearestRank_mul_right _ _ positive]
  rw [← nearestRank_mul_right num den positive', common]
  have product : 0 < den * den' := Nat.mul_pos positive positive'
  generalize num * den' = low at h
  generalize num' * den = high at h
  generalize den * den' = den at product
  refine Nat.le_of_not_lt fun crossed => ?_
  have apart := Nat.mul_lt_mul_of_pos_right (unitsOfRank_strictMono crossed) product
  have near := (isNearest_nearestRank low product).nearest (nearestRank high den)
  have near' := (isNearest_nearestRank high product).nearest (nearestRank low den)
  have scaled := Nat.mul_le_mul_right unitsPerOne h
  unfold distance at near near'
  -- both ranks are nearest to one quotient only, which lies in the middle
  have equal : low * unitsPerOne = high * unitsPerOne := by
    generalize low * unitsPerOne = lowUnits at near near' scaled
    generalize high * unitsPerOne = highUnits at near near' scaled
    omega
  rw [Nat.eq_of_mul_eq_mul_right unitsPerOne_pos equal] at crossed
  exact Nat.lt_irrefl _ crossed

theorem nearestRank_le_of_div_le {num den num' den' : Nat} (positive : 0 < den)
    (positive' : 0 < den') (h : (num / den : ℚ) ≤ num' / den') :
    nearestRank num den ≤ nearestRank num' den' := by
  refine nearestRank_le_of_mul_le positive positive' ?_
  rw [div_le_div_iff₀ (by positivity) (by positivity)] at h
  exact_mod_cast h

/-- A quotient that is off by less than 1 in 2^54 is rounded to the magnitude. -/
theorem nearestRank_eq_of_close {num den rank : Nat} (positive : 0 < den) (nonzero : rank ≠ 0)
    (close : 2 * 10 ^ 16 * distance rank num den ≤ unitsOfRank rank * den) :
    nearestRank num den = rank := by
  by_contra other
  have near := (isNearest_nearestRank num positive).nearest rank
  have gap := Nat.mul_le_mul_right den (unitsOfRank_le_gap other)
  have product : 0 < unitsOfRank rank * den := Nat.mul_pos (unitsOfRank_pos nonzero) positive
  have whole : binade = 2 ^ 52 := binade_eq
  have triangle :
      ((unitsOfRank (nearestRank num den) : Int) - unitsOfRank rank).natAbs * den ≤
        distance (nearestRank num den) num den + distance rank num den := by
    unfold distance
    generalize unitsOfRank (nearestRank num den) = u
    generalize unitsOfRank rank = v
    have scaled : ((u : Int) - v).natAbs * den =
        ((u * den : Nat) - (v * den : Nat) : Int).natAbs := by
      rw [Nat.cast_mul, Nat.cast_mul, ← Int.sub_mul, Int.natAbs_mul, Int.natAbs_natCast]
    omega
  rw [Nat.mul_assoc, whole] at gap
  omega

end Binary64

namespace Decimal

variable {x : Binary64} {d : Decimal}

def value (d : Decimal) : ℚ := d.digits * 10 ^ d.exponent

theorem value_eq_quotient (d : Decimal) : d.value = d.quotient.1 / d.quotient.2 := by
  unfold value quotient
  split
  · next whole =>
    obtain ⟨k, hk⟩ := Int.eq_ofNat_of_zero_le whole
    rw [hk, Int.toNat_natCast, zpow_natCast, Nat.pow_eq]
    push_cast
    rw [div_one]
  · next fraction =>
    obtain ⟨k, hk⟩ := Int.eq_ofNat_of_zero_le (by omega : 0 ≤ -d.exponent)
    rw [hk, Int.toNat_natCast, Nat.pow_eq, ← Int.neg_neg d.exponent, hk, zpow_neg, zpow_natCast]
    push_cast
    rw [div_eq_mul_inv]

/-- What lies between a number and a decimal that denotes it denotes it as well. -/
theorem ReadsBack.between {e : Decimal} (h : d.ReadsBack x)
    (between : d.value ≤ e.value ∧ e.value ≤ x.magnitude ∨
      x.magnitude ≤ e.value ∧ e.value ≤ d.value) : e.ReadsBack x := by
  have own : Binary64.nearestRank x.units Binary64.unitsPerOne = x.rank :=
    Binary64.nearestRank_unitsOfRank x.rank
  rw [readsBack_iff] at h ⊢
  rw [value_eq_quotient, value_eq_quotient, Binary64.magnitude] at between
  rcases between with ⟨low, high⟩ | ⟨low, high⟩
  · have least := Binary64.nearestRank_le_of_div_le d.quotient_pos e.quotient_pos low
    have greatest :=
      Binary64.nearestRank_le_of_div_le e.quotient_pos Binary64.unitsPerOne_pos high
    omega
  · have least := Binary64.nearestRank_le_of_div_le Binary64.unitsPerOne_pos e.quotient_pos low
    have greatest := Binary64.nearestRank_le_of_div_le e.quotient_pos d.quotient_pos high
    omega

/-- A decimal that is off by less than 1 in 2^54 denotes the number. -/
theorem readsBack_of_close (h : x.rank ≠ 0)
    (close : 2 * 10 ^ 16 * |d.value - x.magnitude| ≤ x.magnitude) : d.ReadsBack x := by
  rw [readsBack_iff]
  refine Binary64.nearestRank_eq_of_close d.quotient_pos h ?_
  have one : (0 : ℚ) < Binary64.unitsPerOne := Nat.cast_pos.2 Binary64.unitsPerOne_pos
  have den : (0 : ℚ) < d.quotient.2 := Nat.cast_pos.2 d.quotient_pos
  have exact : (Binary64.distance x.rank d.quotient.1 d.quotient.2 : ℚ) =
      |d.value - x.magnitude| * (d.quotient.2 * Binary64.unitsPerOne) := by
    have product : (0 : ℚ) ≤ d.quotient.2 * Binary64.unitsPerOne := (mul_pos den one).le
    rw [value_eq_quotient, Binary64.magnitude, Binary64.distance, Nat.cast_natAbs,
      ← abs_of_nonneg product, ← abs_mul, abs_sub_comm]
    push_cast
    unfold Binary64.units
    generalize (Binary64.unitsPerOne : ℚ) = u at one
    congr 1
    field_simp
  have scaled := mul_le_mul_of_nonneg_right close (mul_pos den one).le
  have magnitude : x.magnitude * (d.quotient.2 * Binary64.unitsPerOne) =
      Binary64.unitsOfRank x.rank * d.quotient.2 := by
    unfold Binary64.magnitude Binary64.units
    generalize (Binary64.unitsPerOne : ℚ) = u at one
    field_simp
  rw [mul_assoc, ← exact, magnitude] at scaled
  exact_mod_cast scaled

/-- The places of a quotient before the point, read off from the quotient with zeros appended. -/
theorem places_bounds {num den k : Nat} (positive : 0 < den) (least : den ≤ num * Nat.pow 10 k) :
    (10 : ℚ) ^ (((Nat.toDigits 10 (num * Nat.pow 10 k / den)).length : Int) - k - 1) ≤ num / den ∧
      (num / den : ℚ) < 10 ^ (((Nat.toDigits 10 (num * Nat.pow 10 k / den)).length : Int) - k) := by
  have nonzero : num * Nat.pow 10 k / den ≠ 0 := Nat.ne_of_gt (Nat.div_pos least positive)
  have low := pow_length_toDigits_le nonzero
  have high := lt_pow_length_toDigits (num * Nat.pow 10 k / den)
  have long : 0 < (Nat.toDigits 10 (num * Nat.pow 10 k / den)).length :=
    List.length_pos_iff.2 Nat.toDigits_ne_nil
  obtain ⟨places, length⟩ := Nat.exists_eq_add_one_of_ne_zero (Nat.ne_of_gt long)
  have before : ((places + 1 : Nat) : Int) - k - 1 = (places : Int) - k := by omega
  rw [length, Nat.add_sub_cancel, Nat.le_div_iff_mul_le positive, Nat.pow_eq, Nat.pow_eq] at low
  rw [length, Nat.div_lt_iff_lt_mul positive, Nat.pow_eq, Nat.pow_eq] at high
  have den_pos : (0 : ℚ) < den := Nat.cast_pos.2 positive
  rw [length, before, zpow_sub₀ (by norm_num), zpow_sub₀ (by norm_num), zpow_natCast, zpow_natCast,
    zpow_natCast, div_le_div_iff₀ (by positivity) den_pos, div_lt_div_iff₀ den_pos (by positivity)]
  exact ⟨by exact_mod_cast low, by exact_mod_cast high⟩

theorem leadingPlace_bounds (h : x.rank ≠ 0) :
    (10 : ℚ) ^ (leadingPlace x.units - 1) ≤ x.magnitude ∧
      x.magnitude < 10 ^ leadingPlace x.units := by
  have positive : 0 < x.units := Binary64.unitsOfRank_pos h
  have least : Binary64.unitsPerOne ≤ Nat.pow 10 400 := by decide +kernel
  have units : Binary64.unitsPerOne ≤ x.units * Nat.pow 10 400 :=
    Nat.le_trans least (Nat.le_mul_of_pos_left _ positive)
  have bounds := places_bounds Binary64.unitsPerOne_pos units
  rwa [Nat.cast_ofNat] at bounds

theorem steps_eq (units : Nat) (exponent : Int) : ((steps units exponent).1 : ℚ) /
    (steps units exponent).2 = units / Binary64.unitsPerOne / 10 ^ exponent := by
  have one : (0 : ℚ) < Binary64.unitsPerOne := Nat.cast_pos.2 Binary64.unitsPerOne_pos
  generalize hu : (Binary64.unitsPerOne : ℚ) = u at one
  unfold steps
  split
  · next whole =>
    obtain ⟨k, rfl⟩ := Int.eq_ofNat_of_zero_le whole
    rw [Int.toNat_natCast, Nat.pow_eq, zpow_natCast, div_div]
    push_cast
    rw [hu]
  · next fraction =>
    obtain ⟨k, hk⟩ := Int.eq_ofNat_of_zero_le (by omega : 0 ≤ -exponent)
    rw [hk, Int.toNat_natCast, Nat.pow_eq, ← Int.neg_neg exponent, hk, zpow_neg, zpow_natCast]
    push_cast
    rw [hu, div_inv_eq_mul, mul_div_right_comm]

/-- The whole steps of a last place in a number of so many digits before that place. -/
theorem floor_bounds {q : ℚ} {count : Nat} {exponent : Int} (some : 0 < count)
    (low : (10 : ℚ) ^ (exponent + count - 1) ≤ q) (high : q < 10 ^ (exponent + count)) :
    10 ^ (count - 1) ≤ ⌊q / 10 ^ exponent⌋₊ ∧ ⌊q / 10 ^ exponent⌋₊ < 10 ^ count ∧
      ⌊q / 10 ^ exponent⌋₊ * (10 : ℚ) ^ exponent ≤ q ∧
      q < (⌊q / 10 ^ exponent⌋₊ + 1) * (10 : ℚ) ^ exponent := by
  have ten : (0 : ℚ) < 10 ^ exponent := by positivity
  have nonneg : 0 ≤ q / 10 ^ exponent := div_nonneg (le_trans (by positivity) low) ten.le
  refine ⟨Nat.le_floor ?_, (Nat.floor_lt nonneg).2 ?_, ?_, ?_⟩
  · have places : exponent + count - 1 = exponent + (count - 1 : Nat) := by omega
    rw [le_div_iff₀ ten, Nat.cast_pow, Nat.cast_ofNat, mul_comm]
    rwa [places, zpow_add₀ (by norm_num), zpow_natCast] at low
  · rw [div_lt_iff₀ ten, Nat.cast_pow, Nat.cast_ofNat, mul_comm]
    rwa [zpow_add₀ (by norm_num), zpow_natCast] at high
  · exact (le_div_iff₀ ten).1 (Nat.floor_le nonneg)
  · exact (div_lt_iff₀ ten).1 (Nat.lt_floor_add_one _)

theorem mem_around {tie : TieRule} {units count : Nat} :
    d ∈ around tie units count ↔ d = lower units count ∨ d = (lower units count).next count := by
  unfold around
  dsimp only
  split
  · rw [List.mem_pair, or_comm]
  · exact List.mem_pair

theorem value_next (d : Decimal) (count : Nat) :
    (d.next count).value = (d.digits + 1) * 10 ^ d.exponent := by
  unfold next
  split
  · next power =>
    have digits : (d.digits : ℚ) + 1 = 10 ^ count := by
      rw [← Nat.cast_succ, Nat.succ_eq_add_one, power, Nat.pow_eq, Nat.cast_pow, Nat.cast_ofNat]
    rw [value, digits, Nat.cast_one, one_mul, zpow_add₀ (by norm_num), zpow_natCast, mul_comm]
  · rw [value, Nat.cast_add, Nat.cast_one]

theorem digits_next_lt {count : Nat} (some : 0 < count) (h : d.digits < 10 ^ count) :
    (d.next count).digits < 10 ^ count := by
  unfold next
  split
  · exact Nat.one_lt_pow (Nat.ne_of_gt some) (by decide)
  · next less => exact Nat.lt_of_le_of_ne h less

theorem lower_digits (x : Binary64) (count : Nat) : (lower x.units count).digits =
    ⌊x.magnitude / 10 ^ (leadingPlace x.units - count)⌋₊ := by
  rw [Binary64.magnitude, ← steps_eq, Rat.natFloor_natCast_div_natCast]
  rfl

/-- The decimal of so many digits below a number and the one behind it enclose the number. -/
theorem lower_bounds (h : x.rank ≠ 0) {count : Nat} (some : 0 < count) :
    10 ^ (count - 1) ≤ (lower x.units count).digits ∧
      (lower x.units count).digits < 10 ^ count ∧ (lower x.units count).value ≤ x.magnitude ∧
        x.magnitude < ((lower x.units count).next count).value := by
  obtain ⟨low, high⟩ := leadingPlace_bounds h
  have place : leadingPlace x.units = leadingPlace x.units - count + count := by omega
  rw [place] at low high
  rw [value_next, value, lower_digits]
  exact floor_bounds some low high

theorem pow_mul_zpow_le {count : Nat} (some : 0 < count) {low high : Int} (h : low < high) :
    (10 : ℚ) ^ count * 10 ^ low ≤ 10 ^ (count - 1) * 10 ^ high := by
  have ten : (10 : ℚ) ≠ 0 := by norm_num
  rw [← zpow_natCast, ← zpow_natCast, ← zpow_add₀ ten, ← zpow_add₀ ten]
  exact zpow_le_zpow_right₀ (by norm_num) (by omega)

/-- Among the decimals of so many digits nothing lies between one and the next. -/
theorem value_le_or_next_le {e : Decimal} {count : Nat} (some : 0 < count)
    (long : 10 ^ (count - 1) ≤ d.digits) (short : d.digits < 10 ^ count)
    (long' : 10 ^ (count - 1) ≤ e.digits) (short' : e.digits < 10 ^ count) :
    e.value ≤ d.value ∨ (d.next count).value ≤ e.value := by
  have least {f : Decimal} (h : 10 ^ (count - 1) ≤ f.digits) :
      (10 : ℚ) ^ (count - 1) * 10 ^ f.exponent ≤ f.value :=
    mul_le_mul_of_nonneg_right (by exact_mod_cast h) (by positivity)
  have greatest {f : Decimal} (h : f.digits < 10 ^ count) :
      ((f.digits : ℚ) + 1) * 10 ^ f.exponent ≤ 10 ^ count * 10 ^ f.exponent :=
    mul_le_mul_of_nonneg_right (by exact_mod_cast h) (by positivity)
  have behind (f : Decimal) : f.value ≤ (f.digits + 1) * 10 ^ f.exponent :=
    mul_le_mul_of_nonneg_right (lt_add_one _).le (by positivity)
  rw [value_next]
  rcases lt_trichotomy e.exponent d.exponent with finer | equal | coarser
  · left
    calc e.value
        ≤ (e.digits + 1) * 10 ^ e.exponent := behind e
      _ ≤ 10 ^ count * 10 ^ e.exponent := greatest short'
      _ ≤ 10 ^ (count - 1) * 10 ^ d.exponent := pow_mul_zpow_le some finer
      _ ≤ d.value := least long
  · rcases Nat.lt_or_ge d.digits e.digits with more | less
    · right
      rw [value, equal]
      exact mul_le_mul_of_nonneg_right (by exact_mod_cast more) (by positivity)
    · left
      rw [value, value, equal]
      exact mul_le_mul_of_nonneg_right (by exact_mod_cast less) (by positivity)
  · right
    calc ((d.digits : ℚ) + 1) * 10 ^ d.exponent
        ≤ 10 ^ count * 10 ^ d.exponent := greatest short
      _ ≤ 10 ^ (count - 1) * 10 ^ e.exponent := pow_mul_zpow_le some coarser
      _ ≤ e.value := least long'

/-- If a decimal denotes the number, so does one of the two around it with as many digits. -/
theorem exists_readsBack_around (tie : TieRule) (h : x.rank ≠ 0) (reads : d.ReadsBack x) :
    ∃ e ∈ around tie x.units (Nat.toDigits 10 d.digits).length, e.ReadsBack x := by
  have nonzero := reads.digits_ne_zero h
  have least := pow_length_toDigits_le nonzero
  have greatest := lt_pow_length_toDigits d.digits
  have some : 0 < (Nat.toDigits 10 d.digits).length :=
    List.length_pos_iff.2 Nat.toDigits_ne_nil
  generalize (Nat.toDigits 10 d.digits).length = count at least greatest some
  obtain ⟨long, short, below, above⟩ := lower_bounds h some
  rcases value_le_or_next_le some long short least greatest with small | great
  · exact ⟨_, mem_around.2 (.inl rfl), reads.between (.inl ⟨small, below⟩)⟩
  · exact ⟨_, mem_around.2 (.inr rfl), reads.between (.inr ⟨above.le, great⟩)⟩

/-- With seventeen digits the nearer of the two denotes the number, since 2^53 is below 10^16. -/
theorem exists_readsBack_seventeen (tie : TieRule) (h : x.rank ≠ 0) :
    ∃ e ∈ around tie x.units 17, e.ReadsBack x := by
  obtain ⟨long, -, below, above⟩ := lower_bounds h (by decide : 0 < 17)
  have step := value_next (lower x.units 17) 17
  have fine : (10 : ℚ) ^ 16 * 10 ^ (lower x.units 17).exponent ≤ x.magnitude :=
    le_trans (mul_le_mul_of_nonneg_right (by exact_mod_cast long) (by positivity)) below
  rw [add_mul, one_mul, ← value] at step
  generalize (10 : ℚ) ^ (lower x.units 17).exponent = last at step fine
  rcases le_total (2 * (x.magnitude - (lower x.units 17).value)) last with near | far
  · refine ⟨_, mem_around.2 (.inl rfl), readsBack_of_close h ?_⟩
    rw [abs_of_nonpos (by linarith)]
    linarith
  · refine ⟨_, mem_around.2 (.inr rfl), readsBack_of_close h ?_⟩
    rw [abs_of_nonneg (by linarith)]
    linarith

/-- The first of the counts with a decimal that reads back is taken. -/
theorem shortest_mem_around (tie : TieRule) {count : Nat} (some : 0 < count) (few : count ≤ 17)
    (found : ∃ e ∈ around tie x.units count, e.ReadsBack x) :
    ∃ least, 0 < least ∧ least ≤ count ∧ shortest tie x ∈ around tie x.units least := by
  obtain ⟨i, rfl⟩ := Nat.exists_eq_add_one_of_ne_zero (Nat.ne_of_gt some)
  let first (i : Nat) := (around tie x.units (i + 1)).find? fun d => d.ReadsBack x
  have reached : (first i).isSome := by
    obtain ⟨e, mem, reads⟩ := found
    exact List.find?_isSome.2 ⟨e, mem, decide_eq_true reads⟩
  have within : i ∈ List.range 17 := List.mem_range.2 few
  obtain ⟨d, chosen⟩ :=
    Option.isSome_iff_exists.1 (List.findSome?_isSome_iff.2 ⟨i, within, reached⟩)
  have taken : shortest tie x = d := by
    unfold shortest
    exact congrArg (Option.getD · _) chosen
  obtain ⟨before, j, behind, split, read, none⟩ := List.findSome?_eq_some_iff.1 chosen
  have order := List.pairwise_lt_range (n := 17)
  rw [split] at within order
  have least : j ≤ i := by
    rcases List.mem_append.1 within with early | late
    · rw [none i early] at reached
      cases reached
    · rcases List.mem_cons.1 late with rfl | later
      · exact Nat.le_refl _
      · exact ((List.pairwise_cons.1 (List.pairwise_append.1 order).2.1).1 i later).le
  exact ⟨j + 1, Nat.succ_pos j, Nat.succ_le_succ least, taken ▸ List.mem_of_find?_eq_some read⟩

theorem length_le_of_mem_around (tie : TieRule) (h : x.rank ≠ 0) {count : Nat} (some : 0 < count)
    (mem : d ∈ around tie x.units count) : (Nat.toDigits 10 d.digits).length ≤ count := by
  obtain ⟨-, short, -, -⟩ := lower_bounds h some
  refine length_toDigits_le some ?_
  rcases mem_around.1 mem with rfl | rfl
  · exact short
  · exact digits_next_lt some short

/-- No decimal that denotes the number has fewer digits than the chosen one. -/
theorem length_shortest_le (tie : TieRule) (h : x.rank ≠ 0) (reads : d.ReadsBack x) :
    (Nat.toDigits 10 (shortest tie x).digits).length ≤ (Nat.toDigits 10 d.digits).length := by
  have some : 0 < (Nat.toDigits 10 d.digits).length :=
    List.length_pos_iff.2 Nat.toDigits_ne_nil
  have least : ∃ count, 0 < count ∧ count ≤ 17 ∧ count ≤ (Nat.toDigits 10 d.digits).length ∧
      ∃ e ∈ around tie x.units count, e.ReadsBack x := by
    rcases Nat.le_total (Nat.toDigits 10 d.digits).length 17 with few | many
    · exact ⟨_, some, few, Nat.le_refl _, exists_readsBack_around tie h reads⟩
    · exact ⟨17, by decide, Nat.le_refl _, many, exists_readsBack_seventeen tie h⟩
  obtain ⟨count, positive, few, bound, found⟩ := least
  obtain ⟨least, positive', fewer, mem⟩ := shortest_mem_around tie positive few found
  exact Nat.le_trans (length_le_of_mem_around tie h positive' mem) (Nat.le_trans fewer bound)

end Decimal

end QueryForge
