import QueryForge.Proofs.Binary64.Nearest

/-!
# Shortest decimals read back

A decimal denotes the number that its quotient is rounded to. So the decimal chosen for a number, be
it a short one or the written-out value, is read as that number, and zeros behind the point do not
matter.
-/

namespace QueryForge.Decimal

variable {x : Binary64} {d : Decimal}

theorem readsBack_iff :
    d.ReadsBack x ↔ Binary64.nearestRank d.quotient.1 d.quotient.2 = x.rank := by
  unfold ReadsBack
  rw [Binary64.ofDecimal?_eq]
  constructor
  · unfold Binary64.ofRank?
    intro read
    split at read
    · rw [← Option.some.inj read]
    · cases read
  · intro rank
    rw [rank]
    exact x.ofRank?_rank

/-- If `p / 10 ^ k` is the unit of magnitudes, every magnitude is a decimal fraction of `k`
places. -/
theorem readsBack_of_unit (x : Binary64) {p k : Nat}
    (unit : Nat.pow 10 k = Binary64.unitsPerOne * p) :
    (⟨x.units * p, -k⟩ : Decimal).ReadsBack x := by
  have product : 0 < Binary64.unitsPerOne * p := unit ▸ Nat.pow_pos (by decide)
  rw [readsBack_iff, quotient_neg_natCast, unit,
    Binary64.nearestRank_mul_right _ _ (Nat.pos_of_mul_pos_left product)]
  exact Binary64.nearestRank_unitsOfRank x.rank

theorem writtenOut_readsBack (x : Binary64) :
    (⟨x.units * Nat.pow 5 1074, -1074⟩ : Decimal).ReadsBack x :=
  readsBack_of_unit (k := 1074) x (by decide +kernel)

/-- The chosen decimal is read as the number it stands for. -/
theorem shortest_readsBack (tie : TieRule) (x : Binary64) :
    (shortest tie x).ReadsBack x := by
  have found {d : Decimal} (hd : ((List.range 17).findSome? fun i =>
      (around tie x.units (i + 1)).find? fun d => d.ReadsBack x) = some d) : d.ReadsBack x := by
    obtain ⟨i, -, hi⟩ := List.exists_of_findSome?_eq_some hd
    simpa using List.find?_some hi
  unfold shortest
  dsimp only
  cases hd : (List.range 17).findSome? fun i =>
      (around tie x.units (i + 1)).find? fun d => d.ReadsBack x with
  | none => exact writtenOut_readsBack x
  | some d => exact found hd

theorem ReadsBack.digits_ne_zero (h : x.rank ≠ 0) (reads : d.ReadsBack x) : d.digits ≠ 0 := by
  intro zero
  unfold ReadsBack Binary64.ofDecimal? at reads
  dsimp only at reads
  rw [if_pos (.inl zero), Option.some.injEq] at reads
  exact h (reads ▸ Nat.zero_min _)

/-- A whole number may be written with zeros behind the point as well. -/
theorem ReadsBack.withZeros {digits k : Nat} (reads : (⟨digits, k⟩ : Decimal).ReadsBack x)
    (j : Nat) : (⟨digits * 10 ^ (k + j), -j⟩ : Decimal).ReadsBack x := by
  have power : 0 < Nat.pow 10 j := Nat.pow_pos (by decide)
  have same := Binary64.nearestRank_mul_right (digits * Nat.pow 10 k) 1 power
  rw [readsBack_iff, quotient_natCast] at reads
  rw [Nat.one_mul, Nat.mul_assoc] at same
  rw [readsBack_iff, quotient_neg_natCast, Nat.pow_add]
  exact same.trans reads

end QueryForge.Decimal
