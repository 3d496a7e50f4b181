import QueryForge.Options
import QueryForge.Proofs.Draw.Ensures

/-!
# Checked options

The check passes exactly when every bound is in its range and every chance is a probability or a
NaN. Among options whose chances are all finite numbers, those pass that are in range.
-/

namespace QueryForge

/-- If `nan` holds, a NaN is let pass for a chance. -/
structure QueryOptions.InRange (nan : Prop) (o : QueryOptions) : Prop where
  withChance : o.withChance.IsChanceOr nan
  maxCtes : 1 ≤ o.maxCtes.toNat ∧ o.maxCtes.toNat ≤ 8
  joinChance : o.joinChance.IsChanceOr nan
  filterChance : o.filterChance.IsChanceOr nan
  maxPredicateDepth : 1 ≤ o.maxPredicateDepth.toNat ∧ o.maxPredicateDepth.toNat ≤ 16
  distinctChance : o.distinctChance.IsChanceOr nan
  distinctOnChance : o.distinctOnChance.IsChanceOr nan
  groupByChance : o.groupByChance.IsChanceOr nan
  havingChance : o.havingChance.IsChanceOr nan
  lockingChance : o.lockingChance.IsChanceOr nan
  windowChance : o.windowChance.IsChanceOr nan
  namedWindowChance : o.namedWindowChance.IsChanceOr nan
  orderByChance : o.orderByChance.IsChanceOr nan
  limitChance : o.limitChance.IsChanceOr nan
  maxLimit : 1 ≤ o.maxLimit.toNat
  setOperationChance : o.setOperationChance.IsChanceOr nan

/-- If `nan` holds, a NaN is let pass for a chance. -/
structure AlterOptions.InRange (nan : Prop) (o : AlterOptions) : Prop where
  fullSubsetChance : o.fullSubsetChance.IsChanceOr nan
  onlyChance : o.onlyChance.IsChanceOr nan
  smallNumberMax : 1 ≤ o.smallNumberMax.toNat

/-- All chances, in declared order. -/
def QueryOptions.chances (o : QueryOptions) : List Double :=
  [o.withChance, o.joinChance, o.filterChance, o.distinctChance, o.distinctOnChance,
    o.groupByChance, o.havingChance, o.lockingChance, o.windowChance, o.namedWindowChance,
    o.orderByChance, o.limitChance, o.setOperationChance]

/-- All chances, in declared order. -/
def AlterOptions.chances (o : AlterOptions) : List Double := [o.fullSubsetChance, o.onlyChance]

def QueryOptions.HasNaN (o : QueryOptions) : Prop := .nan ∈ o.chances

instance (o : QueryOptions) : Decidable o.HasNaN := inferInstanceAs (Decidable (_ ∈ _))

def AlterOptions.HasNaN (o : AlterOptions) : Prop := .nan ∈ o.chances

instance (o : AlterOptions) : Decidable o.HasNaN := inferInstanceAs (Decidable (_ ∈ _))

namespace Options

def IsFinite (o : Options) : Prop :=
  (∀ p ∈ o.query.chances, p.IsFinite) ∧ ∀ p ∈ o.alterTable.chances, p.IsFinite

theorem chanceViolations_eq_nil_iff {path : String} {x : Double} :
    chanceViolations path x = [] ↔ x.IsChance ∨ x = .nan := by
  have zero : (Binary64.ofNat 0).signedUnits = 0 := by decide +kernel
  have one : (Binary64.ofNat 1).signedUnits = Binary64.unitsPerOne := by decide +kernel
  unfold chanceViolations
  cases x with
  | finite x =>
    simp only [Double.ofNat, Double.lt, zero, one, decide_eq_true_eq, Double.IsChance, reduceCtorEq,
      or_false]
    constructor
    · intro h
      split at h
      · cases h
      · split at h
        · cases h
        · omega
    · rintro ⟨low, high⟩
      rw [if_neg (by omega), if_neg (by omega)]
  | infinite negative => cases negative <;> simp [Double.ofNat, Double.lt, Double.IsChance]
  | nan => simp [Double.ofNat, Double.lt]

theorem boundViolations_eq_nil_iff {path : String} {greatest : Option Nat} {n : UInt64} :
    boundViolations path greatest n = [] ↔
      1 ≤ n.toNat ∧ ∀ bound, greatest = some bound → n.toNat ≤ bound := by
  have zero : n = 0 ↔ n.toNat = 0 := UInt64.toNat_inj.symm
  unfold boundViolations
  by_cases hz : n = 0
  · have none : n.toNat = 0 := zero.1 hz
    rw [if_pos hz]
    constructor
    · intro h
      exact nomatch h
    · intro h
      omega
  · have positive : n.toNat ≠ 0 := mt zero.2 hz
    rw [if_neg hz]
    cases greatest with
    | none => exact ⟨fun _ => ⟨by omega, fun _ h => (nomatch h)⟩, fun _ => rfl⟩
    | some bound =>
      dsimp only
      by_cases high : bound < n.toNat
      · rw [if_pos high]
        constructor
        · intro h
          exact nomatch h
        · intro h
          have := h.2 bound rfl
          omega
      · rw [if_neg high]
        constructor
        · intro _
          refine ⟨by omega, fun b hb => ?_⟩
          rw [← Option.some.inj hb]
          omega
        · intro _
          rfl

theorem violations_eq_nil_iff {o : Options} :
    o.violations = [] ↔
      o.query.InRange o.query.HasNaN ∧ o.alterTable.InRange o.alterTable.HasNaN := by
  unfold violations
  simp only [List.append_eq_nil_iff, chanceViolations_eq_nil_iff, boundViolations_eq_nil_iff,
    and_assoc]
  constructor
  · rintro ⟨full, only, small, -, on, distinct, group, having, join, limit, lock, ctes, ctesMax,
      most, -, depth, depthMax, named, order, set, filter, window, defined⟩
    have query {p : Double} (h : p.IsChance ∨ p = .nan) (mem : p ∈ o.query.chances) :
        p.IsChanceOr o.query.HasNaN := .of_mem h mem
    have alter {p : Double} (h : p.IsChance ∨ p = .nan) (mem : p ∈ o.alterTable.chances) :
        p.IsChanceOr o.alterTable.HasNaN := .of_mem h mem
    refine ⟨⟨query defined ?_, ⟨ctes, ctesMax 8 rfl⟩, query join ?_, query filter ?_,
      ⟨depth, depthMax 16 rfl⟩, query distinct ?_, query on ?_, query group ?_, query having ?_,
      query lock ?_, query window ?_, query named ?_, query order ?_, query limit ?_, most,
      query set ?_⟩, alter full ?_, alter only ?_, small⟩
    all_goals simp [QueryOptions.chances, AlterOptions.chances]
  · rintro ⟨q, a⟩
    have each {nan : Prop} {p : Double} (h : p.IsChanceOr nan) : p.IsChance ∨ p = .nan :=
      h.imp_right And.right
    exact ⟨each a.fullSubsetChance, each a.onlyChance, a.smallNumberMax, fun _ h => (nomatch h),
      each q.distinctOnChance, each q.distinctChance, each q.groupByChance, each q.havingChance,
      each q.joinChance, each q.limitChance, each q.lockingChance, q.maxCtes.1,
      fun _ h => Option.some.inj h ▸ q.maxCtes.2, q.maxLimit, fun _ h => (nomatch h),
      q.maxPredicateDepth.1, fun _ h => Option.some.inj h ▸ q.maxPredicateDepth.2,
      each q.namedWindowChance, each q.orderByChance, each q.setOperationChance,
      each q.filterChance, each q.windowChance, each q.withChance⟩

theorem check_eq_ok_iff {o : Options} :
    o.check = .ok () ↔
      o.query.InRange o.query.HasNaN ∧ o.alterTable.InRange o.alterTable.HasNaN := by
  rw [← violations_eq_nil_iff, ← List.isEmpty_iff]
  unfold check
  by_cases none : o.violations.isEmpty
  · rw [if_pos none]
    exact ⟨fun _ => none, fun _ => rfl⟩
  · rw [if_neg none]
    constructor
    · intro h
      exact nomatch h
    · intro h
      exact absurd h none

theorem check_eq_ok_iff_of_isFinite {o : Options} (h : o.IsFinite) :
    o.check = .ok () ↔ o.query.InRange False ∧ o.alterTable.InRange False := by
  have query : o.query.HasNaN = False := eq_false fun nan => h.1 _ nan
  have alterTable : o.alterTable.HasNaN = False := eq_false fun nan => h.2 _ nan
  rw [check_eq_ok_iff, query, alterTable]

theorem check_default : ({} : Options).check = .ok () :=
  if_pos (by decide +kernel)

/-- Options under which every clause and every action may come up, with the greatest bounds. -/
def broad : Options where
  query :=
    { withChance := .ofFraction 1 2, maxCtes := 8, joinChance := .ofFraction 1 2,
      maxPredicateDepth := 16, distinctChance := .ofFraction 1 3, groupByChance := .ofFraction 1 3,
      havingChance := .ofNat 1, lockingChance := .ofFraction 1 2, windowChance := .ofFraction 1 2,
      orderByChance := .ofFraction 1 2, limitChance := .ofFraction 1 2,
      maxLimit := 18446744073709551615, setOperationChance := .ofFraction 1 2 }
  alterTable := { fullSubsetChance := .ofFraction 1 2, smallNumberMax := 18446744073709551615 }

theorem check_broad : broad.check = .ok () := if_pos (by decide +kernel)

theorem not_hasNaN_broad : ¬broad.query.HasNaN ∧ ¬broad.alterTable.HasNaN := by decide +kernel

end Options

/-- An indexed table with an identity column, one of the same name that repeats a column, and one
without columns. -/
def Schema.assorted : Schema where
  tables :=
    [{ name := "t", columns := [{ name := "a", type := .int, nullable := false, identity := true },
        { name := "b", type := .text }, { name := "c", type := .range, nullable := false }],
       indexes := [{ name := "t_a", columns := ["a", "b"], unique := true }] },
     { name := "t",
       columns := [{ name := "d", type := .boolean }, { name := "d", type := .real }] },
     { name := "u", columns := [] }]
end QueryForge
