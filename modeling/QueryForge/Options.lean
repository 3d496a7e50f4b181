import QueryForge.Binary64
import QueryForge.BuildError

/-!
# Options of generation

Chances shape the statements that are drawn and bounds limit their size. A chance is usable from
zero to one, and every bound has a least value of one. The check compares each option with its
bounds, so it refuses an infinity and passes a NaN, which lies on no side of any bound.
-/

namespace QueryForge

/-- Shape of SELECT statements. -/
structure QueryOptions where
  withChance : Double := .ofFraction 1 10
  maxCtes : UInt64 := 2
  joinChance : Double := .ofFraction 3 10
  filterChance : Double := .ofFraction 7 10
  maxPredicateDepth : UInt64 := 3
  distinctChance : Double := .ofFraction 2 10
  distinctOnChance : Double := .ofFraction 3 10
  groupByChance : Double := .ofFraction 15 100
  havingChance : Double := .ofFraction 3 10
  lockingChance : Double := .ofFraction 2 10
  windowChance : Double := .ofFraction 15 100
  namedWindowChance : Double := .ofFraction 5 10
  orderByChance : Double := .ofFraction 3 10
  limitChance : Double := .ofFraction 2 10
  maxLimit : UInt64 := 100
  setOperationChance : Double := .ofFraction 1 10
deriving DecidableEq, Repr

/-- Shape of ALTER TABLE statements. -/
structure AlterOptions where
  /-- The chance of drawing from all subsets of the actions, and not from the small ones. -/
  fullSubsetChance : Double := .ofFraction 5 10
  onlyChance : Double := .ofFraction 5 10
  smallNumberMax : UInt64 := 3
deriving DecidableEq, Repr

structure Options where
  query : QueryOptions := {}
  alterTable : AlterOptions := {}
deriving DecidableEq, Repr

namespace Options

/-- The negative zero is in range, and so is a NaN. -/
def chanceViolations (path : String) (x : Double) : List RangeViolation :=
  if x.lt (.ofNat 0) then [⟨path, true, 0⟩]
  else if (Double.ofNat 1).lt x then [⟨path, false, 1⟩]
  else []

def boundViolations (path : String) (greatest : Option Nat) (n : UInt64) : List RangeViolation :=
  if n = 0 then [⟨path, true, 1⟩]
  else
    match greatest with
    | some bound => if bound < n.toNat then [⟨path, false, bound⟩] else []
    | none => []

/-- All options out of range, sorted by path. -/
def violations (o : Options) : List RangeViolation :=
  chanceViolations "alter_table.full_subset_prob" o.alterTable.fullSubsetChance ++
  chanceViolations "alter_table.only_prob" o.alterTable.onlyChance ++
  boundViolations "alter_table.small_number_max" none o.alterTable.smallNumberMax ++
  chanceViolations "query.distinct_on_prob" o.query.distinctOnChance ++
  chanceViolations "query.distinct_prob" o.query.distinctChance ++
  chanceViolations "query.group_by_prob" o.query.groupByChance ++
  chanceViolations "query.having_prob" o.query.havingChance ++
  chanceViolations "query.join_prob" o.query.joinChance ++
  chanceViolations "query.limit_prob" o.query.limitChance ++
  chanceViolations "query.locking_prob" o.query.lockingChance ++
  boundViolations "query.max_ctes" (some 8) o.query.maxCtes ++
  boundViolations "query.max_limit" none o.query.maxLimit ++
  boundViolations "query.max_predicate_depth" (some 16) o.query.maxPredicateDepth ++
  chanceViolations "query.named_window_prob" o.query.namedWindowChance ++
  chanceViolations "query.order_by_prob" o.query.orderByChance ++
  chanceViolations "query.set_operation_prob" o.query.setOperationChance ++
  chanceViolations "query.where_prob" o.query.filterChance ++
  chanceViolations "query.window_prob" o.query.windowChance ++
  chanceViolations "query.with_prob" o.query.withChance

def check (o : Options) : Except BuildError Unit :=
  if o.violations.isEmpty then .ok () else .error (.optionsOutOfRange o.violations)

end Options
end QueryForge
