import QueryForge.AlterTable
import QueryForge.AlterTable.Kind
import QueryForge.Literal.Random
import QueryForge.Options

/-!
# Random ALTER TABLE statements

Kinds are drawn from the catalog, those that the table cannot take are removed, and each of the
others yields an action with a target of its own, if the table has one. The errors of every kept
kind are registered, with or without an action.
-/

namespace QueryForge

open Draw

namespace ActionKind

/-- Whether a table can take a kind at all. -/
def isApplicable (t : Table) (k : ActionKind) : Bool :=
  k.isSupported && (k != .dropColumn || 2 ≤ t.columns.length) &&
    (!k.requiresIndex || t.hasIndexes) && (!k.isIdentity || t.hasIntegerColumn)

/-- Keeps the applicable kinds. If the sampled column is an integer, the identity kinds that are
missing follow them. -/
def prune (t : Table) (sampled : Option Column) (drawn : List ActionKind) : List ActionKind :=
  let kept := drawn.filter (isApplicable t)
  if sampled.any fun c => c.type.isInteger then
    kept ++ all.filter fun k => k.isIdentity && !kept.contains k
  else kept

/-- A column is sampled only from a table that has an integer column. -/
def randomSample (t : Table) : Draw (Option Column) :=
  if h : t.hasIntegerColumn then some <$> pick t.columns (Table.columns_ne_nil h) else return none

/-- A subset of all kinds, or a small one, which makes it more likely that the whole statement
succeeds. -/
def randomList (o : AlterOptions) : Draw (List ActionKind) := do
  if ← chance o.fullSubsetChance then nonemptySubset all
  else
    let amount ← smallNumber o.smallNumberMax.toNat
    subset all amount

end ActionKind

namespace AlterAction

/-- The letter c and the magnitude of a signed number of 64 bits. -/
def randomConstraintName : Draw String := do
  let word ← word64
  return "c" ++ word.toInt64.toInt.natAbs.repr

/-- An action on a column of the list, if there is one. -/
def onColumn (columns : List Column) (action : Column → Draw AlterAction) :
    Draw (Option AlterAction) := do
  match ← pickMaybe columns with
  | none => return none
  | some column => some <$> action column

def onIndex (t : Table) (action : Index → Draw AlterAction) : Draw (Option AlterAction) := do
  match ← pickMaybe t.indexes with
  | none => return none
  | some index => some <$> action index

/-- Numeric types have one storage mode. -/
def randomStorage (type : ColumnType) : Draw StorageMode :=
  if type.isNumeric then return .plain else pick StorageMode.all (by decide)

/-- An action of a kind on a table, or nothing if the table offers no target for it. -/
def random (t : Table) : ActionKind → Draw (Option AlterAction)
  | .dropColumn => do
    let ifExists ← chance Literal.even
    onColumn t.columns fun c => do
      let behavior ← sometimes Literal.even
        (pick [DropBehavior.restrict, .cascade] (by decide))
      return .dropColumn ifExists c.name behavior
  | .alterColumnType => onColumn t.columns fun c => do
    let setData ← chance Literal.even
    let type ← ColumnType.random
    return .alterColumnType c.name setData type
  | .setDropDefault => onColumn t.columns fun c => do
    let value ← sometimes Literal.even word32
    return .columnDefault c.name (value.map fun word => .ofInt word.toInt32.toInt)
  | .setDropNotNull => onColumn t.columns fun c => do
    return .columnNotNull c.name (← chance Literal.even)
  | .setStatistics => onColumn t.columns fun c => do
    let target ← within (-1) 10000
    return .setStatistics c.name (.ofInt target)
  | .setAttributeOption => onColumn t.columns fun c => do
    let x ← unit
    return .setAttributeOption c.name (.finite (x * .ofNat 2 - .ofNat 1))
  | .resetAttributeOption => onColumn t.columns fun c => return .resetAttributeOption c.name
  | .setStorage => onColumn t.columns fun c => do
    let storage ← randomStorage c.type
    return .setStorage c.name storage
  | .addConstraint => do
    let name ← randomConstraintName
    return some (.addCheckConstraint name)
  | .addConstraintUsingIndex => onIndex t fun i => do
    let name ← randomConstraintName
    let kind ← pick [ConstraintKind.unique, .primaryKey] (by decide)
    return .addConstraintUsingIndex name kind i.name
  | .validateConstraint => return some (.validateConstraint "asdf")
  | .disableRowSecurity => return some (.rowSecurity .disable)
  | .enableRowSecurity => return some (.rowSecurity .enable)
  | .forceRowSecurity => return some (.rowSecurity .force)
  | .noForceRowSecurity => return some (.rowSecurity .noForce)
  | .clusterOn => onIndex t fun i => return .clusterOn i.name
  | .setWithoutCluster => return some .setWithoutCluster
  | .setWithOids => return none
  | .setWithoutOids => return some .setWithoutOids
  | .setLoggedUnlogged => do
    return some (.setLogged (← chance Literal.even))
  | .notOf => return some .notOf
  | .ownerTo => do
    let role ← pick [OwnerRole.currentUser, .sessionUser] (by decide)
    return some (.ownerTo role)
  | .replicaIdentity => do
    let identity ← pick [ReplicaIdentity.default, .full, .nothing] (by decide)
    return some (.replicaIdentity identity)
  | .setIdentity => return none
  | .setGenerated => return none
  | .dropIdentity => onColumn t.integerColumns fun c => do
    return .dropIdentity c.name (← chance Literal.even)
  | .restartIdentity => onColumn t.integerColumns fun c => do
    let value ← sometimes Literal.even (within 2 200)
    return .restartIdentity c.name (value.map .ofInt)

end AlterAction

/-- What the kinds of a statement have given so far. -/
structure AlterDraft where
  expectedErrors : ErrorRegistry
  fragments : List AlterFragment
deriving DecidableEq, Repr

/-- Takes a kept kind into account. Its errors are registered before it turns out whether it yields
an action. -/
def AlterDraft.addRandom (t : Table) (o : AlterOptions) (d : AlterDraft) (kind : ActionKind) :
    Draw AlterDraft := do
  let registered := d.expectedErrors.addAll kind.expectedErrors
  if kind.yieldsAction then
    let only ← chance o.onlyChance
    match ← AlterAction.random t kind with
    | none => return { d with expectedErrors := registered }
    | some action => return {
        expectedErrors := registered.addAll action.expectedErrors
        fragments := d.fragments ++ [⟨t.name, only, action⟩] }
  else return { d with expectedErrors := registered }

namespace AlterTableQuery

/-- The errors of any ALTER TABLE statement. -/
def baseErrors : ErrorRegistry :=
  ErrorRegistry.empty.addExpressionErrors.addWriteErrors.addTableErrors.addAll
    ErrorRegistry.alterTableErrors

/-- A statement of kept kinds, or nothing if none is kept or none of them yields an action. -/
def randomOf (t : Table) (o : AlterOptions) (kept : List ActionKind) :
    Draw (Option AlterTableQuery) :=
  if kept.isEmpty then return none
  else do
    let draft ← kept.foldlM (AlterDraft.addRandom t o) ⟨baseErrors, []⟩
    if draft.fragments.isEmpty then return none
    else return some ⟨⟨draft.fragments⟩, draft.expectedErrors⟩

def random (t : Table) (o : AlterOptions) : Draw (Option AlterTableQuery) := do
  let drawn ← ActionKind.randomList o
  let sampled ← ActionKind.randomSample t
  randomOf t o (ActionKind.prune t sampled drawn)

end AlterTableQuery
end QueryForge
