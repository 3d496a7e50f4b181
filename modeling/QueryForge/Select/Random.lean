import QueryForge.ErrorRegistry.Catalog
import QueryForge.Select.Random.Source
import QueryForge.Select.Random.Windows
import QueryForge.Statement

/-!
# Random SELECT statements

A statement grows clause by clause. Each step draws what it adds, and the clauses that exclude
each other pass through the setters that check them.
-/

namespace QueryForge

open Draw

namespace SortOrder

def all : List SortOrder := [.ascending, .descending]

end SortOrder

namespace NullsOrder

def all : List NullsOrder := [.first, .last]

end NullsOrder

def LockingClause.random : Draw LockingClause := pick LockingClause.all (by decide)

namespace OrderTerm

def random (c : ScopeColumn) : Draw (OrderTerm Expr) := do
  let order ← sometimes Literal.even (pick SortOrder.all (by decide))
  let nulls ← sometimes (.ofFraction 3 10) (pick NullsOrder.all (by decide))
  return ⟨c.expr, order, nulls⟩

/-- So many terms, or none if there is no column to order by. -/
def randomList (orderable : List ScopeColumn) : Nat → Draw (List (OrderTerm Expr))
  | 0 => return []
  | count + 1 => do
    match ← pickMaybe orderable with
    | none => return []
    | some column =>
      let term ← random column
      let rest ← randomList orderable count
      return term :: rest

end OrderTerm

/-- A join together with the source that it reads. -/
structure DrawnJoin where
  join : Join Select
  source : Source

namespace DrawnJoin

/-- A join with one of the other sources. Its condition sees the columns of both sides. -/
def random (o : QueryOptions) (scope : List ScopeColumn) (others : List Source) :
    Draw (Option DrawnJoin) := do
  let other ← pickMaybe others
  let wanted ← chance o.joinChance
  match other, wanted with
  | some other, true => do
    let kind ← pick JoinKind.all (by decide)
    let on ← if kind = .cross then pure none
      else some <$> Predicate.random (scope ++ other.scope) o.predicateDepth
    let item ← other.randomItem
    return some ⟨⟨kind, item, on⟩, other⟩
  | _, _ => return none

end DrawnJoin

namespace Select

/-- What is read: the defined expressions, the first source, and a join. -/
structure Origin where
  ctes : List CteSource
  base : Source
  item : FromItem Select
  join : Option DrawnJoin
  /-- Whether another arm follows, which rules out ordering, limits and row locks. -/
  setOperation : Bool

namespace Origin

def scope (g : Origin) : List ScopeColumn :=
  g.base.scope ++ (g.join.elim [] fun j => j.source.scope)

def readsCte (g : Origin) : Bool := g.base.isCte || g.join.any fun j => j.source.isCte

def hasOuterJoin (g : Origin) : Bool := g.join.any fun j => j.join.kind.isOuter

def joins (g : Origin) : List (Join Select) := g.join.toList.map DrawnJoin.join

end Origin

/-- The expressions of a WITH clause, of which there are none if no WITH clause is drawn. -/
def randomCtes (tables : List Table) (o : QueryOptions) : Building (List CteSource) := do
  if ← chance o.withChance then
    let extra ← smallNumber (o.maxCtes.toNat - 1)
    fits .unsigned64 (1 + extra)
    CteSource.randomList tables o (1 + extra) 0
  else return []

/-- The drawn table, or the last of the defined expressions in half of the cases. -/
def randomBase (table : Table) (ctes : List CteSource) : Draw Source :=
  match ctes.getLast? with
  | none => return .ofTable table
  | some last => do
    if ← chance Literal.even then return last.source else return .ofTable table

def randomOrigin (tables : List Table) (o : QueryOptions) (table : Table) : Building Origin := do
  let ctes ← randomCtes tables o
  let base ← randomBase table ctes
  let setOperation ← chance o.setOperationChance
  let item ← base.randomItem
  let sources := tables.map Source.ofTable ++ ctes.map CteSource.source
  let join ← DrawnJoin.random o base.scope (sources.filter fun s => s.name != base.name)
  return { ctes, base, item, join, setOperation }

/-- A statement that reads its origin and shows some of the columns. -/
def ofOrigin (g : Origin) (projected : List ScopeColumn) (filter : Option Expr) :
    Building Select := do
  let s := empty.setFromItems [g.item]
  let s := s.setJoins g.joins
  let s := s.setColumns (projected.map .ofScope)
  let s := s.setFilter filter
  if g.ctes.isEmpty then return s
  else
    let w ← Building.ofExcept (WithClause.build (g.ctes.map CteSource.cte))
    return s.setWithClause (some w)

/-- Makes a statement DISTINCT or leaves it as it is. The column of a DISTINCT ON is returned too:
ordering has to start with it. -/
def addRandomDistinct (s : Select) (o : QueryOptions) (projected : List ScopeColumn) :
    Building (Select × Option ScopeColumn) := do
  if ← chance o.distinctChance then
    let s ← Building.ofExcept (s.setSelectOption .distinct)
    let column ← pickMaybe (projected.filter ScopeColumn.isOrderable)
    let wanted ← chance o.distinctOnChance
    match column, wanted with
    | some column, true => do
      let s ← Building.ofExcept (s.setDistinctOn column.expr)
      return (s, some column)
    | _, _ => return (s, none)
  else return (s, none)

/-- Groups a statement by all its columns, perhaps with a HAVING predicate over them. -/
def addRandomGrouping (s : Select) (o : QueryOptions) (projected : List ScopeColumn) :
    Building Select := do
  let s ← Building.ofExcept (s.setGroupBy (projected.map ScopeColumn.expr))
  let having ← sometimes o.havingChance (Predicate.random projected o.predicateDepth)
  match having with
  | none => return s
  | some having => return s.setHaving (some having)

/-- Groups a statement, or else gives it window functions, or neither. -/
def addRandomShape (s : Select) (o : QueryOptions) (scope projected : List ScopeColumn) :
    Building Select := do
  let grouped ← if s.selectOption = .all then chance o.groupByChance else pure false
  if grouped then s.addRandomGrouping o projected
  else if ← chance o.windowChance then s.addRandomWindows scope o.namedWindowChance
  else return s

def addRandomLimit (s : Select) (o : QueryOptions) : Draw Select := do
  if ← chance o.limitChance then
    let limit ← withinWide 0 o.maxLimit.toNat
    let s := s.setLimit (some (.ofNat limit.toNat))
    if ← chance Literal.even then
      let offset ← withinWide 0 o.maxLimit.toNat
      return s.setOffset (some (.ofNat offset.toNat))
    else return s
  else return s

/-- Orders a statement by columns that it shows, those of a DISTINCT ON first, and limits it. -/
def addRandomOrder (s : Select) (o : QueryOptions) (projected : List ScopeColumn)
    (distinctOn : Option ScopeColumn) : Draw Select := do
  let extra ← smallNumber 2
  let first := distinctOn.toList.map fun c => OrderTerm.ofExpr c.expr
  let ordered ← if distinctOn.isSome then pure true else chance o.orderByChance
  let more ← if ordered then
      OrderTerm.randomList (projected.filter ScopeColumn.isOrderable) extra
    else pure []
  (s.setOrderBy (first ++ more)).addRandomLimit o

/-- Whether the database can lock the rows of a statement. -/
def isLockable (s : Select) (g : Origin) : Bool :=
  s.selectOption == .all && s.groupBy.isEmpty && s.clauses.windowFunctions.isEmpty &&
    !g.hasOuterJoin && !g.setOperation && !g.readsCte

def addRandomLock (s : Select) (o : QueryOptions) (g : Origin) : Building Select := do
  let locked ← if s.isLockable g then chance o.lockingChance else pure false
  if locked then
    let clause ← LockingClause.random
    Building.ofExcept (s.setLockingClause (some clause))
  else return s

/-- A statement with the same columns, windows and sources, and with a filter of its own. -/
def similar (s : Select) (filter : Option Expr) : Select :=
  let arm := empty.setColumns s.clauses.columns
  let arm := arm.setWindowFunctions s.clauses.windowFunctions
  let arm := s.clauses.windows.entries.foldl (fun arm w => arm.addWindowDefinition w.1 w.2) arm
  let arm := arm.setFromItems s.clauses.fromItems
  let arm := arm.setJoins s.clauses.joins
  arm.setFilter filter

def addRandomArm (s : Select) (o : QueryOptions) (scope : List ScopeColumn) : Draw Select := do
  let filter ← o.randomFilter scope
  let operator ← pick SetOperator.all (by decide)
  return s.attach operator (s.similar filter)

/-- A statement over what it reads. -/
def randomOver (o : QueryOptions) (g : Origin) : Building Select := do
  let projected ← nonemptySubset g.scope
  let filter ← o.randomFilter g.scope
  let s ← ofOrigin g projected filter
  let (s, distinctOn) ← s.addRandomDistinct o projected
  let s ← s.addRandomShape o g.scope projected
  let s ← if g.setOperation then pure s else s.addRandomOrder o projected distinctOn
  let s ← s.addRandomLock o g
  if g.setOperation then s.addRandomArm o g.scope else return s

/-- A statement that reads from the catalog, starting at a table. -/
def randomFrom (tables : List Table) (o : QueryOptions) (table : Table) : Building Select := do
  let g ← randomOrigin tables o table
  randomOver o g

/-- A catalog without tables leaves a constant to select. -/
def random (tables : List Table) (o : QueryOptions) : Building Select := do
  match ← pickMaybe tables with
  | none =>
    let value ← Predicate.random [] o.predicateDepth
    return empty.setColumns [.expr value none]
  | some table => randomFrom tables o table

end Select

namespace SelectQuery

/-- The errors of any generated SELECT statement. -/
def baseErrors : ErrorRegistry :=
  ErrorRegistry.empty.addExpressionErrors.addAll ErrorRegistry.selectErrors

def random (tables : List Table) (o : QueryOptions) : Building SelectQuery := do
  let select ← Select.random tables o
  return ⟨select, baseErrors⟩

end SelectQuery
end QueryForge
