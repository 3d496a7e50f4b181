import QueryForge.Options
import QueryForge.Scope
import QueryForge.Select.With

/-!
# What a random statement reads

A statement reads sources: tables of the catalog and the common table expressions that it
defines. A drawn common table expression is a plain statement over one table, and as a source it
shows its columns under their aliases.
-/

namespace QueryForge

/-- A generator of something that is built by setters which may refuse. -/
abbrev Building := ExceptT BuildError Draw

def Building.ofExcept {α : Type} (e : Except BuildError α) : Building α := .mk (.done e)

structure Source where
  name : String
  columns : List Column
  isCte : Bool
deriving DecidableEq, Repr

namespace Source

open Draw

def ofTable (t : Table) : Source := ⟨t.name, t.columns, false⟩

def scope (s : Source) : List ScopeColumn := s.columns.map fun c => ⟨s.name, c⟩

/-- A FROM item that reads the source. Only a table may be read without its descendants. -/
def randomItem (s : Source) : Draw (FromItem Select) :=
  if s.isCte then return .table s.name false none
  else do
    let only ← chance (.ofFraction 1 10)
    return .table s.name only none

end Source

namespace QueryOptions

def predicateDepth (o : QueryOptions) : Nat := o.maxPredicateDepth.toNat

/-- A WHERE predicate, if one is drawn. -/
def randomFilter (o : QueryOptions) (scope : List ScopeColumn) : Draw (Option Expr) :=
  Draw.sometimes o.filterChance (Predicate.random scope o.predicateDepth)

end QueryOptions

def ResultColumn.ofScope (c : ScopeColumn) : ResultColumn := .expr c.expr none

/-- A common table expression together with the source that it is to the statement. -/
structure CteSource where
  cte : Cte Select
  source : Source

namespace CteSource

open Draw

/-- The columns under their aliases; without aliases they keep their names. -/
def exposed : List Column → List String → List Column
  | c :: columns, a :: aliases => { c with name := a } :: exposed columns aliases
  | columns, [] => columns
  | [], _ => []

/-- The expression `cte<index>` over a drawn table, or nothing if there is no column to read. -/
def random (tables : List Table) (o : QueryOptions) (index : Nat) :
    Building (Option CteSource) := do
  match ← pickMaybe tables with
  | none => return none
  | some table =>
    let columns ← nonemptySubset table.columns
    if columns.isEmpty then return none
    let name := "cte" ++ index.repr
    let scope := (Source.ofTable table).scope
    let projection := columns.map fun c => ResultColumn.ofScope ⟨table.name, c⟩
    let filter ← o.randomFilter scope
    let query := (Select.simple table.name projection).setFilter filter
    let aliased ← chance Literal.even
    let aliases :=
      if aliased then (List.range columns.length).map fun i => "a" ++ i.repr else []
    let draft := CteDraft.setColumns
      (CteDraft.setQuery (CteDraft.setColumnAliases (CteDraft.setName {} name) aliases) query)
      columns
    let cte ← Building.ofExcept draft.build
    return some ⟨cte, ⟨name, exposed columns aliases, true⟩⟩

/-- So many attempts, with their numbers from `index` on; those without a result are passed over. -/
def randomList (tables : List Table) (o : QueryOptions) : (count index : Nat) →
    Building (List CteSource)
  | 0, _ => return []
  | count + 1, index => do
    let first ← random tables o index
    let rest ← randomList tables o count (index + 1)
    return first.toList ++ rest

end CteSource
end QueryForge
