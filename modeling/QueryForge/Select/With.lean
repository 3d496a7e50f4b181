import QueryForge.Select.Build

/-!
# Building WITH clauses

A common table expression has a name and a valid query, and a WITH clause has at least one. The
drafts collect their parts in any order and are checked when they are built.
-/

namespace QueryForge

/-- Whether the aliases fit the columns of the query is not checked. -/
def Cte.build (name : String) (columnAliases : List String) (query : Select)
    (columns : List Column) : Except BuildError (Cte Select) := do
  if name.isEmpty then throw .emptyCteName
  query.validate
  return { name, columnAliases, query, columns }

structure CteDraft where
  name : Option String := none
  columnAliases : List String := []
  query : Option Select := none
  columns : List Column := []

namespace CteDraft

def setName (d : CteDraft) (name : String) : CteDraft := { d with name := some name }

def setColumnAliases (d : CteDraft) (aliases : List String) : CteDraft :=
  { d with columnAliases := aliases }

def addColumnAlias (d : CteDraft) (asName : String) : CteDraft :=
  { d with columnAliases := d.columnAliases ++ [asName] }

def setQuery (d : CteDraft) (query : Select) : CteDraft := { d with query := some query }

def setColumns (d : CteDraft) (columns : List Column) : CteDraft := { d with columns }

/-- A draft without a name is treated like one with an empty name. -/
def build (d : CteDraft) : Except BuildError (Cte Select) :=
  let name := d.name.getD ""
  if name.isEmpty then .error .emptyCteName
  else
    match d.query with
    | none => .error (.missingCteQuery name)
    | some query => Cte.build name d.columnAliases query d.columns

end CteDraft

def WithClause.build (ctes : List (Cte Select)) : Except BuildError (WithClause Select) :=
  if ctes.isEmpty then .error .emptyCteList else .ok ⟨ctes⟩

structure WithDraft where
  ctes : List (Cte Select) := []

namespace WithDraft

def addCte (d : WithDraft) (cte : Cte Select) : WithDraft := ⟨d.ctes ++ [cte]⟩

def setCtes (_ : WithDraft) (ctes : List (Cte Select)) : WithDraft := ⟨ctes⟩

def build (d : WithDraft) : Except BuildError (WithClause Select) := WithClause.build d.ctes

end WithDraft
end QueryForge
