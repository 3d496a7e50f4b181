import QueryForge.Select.Clauses

/-!
# SELECT statements

A statement is a record of clauses whose nested statements are statements again. What is computed
bottom-up is stated for the clauses of one statement and carried through by `Select.fold`.
-/

namespace QueryForge

inductive Select where
  | node (clauses : Clauses Select)

namespace Select

def clauses : Select → Clauses Select
  | .node clauses => clauses

section Fold

variable {ρ : Type} (step : Clauses ρ → ρ)

mutual

def fold : Select → ρ
  | .node clauses => step (foldClauses clauses)

def foldClauses : Clauses Select → Clauses ρ
  | ⟨withClause, modifier, columns, windowFunctions, fromItems, joins, filter, groupBy, having,
      windows, orderBy, limit, offset, setOperation⟩ =>
    ⟨foldWith withClause, modifier, columns, windowFunctions, foldItems fromItems,
      foldJoins joins, filter, groupBy, having, windows, orderBy, limit, offset,
      foldArm setOperation⟩

def foldWith : Option (WithClause Select) → Option (WithClause ρ)
  | none => none
  | some w => some (foldWithClause w)

def foldWithClause : WithClause Select → WithClause ρ
  | ⟨ctes⟩ => ⟨foldCtes ctes⟩

def foldCtes : List (Cte Select) → List (Cte ρ)
  | [] => []
  | cte :: rest => foldCte cte :: foldCtes rest

def foldCte : Cte Select → Cte ρ
  | ⟨name, columnAliases, query, columns⟩ => ⟨name, columnAliases, fold query, columns⟩

def foldItems : List (FromItem Select) → List (FromItem ρ)
  | [] => []
  | item :: rest => foldItem item :: foldItems rest

def foldItem : FromItem Select → FromItem ρ
  | .table name only asName => .table name only asName
  | .subquery query asName => .subquery (fold query) asName

def foldJoins : List (Join Select) → List (Join ρ)
  | [] => []
  | join :: rest => foldJoin join :: foldJoins rest

def foldJoin : Join Select → Join ρ
  | ⟨kind, item, on⟩ => ⟨kind, foldItem item, on⟩

def foldArm : Option (SetOperation Select) → Option (SetOperation ρ)
  | none => none
  | some arm => some (foldSetOperation arm)

def foldSetOperation : SetOperation Select → SetOperation ρ
  | ⟨operator, query⟩ => ⟨operator, fold query⟩

end

theorem foldCte_eq_map (cte : Cte Select) : foldCte step cte = cte.map (fold step) := by
  cases cte; simp [foldCte, Cte.map]

theorem foldCtes_eq_map (ctes : List (Cte Select)) :
    foldCtes step ctes = ctes.map (Cte.map (fold step)) := by
  induction ctes with
  | nil => simp [foldCtes]
  | cons cte rest ih => simp [foldCtes, foldCte_eq_map, ih]

theorem foldWith_eq_map (w : Option (WithClause Select)) :
    foldWith step w = w.map (WithClause.map (fold step)) := by
  cases w with
  | none => simp [foldWith]
  | some w => cases w; simp [foldWith, foldWithClause, WithClause.map, foldCtes_eq_map]

theorem foldItem_eq_map (item : FromItem Select) : foldItem step item = item.map (fold step) := by
  cases item <;> simp [foldItem, FromItem.map]

theorem foldItems_eq_map (items : List (FromItem Select)) :
    foldItems step items = items.map (FromItem.map (fold step)) := by
  induction items with
  | nil => simp [foldItems]
  | cons item rest ih => simp [foldItems, foldItem_eq_map, ih]

theorem foldJoins_eq_map (joins : List (Join Select)) :
    foldJoins step joins = joins.map (Join.map (fold step)) := by
  induction joins with
  | nil => simp [foldJoins]
  | cons join rest ih =>
    cases join
    simp [foldJoins, foldJoin, Join.map, foldItem_eq_map, ih]

theorem foldArm_eq_map (arm : Option (SetOperation Select)) :
    foldArm step arm = arm.map (SetOperation.map (fold step)) := by
  cases arm with
  | none => simp [foldArm]
  | some arm => cases arm; simp [foldArm, foldSetOperation, SetOperation.map]

/-- A statement is folded by folding its nested statements first. -/
@[simp] theorem fold_node (clauses : Clauses Select) :
    fold step (.node clauses) = step (clauses.map (fold step)) := by
  cases clauses
  simp [fold, foldClauses, Clauses.map, foldWith_eq_map, foldItems_eq_map, foldJoins_eq_map,
    foldArm_eq_map]

end Fold

def sql : Select → String := fold Clauses.sql

/-- Equality of values: numbers are compared by value, and named windows in whatever order. -/
def sameValue : Select → Select → Bool :=
  fold fun clauses other => clauses.sameBy (fun same s => same s) other.clauses

end Select

def FromItem.text (i : FromItem Select) : String := (i.map Select.sql).sql

def Join.text (j : Join Select) : String := (j.map Select.sql).sql

def Cte.text (c : Cte Select) : String := (c.map Select.sql).sql

def WithClause.text (w : WithClause Select) : String := (w.map Select.sql).sql

end QueryForge
