import QueryForge.Proofs.Predicate
import QueryForge.Select

/-!
# Column references

The references of an expression, and those of all clauses of a statement apart from its nested
statements.
-/

namespace QueryForge

/-- A column as it is referred to: its name, perhaps behind the name of a FROM item. -/
structure ColumnReference where
  qualifier : Option String
  name : String
deriving DecidableEq, Repr

namespace ExprNode

variable {E F : Type}

def ownReferences : ExprNode E → List ColumnReference
  | .column table name => [⟨table, name⟩]
  | .literal _ | .unary .. | .test .. | .binary .. | .cast .. | .call .. | .window _ => []

theorem ownReferences_map (f : E → F) (n : ExprNode E) :
    (n.map f).ownReferences = n.ownReferences := by
  cases n <;> rfl

theorem operands_map (f : E → F) (n : ExprNode E) : (n.map f).operands = n.operands.map f := by
  cases n with
  | window function =>
    obtain ⟨kind, argument, window⟩ := function
    cases argument <;> cases window <;>
      simp [map, operands, WindowFunction.map, WindowFunction.operands, WindowReference.map,
        WindowReference.operands, WindowDefinition.map, WindowDefinition.operands, OrderTerm.map]
  | column | literal | unary | test | binary | cast | call => rfl

end ExprNode

namespace Expr

/-- All column references, in the order of the text. -/
def references : Expr → List ColumnReference :=
  fold fun node => node.ownReferences ++ node.operands.flatten

theorem references_node (content : ExprNode Expr) :
    (Expr.node content).references =
      content.ownReferences ++ content.operands.flatMap references := by
  unfold references
  rw [fold_node, ExprNode.ownReferences_map, ExprNode.operands_map, List.flatMap_def]

@[simp] theorem references_qualifiedColumn (table name : String) :
    (qualifiedColumn table name).references = [⟨some table, name⟩] := by
  rw [qualifiedColumn, references_node]
  rfl

@[simp] theorem references_literal (value : Literal) : (literal value).references = [] := by
  rw [literal, references_node]
  rfl

@[simp] theorem references_binary (left : Expr) (operator : BinaryOperator) (right : Expr) :
    (binary left operator right).references = left.references ++ right.references := by
  rw [binary, references_node]
  simp [ExprNode.ownReferences, ExprNode.operands]

@[simp] theorem references_test (operand : Expr) (operator : TestOperator) :
    (test operand operator).references = operand.references := by
  rw [test, references_node]
  simp [ExprNode.ownReferences, ExprNode.operands]

@[simp] theorem references_not (operand : Expr) : operand.not.references = operand.references := by
  rw [not, references_node]
  simp [ExprNode.ownReferences, ExprNode.operands]

/-- The expression refers to columns of the scope only. -/
def Within (scope : List ScopeColumn) (e : Expr) : Prop :=
  ∀ r ∈ e.references, ∃ c ∈ scope, r = ⟨some c.source, c.column.name⟩

end Expr

theorem ScopeColumn.expr_within {scope : List ScopeColumn} {c : ScopeColumn} (h : c ∈ scope) :
    c.expr.Within scope := by
  intro r hr
  rw [expr, Expr.references_qualifiedColumn, List.mem_singleton] at hr
  exact ⟨c, h, hr⟩

namespace Predicate

variable {scope : List ScopeColumn} {depth : Nat} {e : Expr}

theorem Leaf.within (h : Leaf scope e) : e.Within scope := by
  cases h with
  | constant => exact fun r hr => by simp at hr
  | nullTest mem => simpa [Expr.Within] using ScopeColumn.expr_within mem
  | truthTest mem => simpa [Expr.Within] using ScopeColumn.expr_within mem
  | columns left right =>
    intro r hr
    rw [Expr.references_binary, List.mem_append] at hr
    exact hr.elim (ScopeColumn.expr_within left r) (ScopeColumn.expr_within right r)
  | literal mem => simpa [Expr.Within] using ScopeColumn.expr_within mem

/-- A predicate over a scope refers to columns of the scope only. -/
theorem Over.within (h : Over scope depth e) : e.Within scope := by
  induction h with
  | leaf h => exact h.within
  | and _ _ left right =>
    intro r hr
    rw [Expr.and, Expr.references_binary, List.mem_append] at hr
    exact hr.elim (left r) (right r)
  | or _ _ left right =>
    intro r hr
    rw [Expr.or, Expr.references_binary, List.mem_append] at hr
    exact hr.elim (left r) (right r)
  | not _ operand =>
    intro r hr
    rw [Expr.references_not] at hr
    exact operand r hr

end Predicate

def ResultColumn.operands : ResultColumn → List Expr
  | .expr value _ => [value]
  | .star => []

/-- The name under which an item's columns are referred to. -/
def FromItem.name {Q : Type} : FromItem Q → String
  | .table name _ asName => asName.getD name
  | .subquery _ asName => asName

namespace Clauses

variable {Q : Type}

/-- All expressions that the clauses are made of, in the order of the text but for DISTINCT ON. -/
def expressions (c : Clauses Q) : List Expr :=
  c.columns.flatMap ResultColumn.operands ++ c.windowFunctions.flatMap WindowFunction.operands ++
    c.modifier.distinctOn.toList ++ c.joins.flatMap (fun j => j.on.toList) ++ c.filter.toList ++
    c.groupBy ++ c.having.toList ++ c.windows.entries.flatMap (fun w => w.2.operands) ++
    c.orderBy.map OrderTerm.expr

theorem forall_expressions_iff {c : Clauses Q} {P : Expr → Prop} :
    (∀ e ∈ c.expressions, P e) ↔ (∀ r ∈ c.columns, ∀ e ∈ r.operands, P e) ∧
      (∀ w ∈ c.windowFunctions, ∀ e ∈ w.operands, P e) ∧
      (∀ e, c.modifier.distinctOn = some e → P e) ∧ (∀ j ∈ c.joins, ∀ e, j.on = some e → P e) ∧
      (∀ e, c.filter = some e → P e) ∧ (∀ e ∈ c.groupBy, P e) ∧ (∀ e, c.having = some e → P e) ∧
      (∀ w ∈ c.windows.entries, ∀ e ∈ w.2.operands, P e) ∧ ∀ t ∈ c.orderBy, P t.expr := by
  simp only [expressions, List.forall_mem_append, List.forall_mem_flatMap, List.forall_mem_map,
    Option.mem_toList, and_assoc]

theorem forall_mem_expressions {P : Expr → Prop} {c : Clauses Q}
    (columns : ∀ column ∈ c.columns, ∀ e ∈ column.operands, P e)
    (windowFunctions : ∀ f ∈ c.windowFunctions, ∀ e ∈ f.operands, P e)
    (distinctOn : ∀ e, c.modifier.distinctOn = some e → P e)
    (joins : ∀ j ∈ c.joins, ∀ e, j.on = some e → P e)
    (filter : ∀ e, c.filter = some e → P e)
    (groupBy : ∀ e ∈ c.groupBy, P e)
    (having : ∀ e, c.having = some e → P e)
    (windows : ∀ w ∈ c.windows.entries, ∀ e ∈ w.2.operands, P e)
    (orderBy : ∀ t ∈ c.orderBy, P t.expr) : ∀ e ∈ c.expressions, P e :=
  forall_expressions_iff.2 ⟨columns, windowFunctions, distinctOn, joins, filter, groupBy, having,
    windows, orderBy⟩

def references (c : Clauses Q) : List ColumnReference := c.expressions.flatMap Expr.references

/-- The items in FROM, then those that are joined. -/
def items (c : Clauses Q) : List (FromItem Q) := c.fromItems ++ c.joins.map Join.item

def itemNames (c : Clauses Q) : List String := c.items.map FromItem.name

end Clauses
end QueryForge
