import QueryForge.AlterTable
import QueryForge.Proofs.Names

/-!
# Numbers

The floating-point numbers of a value. Finite ones have a token of their own, both in the text of a
statement and in its document; an infinity is written like a name, and in a document it is lost.
-/

namespace QueryForge

namespace Literal

/-- The number of a literal, if it is a floating-point one. -/
def numbers : Literal → List Double
  | .number x => [x]
  | .null | .integer _ | .boolean _ | .text _ | .typed .. => []

def IsFinite (v : Literal) : Prop := ∀ x ∈ v.numbers, x.IsFinite

end Literal

namespace ExprNode

variable {E F : Type}

def ownNumbers : ExprNode E → List Double
  | .literal value => value.numbers
  | .column .. | .unary .. | .test .. | .binary .. | .cast .. | .call .. | .window _ => []

theorem ownNumbers_map (f : E → F) (n : ExprNode E) : (n.map f).ownNumbers = n.ownNumbers := by
  cases n <;> rfl

end ExprNode

namespace Expr

/-- All numbers of an expression. -/
def numbers : Expr → List Double := fold fun node => node.ownNumbers ++ node.operands.flatten

theorem numbers_node (content : ExprNode Expr) :
    (Expr.node content).numbers = content.ownNumbers ++ content.operands.flatMap numbers := by
  unfold numbers
  rw [fold_node, ExprNode.ownNumbers_map, ExprNode.operands_map, List.flatMap_def]

/-- All numbers are finite. -/
def IsFinite (e : Expr) : Prop := ∀ x ∈ e.numbers, x.IsFinite

instance (e : Expr) : Decidable e.IsFinite :=
  inferInstanceAs (Decidable (∀ x ∈ e.numbers, x.IsFinite))

theorem isFinite_node {content : ExprNode Expr} :
    (Expr.node content).IsFinite ↔
      (∀ x ∈ content.ownNumbers, x.IsFinite) ∧ ∀ e ∈ content.operands, e.IsFinite := by
  unfold IsFinite
  rw [numbers_node]
  simp only [List.forall_mem_append, List.forall_mem_flatMap]

end Expr

namespace Select

/-- All numbers of a statement, those of the statements inside included. -/
def numbers : Select → List Double :=
  fold fun clauses => clauses.expressions.flatMap Expr.numbers ++ clauses.nested.flatten

theorem numbers_node (c : Clauses Select) :
    (Select.node c).numbers = c.expressions.flatMap Expr.numbers ++ c.nested.flatMap numbers := by
  unfold numbers
  rw [fold_node, Clauses.expressions_map, Clauses.nested_map, ← List.flatMap_def]

def IsFinite (s : Select) : Prop := ∀ x ∈ s.numbers, x.IsFinite

instance (s : Select) : Decidable s.IsFinite :=
  inferInstanceAs (Decidable (∀ x ∈ s.numbers, x.IsFinite))

theorem isFinite_node {c : Clauses Select} :
    (Select.node c).IsFinite ↔ (∀ e ∈ c.expressions, e.IsFinite) ∧ ∀ q ∈ c.nested, q.IsFinite := by
  unfold IsFinite
  rw [numbers_node]
  simp only [List.forall_mem_append, List.forall_mem_flatMap, Expr.IsFinite]

end Select

def AlterAction.IsFinite : AlterAction → Prop
  | .setAttributeOption _ distinctValues => distinctValues.IsFinite
  | _ => True

def AlterTable.IsFinite (a : AlterTable) : Prop := ∀ f ∈ a.fragments, f.action.IsFinite

end QueryForge
