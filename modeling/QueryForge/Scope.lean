import QueryForge.Expr
import QueryForge.Literal.Random

/-!
# Columns in scope and predicates over them

A scope lists the columns that an expression may refer to. A random predicate is a tree of AND, OR
and NOT over tests and comparisons of columns in scope.
-/

namespace QueryForge

/-- A column together with the name of the FROM item that provides it. -/
structure ScopeColumn where
  source : String
  column : Column
deriving DecidableEq, Repr

namespace ScopeColumn

def expr (c : ScopeColumn) : Expr := .qualifiedColumn c.source c.column.name

def type (c : ScopeColumn) : ColumnType := c.column.type

def isOrderable (c : ScopeColumn) : Bool := c.type.isOrderable

end ScopeColumn

/-- The comparisons that a type has. -/
def ColumnType.comparisons (t : ColumnType) : List BinaryOperator :=
  (BinaryOperator.all.filter BinaryOperator.isComparison).filter fun op =>
    t.isOrderable || op.comparesEquality

theorem ColumnType.comparisons_ne_nil (t : ColumnType) : t.comparisons ≠ [] := by
  cases t <;> decide

namespace Predicate

open Draw

/-- The right side of a comparison: another column of the same type, or a literal of that type. -/
def randomOperand (scope : List ScopeColumn) (target : ScopeColumn) : Draw Expr := do
  let same := scope.filter fun c => c.type == target.type && c != target
  if h : same = [] then
    return .literal (← Literal.random target.type)
  else if ← chance (.ofFraction 3 10) then
    return (← pick same h).expr
  else
    return .literal (← Literal.random target.type)

def randomComparison (scope : List ScopeColumn) (target : ScopeColumn) : Draw Expr := do
  let operator ← pick target.type.comparisons target.type.comparisons_ne_nil
  let operand ← randomOperand scope target
  return .binary target.expr operator operand

/-- One of two tests of a column. -/
def randomTest (target : ScopeColumn) (first second : TestOperator) : Draw Expr := do
  return .test target.expr (if ← chance Literal.even then first else second)

/-- A test for NULL, a test of a truth value if the column has one, or a comparison. -/
def randomLeaf (scope : List ScopeColumn) : Draw Expr :=
  if h : scope = [] then do
    return .literal (.boolean (← chance Literal.even))
  else do
    let target ← pick scope h
    let branch ← within 0 2
    if branch = 0 then randomTest target .isNull .isNotNull
    else if branch = 1 ∧ target.type = .boolean then randomTest target .isTrue .isNotTrue
    else randomComparison scope target

/-- A predicate with at most `depth` connectives inside each other. -/
def random (scope : List ScopeColumn) : (depth : Nat) → Draw Expr
  | 0 => randomLeaf scope
  | depth + 1 => do
    if ← chance (.ofFraction 6 10) then randomLeaf scope
    else
      let branch ← within 0 2
      if branch = 0 then
        let left ← random scope depth
        let right ← random scope depth
        return left.and right
      else if branch = 1 then
        let left ← random scope depth
        let right ← random scope depth
        return left.or right
      else
        return (← random scope depth).not

end Predicate
end QueryForge
