import QueryForge.Literal
import QueryForge.Window

/-!
# Expressions

An expression is a node whose operands are expressions. What is computed bottom-up is stated for
one node and carried through by `Expr.fold`. SQL puts every operand of an operator into
parentheses of its own, so no reader has to know precedences.
-/

namespace QueryForge

inductive UnaryOperator where
  | not
  | minus
deriving DecidableEq, Repr

/-- The operators behind their operand. -/
inductive TestOperator where
  | isNull
  | isNotNull
  | isTrue
  | isNotTrue
deriving DecidableEq, Repr

inductive BinaryOperator where
  | equals
  | notEquals
  | less
  | lessEquals
  | greater
  | greaterEquals
  | isDistinctFrom
  | and
  | or
deriving DecidableEq, Repr

/-- One expression over operands of type `E`. -/
inductive ExprNode (E : Type) where
  | column (table : Option String) (name : String)
  | literal (value : Literal)
  | unary (operator : UnaryOperator) (operand : E)
  | test (operand : E) (operator : TestOperator)
  | binary (left : E) (operator : BinaryOperator) (right : E)
  | cast (operand : E) (type : ColumnType)
  | call (name : String) (arguments : List E)
  | window (function : WindowFunction E)
deriving DecidableEq, Repr

inductive Expr where
  | node (content : ExprNode Expr)

namespace UnaryOperator

def sql : UnaryOperator → String
  | .not => "NOT"
  | .minus => "-"

end UnaryOperator

namespace TestOperator

def sql : TestOperator → String
  | .isNull => "IS NULL"
  | .isNotNull => "IS NOT NULL"
  | .isTrue => "IS TRUE"
  | .isNotTrue => "IS NOT TRUE"

end TestOperator

namespace BinaryOperator

def all : List BinaryOperator :=
  [.equals, .notEquals, .less, .lessEquals, .greater, .greaterEquals, .isDistinctFrom, .and, .or]

def sql : BinaryOperator → String
  | .equals => "="
  | .notEquals => "<>"
  | .less => "<"
  | .lessEquals => "<="
  | .greater => ">"
  | .greaterEquals => ">="
  | .isDistinctFrom => "IS DISTINCT FROM"
  | .and => "AND"
  | .or => "OR"

def isComparison : BinaryOperator → Bool
  | .and | .or => false
  | _ => true

/-- The comparisons that ask for equality alone, which every type has. -/
def comparesEquality : BinaryOperator → Bool
  | .equals | .notEquals | .isDistinctFrom => true
  | _ => false

end BinaryOperator

namespace ExprNode

variable {E F : Type}

def map (f : E → F) : ExprNode E → ExprNode F
  | .column table name => .column table name
  | .literal value => .literal value
  | .unary operator operand => .unary operator (f operand)
  | .test operand operator => .test (f operand) operator
  | .binary left operator right => .binary (f left) operator (f right)
  | .cast operand type => .cast (f operand) type
  | .call name arguments => .call name (arguments.map f)
  | .window function => .window (function.map f)

def operands : ExprNode E → List E
  | .column .. => []
  | .literal _ => []
  | .unary _ operand => [operand]
  | .test operand _ => [operand]
  | .binary left _ right => [left, right]
  | .cast operand _ => [operand]
  | .call _ arguments => arguments
  | .window function => function.operands

/-- The text of a node whose operands are texts already. -/
def sql : ExprNode String → String
  | .column (some table) name => table ++ "." ++ name
  | .column none name => name
  | .literal value => value.sql
  | .unary operator operand => "(" ++ operator.sql ++ " " ++ operand ++ ")"
  | .test operand operator => "((" ++ operand ++ ") " ++ operator.sql ++ ")"
  | .binary left operator right =>
    "((" ++ left ++ ") " ++ operator.sql ++ " (" ++ right ++ "))"
  | .cast operand type => "CAST((" ++ operand ++ ") AS " ++ type.sql ++ ")"
  | .call name arguments => name ++ "(" ++ Sql.commaSeparated arguments ++ ")"
  | .window function => function.sql

def sameBy (same : E → F → Bool) : ExprNode E → ExprNode F → Bool
  | .column t n, .column t' n' => t == t' && n == n'
  | .literal v, .literal v' => v.sameValue v'
  | .unary o a, .unary o' a' => o == o' && same a a'
  | .test a o, .test a' o' => same a a' && o == o'
  | .binary a o b, .binary a' o' b' => same a a' && o == o' && same b b'
  | .cast a t, .cast a' t' => same a a' && t == t'
  | .call n as, .call n' as' => n == n' && sameItems same as as'
  | .window f, .window f' => f.sameBy same f'
  | _, _ => false

end ExprNode

namespace Expr

def content : Expr → ExprNode Expr
  | .node content => content

def column (name : String) : Expr := .node (.column none name)

def qualifiedColumn (table name : String) : Expr := .node (.column (some table) name)

def literal (value : Literal) : Expr := .node (.literal value)

def truth : Expr := literal (.boolean true)

def binary (left : Expr) (operator : BinaryOperator) (right : Expr) : Expr :=
  .node (.binary left operator right)

def test (operand : Expr) (operator : TestOperator) : Expr := .node (.test operand operator)

def not (operand : Expr) : Expr := .node (.unary .not operand)

def and (left right : Expr) : Expr := binary left .and right

def or (left right : Expr) : Expr := binary left .or right

def isWindowFunction : Expr → Bool
  | .node (.window _) => true
  | _ => false

section Fold

variable {ρ : Type} (step : ExprNode ρ → ρ)

mutual

/-- The value of an expression, computed bottom-up from its nodes. -/
def fold : Expr → ρ
  | .node content => step (foldNode content)

def foldNode : ExprNode Expr → ExprNode ρ
  | .column table name => .column table name
  | .literal value => .literal value
  | .unary operator operand => .unary operator (fold operand)
  | .test operand operator => .test (fold operand) operator
  | .binary left operator right => .binary (fold left) operator (fold right)
  | .cast operand type => .cast (fold operand) type
  | .call name arguments => .call name (foldList arguments)
  | .window function => .window (foldFunction function)

def foldList : List Expr → List ρ
  | [] => []
  | e :: rest => fold e :: foldList rest

def foldOption : Option Expr → Option ρ
  | none => none
  | some e => some (fold e)

def foldFunction : WindowFunction Expr → WindowFunction ρ
  | ⟨kind, argument, window⟩ => ⟨kind, foldOption argument, foldReference window⟩

def foldReference : WindowReference Expr → WindowReference ρ
  | .named name => .named name
  | .inline definition => .inline (foldDefinition definition)

def foldDefinition : WindowDefinition Expr → WindowDefinition ρ
  | ⟨partitionBy, orderBy, frame⟩ => ⟨foldList partitionBy, foldTerms orderBy, frame⟩

def foldTerms : List (OrderTerm Expr) → List (OrderTerm ρ)
  | [] => []
  | t :: rest => foldTerm t :: foldTerms rest

def foldTerm : OrderTerm Expr → OrderTerm ρ
  | ⟨expr, order, nulls⟩ => ⟨fold expr, order, nulls⟩

end

theorem foldList_eq_map (es : List Expr) : foldList step es = es.map (fold step) := by
  induction es with
  | nil => simp [foldList]
  | cons e rest ih => simp [foldList, ih]

theorem foldTerms_eq_map (ts : List (OrderTerm Expr)) :
    foldTerms step ts = ts.map (OrderTerm.map (fold step)) := by
  induction ts with
  | nil => simp [foldTerms]
  | cons t rest ih =>
    obtain ⟨expr, order, nulls⟩ := t
    simp [foldTerms, foldTerm, OrderTerm.map, ih]

theorem foldDefinition_eq_map (d : WindowDefinition Expr) :
    foldDefinition step d = d.map (fold step) := by
  obtain ⟨partitionBy, orderBy, frame⟩ := d
  simp [foldDefinition, WindowDefinition.map, foldList_eq_map, foldTerms_eq_map]

theorem foldFunction_eq_map (w : WindowFunction Expr) :
    foldFunction step w = w.map (fold step) := by
  obtain ⟨kind, argument, window⟩ := w
  cases argument <;> cases window <;>
    simp [foldFunction, foldOption, foldReference, foldDefinition_eq_map, WindowFunction.map,
      WindowReference.map]

/-- A node is folded by folding its operands first. -/
@[simp] theorem fold_node (content : ExprNode Expr) :
    fold step (.node content) = step (content.map (fold step)) := by
  cases content <;>
    simp [fold, foldNode, ExprNode.map, foldList_eq_map, foldFunction_eq_map]

end Fold

def sql : Expr → String := fold ExprNode.sql

/-- Equality of values: numbers are compared by value, all else as it is. -/
def sameValue : Expr → Expr → Bool :=
  fold fun content other => content.sameBy (fun same e => same e) other.content

end Expr

def OrderTerm.ofExpr (e : Expr) : OrderTerm Expr := { expr := e }

def OrderTerm.text (t : OrderTerm Expr) : String := (t.map Expr.sql).sql

def WindowDefinition.text (d : WindowDefinition Expr) : String := (d.map Expr.sql).sql

def WindowFunction.text (w : WindowFunction Expr) : String := (w.map Expr.sql).sql

end QueryForge
