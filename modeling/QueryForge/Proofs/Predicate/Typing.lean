import QueryForge.Proofs.References

/-!
# Random predicates are well-typed

A type system for expressions over columns in scope, in which only types with an ordering are
compared by size. Random predicates are boolean in it. Their connectives are counted, and what
stands below the connectives is a test, a comparison or a constant.
-/

namespace QueryForge

variable {nan : Prop}

/-- NULL has every type, and a number is of any type with fractions. -/
def Literal.hasType (type : ColumnType) : Literal → Bool
  | .null => true
  | .integer _ => type == .int
  | .boolean _ => type == .boolean
  | .text _ => type == .text
  | .number _ => type == .decimal || type == .float || type == .real
  | .typed _ own => type == own

/-- A reference has the type of a column in scope that it names. There is no rule for calls and
window functions. -/
inductive Expr.HasType (scope : List ScopeColumn) : Expr → ColumnType → Prop
  | column {c : ScopeColumn} (mem : c ∈ scope) : HasType scope c.expr c.type
  | literal {value : Literal} {type : ColumnType} (own : value.hasType type) :
      HasType scope (.literal value) type
  | minus {operand : Expr} {type : ColumnType} (typed : HasType scope operand type)
      (numeric : type.isNumeric) : HasType scope (.node (.unary .minus operand)) type
  | cast {operand : Expr} {type target : ColumnType} (typed : HasType scope operand type) :
      HasType scope (.node (.cast operand target)) target
  | nullTest {operand : Expr} {type : ColumnType} {operator : TestOperator}
      (typed : HasType scope operand type) (test : operator = .isNull ∨ operator = .isNotNull) :
      HasType scope (.test operand operator) .boolean
  | truthTest {operand : Expr} {operator : TestOperator} (typed : HasType scope operand .boolean)
      (test : operator = .isTrue ∨ operator = .isNotTrue) :
      HasType scope (.test operand operator) .boolean
  | comparison {left right : Expr} {type : ColumnType} {operator : BinaryOperator}
      (compares : operator.isComparison) (ordered : type.isOrderable ∨ operator.comparesEquality)
      (lefts : HasType scope left type) (rights : HasType scope right type) :
      HasType scope (.binary left operator right) .boolean
  | connective {left right : Expr} {operator : BinaryOperator}
      (connects : operator = .and ∨ operator = .or) (lefts : HasType scope left .boolean)
      (rights : HasType scope right .boolean) : HasType scope (.binary left operator right) .boolean
  | not {operand : Expr} (typed : HasType scope operand .boolean) :
      HasType scope operand.not .boolean

theorem BinaryOperator.mem_all (operator : BinaryOperator) : operator ∈ all := by
  cases operator <;> decide

theorem ColumnType.mem_comparisons {type : ColumnType} {operator : BinaryOperator} :
    operator ∈ type.comparisons ↔
      operator.isComparison ∧ (type.isOrderable ∨ operator.comparesEquality) := by
  unfold comparisons
  rw [List.mem_filter, List.mem_filter, Bool.or_eq_true]
  constructor
  · rintro ⟨⟨-, compares⟩, ordered⟩
    exact ⟨compares, ordered⟩
  · rintro ⟨compares, ordered⟩
    exact ⟨⟨operator.mem_all, compares⟩, ordered⟩

theorem Literal.Drawn.hasType {type : ColumnType} {value : Literal} (h : value.Drawn type) :
    value.hasType type := by
  cases h with
  | number fractional => obtain rfl | rfl | rfl := fractional <;> rfl
  | null | integer | boolean | text | range | amount | bits | address => rfl

def ExprNode.isConnective {E : Type} : ExprNode E → Bool
  | .unary .not _ => true
  | .binary _ operator _ => !operator.isComparison
  | .unary .minus _ | .column .. | .literal _ | .test .. | .cast .. | .call .. | .window _ => false

theorem ExprNode.isConnective_map {E F : Type} (f : E → F) (n : ExprNode E) :
    (n.map f).isConnective = n.isConnective := by
  cases n with
  | unary operator => cases operator <;> rfl
  | column | literal | test | binary | cast | call | window => rfl

namespace Expr

/-- How many connectives stand inside each other. -/
def connectives : Expr → Nat :=
  fold fun node => node.operands.foldr max 0 + if node.isConnective then 1 else 0

theorem connectives_node (content : ExprNode Expr) :
    (Expr.node content).connectives =
      (content.operands.map connectives).foldr max 0 + if content.isConnective then 1 else 0 := by
  unfold connectives
  rw [fold_node, ExprNode.isConnective_map, ExprNode.operands_map]

@[simp] theorem connectives_qualifiedColumn (table name : String) :
    (qualifiedColumn table name).connectives = 0 := by
  rw [qualifiedColumn, connectives_node]
  rfl

@[simp] theorem connectives_literal (value : Literal) : (literal value).connectives = 0 := by
  rw [literal, connectives_node]
  rfl

@[simp] theorem connectives_test (operand : Expr) (operator : TestOperator) :
    (test operand operator).connectives = operand.connectives := by
  rw [test, connectives_node]
  simp [ExprNode.operands, ExprNode.isConnective]

@[simp] theorem connectives_binary (left : Expr) (operator : BinaryOperator) (right : Expr) :
    (binary left operator right).connectives =
      max left.connectives right.connectives + if operator.isComparison then 0 else 1 := by
  rw [binary, connectives_node]
  cases h : operator.isComparison <;> simp [ExprNode.operands, ExprNode.isConnective, h]

@[simp] theorem connectives_not (operand : Expr) :
    operand.not.connectives = operand.connectives + 1 := by
  rw [not, connectives_node]
  simp [ExprNode.operands, ExprNode.isConnective]

/-- The parts below the outer connectives. -/
def leaves : Expr → List Expr
  | .node (.binary left .and right) => left.leaves ++ right.leaves
  | .node (.binary left .or right) => left.leaves ++ right.leaves
  | .node (.unary .not operand) => operand.leaves
  | e => [e]

@[simp] theorem leaves_and (left right : Expr) :
    (left.and right).leaves = left.leaves ++ right.leaves := by
  rw [Expr.and, binary, leaves]

@[simp] theorem leaves_or (left right : Expr) :
    (left.or right).leaves = left.leaves ++ right.leaves := by
  rw [Expr.or, binary, leaves]

@[simp] theorem leaves_not (operand : Expr) : operand.not.leaves = operand.leaves := by
  rw [Expr.not, leaves]

theorem leaves_of_isConnective {content : ExprNode Expr} (h : content.isConnective = false) :
    (Expr.node content).leaves = [.node content] := by
  rw [leaves]
  · intro left right same
    rw [node.inj same] at h
    exact nomatch h
  · intro left right same
    rw [node.inj same] at h
    exact nomatch h
  · intro operand same
    rw [node.inj same] at h
    exact nomatch h

end Expr

@[simp] theorem ScopeColumn.connectives_expr (c : ScopeColumn) : c.expr.connectives = 0 :=
  Expr.connectives_qualifiedColumn ..

namespace Predicate

variable {scope : List ScopeColumn} {depth : Nat} {e : Expr}

theorem Leaf.hasType (h : Leaf scope e) : e.HasType scope .boolean := by
  cases h with
  | constant => exact .literal rfl
  | nullTest mem test => exact .nullTest (.column mem) test
  | @truthTest c operator mem type test =>
    have column : c.expr.HasType scope c.type := .column mem
    rw [type] at column
    exact .truthTest column test
  | @columns c d operator left right other type comparison =>
    obtain ⟨compares, ordered⟩ := ColumnType.mem_comparisons.1 comparison
    have column : d.expr.HasType scope d.type := .column right
    rw [type] at column
    exact .comparison compares ordered (.column left) column
  | literal mem comparison drawn =>
    obtain ⟨compares, ordered⟩ := ColumnType.mem_comparisons.1 comparison
    exact .comparison compares ordered (.column mem) (.literal drawn.hasType)

theorem Leaf.connectives_eq (h : Leaf scope e) : e.connectives = 0 := by
  cases h with
  | constant | nullTest | truthTest => simp
  | columns _ _ _ _ comparison => simp [(ColumnType.mem_comparisons.1 comparison).1]
  | literal _ comparison => simp [(ColumnType.mem_comparisons.1 comparison).1]

theorem Leaf.leaves_eq (h : Leaf scope e) : e.leaves = [e] := by
  cases h with
  | constant | nullTest | truthTest => exact Expr.leaves_of_isConnective rfl
  | columns _ _ _ _ comparison =>
    refine Expr.leaves_of_isConnective ?_
    rw [ExprNode.isConnective, (ColumnType.mem_comparisons.1 comparison).1]
    rfl
  | literal _ comparison =>
    refine Expr.leaves_of_isConnective ?_
    rw [ExprNode.isConnective, (ColumnType.mem_comparisons.1 comparison).1]
    rfl

theorem Leaf.isConstant_iff (h : Leaf scope e) :
    (∃ value, e = .literal (.boolean value)) ↔ scope = [] := by
  cases h with
  | constant empty => exact ⟨fun _ => empty, fun _ => ⟨_, rfl⟩⟩
  | nullTest mem | truthTest mem | columns mem | literal mem =>
    constructor
    · rintro ⟨value, same⟩
      exact nomatch same
    · rintro rfl
      exact nomatch mem

theorem Over.hasType (h : Over scope depth e) : e.HasType scope .boolean := by
  induction h with
  | leaf h => exact h.hasType
  | and _ _ left right => exact .connective (.inl rfl) left right
  | or _ _ left right => exact .connective (.inr rfl) left right
  | not _ operand => exact .not operand

theorem Over.connectives_le (h : Over scope depth e) : e.connectives ≤ depth := by
  induction h with
  | leaf h => exact h.connectives_eq ▸ Nat.zero_le _
  | and _ _ left right =>
    rw [Expr.and, Expr.connectives_binary]
    exact Nat.succ_le_succ (Nat.max_le.2 ⟨left, right⟩)
  | or _ _ left right =>
    rw [Expr.or, Expr.connectives_binary]
    exact Nat.succ_le_succ (Nat.max_le.2 ⟨left, right⟩)
  | not _ operand =>
    rw [Expr.connectives_not]
    exact Nat.succ_le_succ operand

theorem Over.leaf_of_mem_leaves (h : Over scope depth e) : ∀ l ∈ e.leaves, Leaf scope l := by
  induction h with
  | leaf h =>
    rw [h.leaves_eq]
    exact List.forall_mem_singleton.2 h
  | and _ _ left right =>
    rw [Expr.leaves_and]
    exact List.forall_mem_append.2 ⟨left, right⟩
  | or _ _ left right =>
    rw [Expr.leaves_or]
    exact List.forall_mem_append.2 ⟨left, right⟩
  | not _ operand =>
    rw [Expr.leaves_not]
    exact operand

/-- A random predicate is boolean and nests no more connectives than it may. Below them there are
tests and comparisons of columns in scope, or constants exactly if the scope is empty, and all
references are to columns in scope. -/
theorem random_hasType (scope : List ScopeColumn) (depth : Nat) :
    (random scope depth).Ensures False fun e =>
      e.connectives ≤ depth ∧ e.HasType scope .boolean ∧
        (∀ l ∈ e.leaves, Leaf scope l ∧
          ((∃ value, l = .literal (.boolean value)) ↔ scope = [])) ∧
        e.Within scope := by
  refine (random_ensures scope depth).mono fun e h => ?_
  refine ⟨h.connectives_le, h.hasType, ?_, h.within⟩
  intro l mem
  have leaf := h.leaf_of_mem_leaves l mem
  exact ⟨leaf, leaf.isConstant_iff⟩

end Predicate
end QueryForge
