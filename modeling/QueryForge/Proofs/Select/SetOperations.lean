import QueryForge.Draw.Sources
import QueryForge.Proofs.Draw.Answers
import QueryForge.Proofs.Names
import QueryForge.Proofs.Options
import QueryForge.Proofs.Select.Chain
import QueryForge.Proofs.Select.WindowUse

/-!
# Random set operations

Whether a second statement follows is drawn early, and rules out the clauses that cannot stand in
front of an operator. The second statement is put together from the clauses of the first that decide
which columns it has, and these bring the windows along that they refer to.
-/

namespace QueryForge

variable {nan : Prop}

namespace ExprNode

variable {E F : Type}

def ownWindowNames : ExprNode E → List String
  | .window function => function.window.names
  | .column .. | .literal _ | .unary .. | .test .. | .binary .. | .cast .. | .call .. => []

theorem ownWindowNames_map (f : E → F) (n : ExprNode E) :
    (n.map f).ownWindowNames = n.ownWindowNames := by
  cases n with
  | window function =>
    obtain ⟨kind, argument, window⟩ := function
    cases window <;> rfl
  | column | literal | unary | test | binary | cast | call => rfl

end ExprNode

namespace Expr

/-- The windows that an expression refers to by name. -/
def windowNames : Expr → List String :=
  fold fun node => node.ownWindowNames ++ node.operands.flatten

theorem windowNames_node (content : ExprNode Expr) :
    (Expr.node content).windowNames =
      content.ownWindowNames ++ content.operands.flatMap windowNames := by
  unfold windowNames
  rw [fold_node, ExprNode.ownWindowNames_map, ExprNode.operands_map, List.flatMap_def]

@[simp] theorem windowNames_qualifiedColumn (table name : String) :
    (qualifiedColumn table name).windowNames = [] := by
  rw [qualifiedColumn, windowNames_node]
  rfl

@[simp] theorem windowNames_literal (value : Literal) : (literal value).windowNames = [] := by
  rw [literal, windowNames_node]
  rfl

@[simp] theorem windowNames_binary (left : Expr) (operator : BinaryOperator) (right : Expr) :
    (binary left operator right).windowNames = left.windowNames ++ right.windowNames := by
  rw [binary, windowNames_node]
  simp [ExprNode.ownWindowNames, ExprNode.operands]

@[simp] theorem windowNames_test (operand : Expr) (operator : TestOperator) :
    (test operand operator).windowNames = operand.windowNames := by
  rw [test, windowNames_node]
  simp [ExprNode.ownWindowNames, ExprNode.operands]

@[simp] theorem windowNames_not (operand : Expr) :
    operand.not.windowNames = operand.windowNames := by
  rw [not, windowNames_node]
  simp [ExprNode.ownWindowNames, ExprNode.operands]

end Expr

@[simp] theorem ScopeColumn.windowNames_expr (c : ScopeColumn) : c.expr.windowNames = [] :=
  Expr.windowNames_qualifiedColumn ..

/-- The windows that the clauses refer to by name. -/
def Clauses.windowNames {Q : Type} (c : Clauses Q) : List String :=
  c.windowFunctions.flatMap (fun f => f.window.names) ++ c.expressions.flatMap Expr.windowNames

section

variable {scope : List ScopeColumn} {depth : Nat} {e : Expr}

theorem Predicate.Leaf.windowNames (h : Leaf scope e) : e.windowNames = [] := by
  cases h <;> simp

theorem Predicate.Over.windowNames (h : Over scope depth e) : e.windowNames = [] := by
  induction h with
  | leaf h => exact h.windowNames
  | and _ _ left right => rw [Expr.and, Expr.windowNames_binary, left, right, List.append_nil]
  | or _ _ left right => rw [Expr.or, Expr.windowNames_binary, left, right, List.append_nil]
  | not _ operand => rw [Expr.windowNames_not, operand]

/-- Random expressions have no windows. -/
theorem Expr.Drawn.windowNames (h : e.Drawn scope depth) : e.windowNames = [] := by
  cases h with
  | column mem => exact ScopeColumn.windowNames_expr _
  | predicate grown => exact grown.windowNames

end

variable {tables : List Table} {o : QueryOptions} {table : Table}

/-- An operator can combine the statements: neither has a clause that must come last of all, the
second one shows the same columns of the same sources, and it has all windows that it refers to. -/
structure Clauses.Combinable (first second : Clauses Select) : Prop where
  continued : first.Continuable
  continuable : second.Continuable
  withClause : second.withClause = none
  option : second.modifier.option = .all
  groupBy : second.groupBy = []
  having : second.having = none
  columns : second.columns = first.columns
  windowFunctions : second.windowFunctions = first.windowFunctions
  fromItems : second.fromItems = first.fromItems
  joins : second.joins = first.joins
  windows : second.windows = first.windows
  columnCount : ∃ count, first.columnCount = some count ∧ second.columnCount = some count
  defined : ∀ name ∈ second.windowNames, name ∈ second.windows.names

namespace SelectChoices

variable {c : SelectChoices} {operator : SetOperator} {filter : Option Expr}

theorem chain_statement (arm : c.arm = some (operator, filter)) :
    c.statement.chain = [c.clauses.alone, c.armClauses filter] := by
  have next : c.clauses.setOperation = some ⟨operator, .node (c.armClauses filter)⟩ := by
    unfold clauses
    rw [arm]
    rfl
  rw [statement, Select.chain_of_eq_some next, Select.chain_of_eq_none rfl]
  rfl

namespace Permitted

/-- The lock is drawn after the arm is decided on. -/
theorem lock_eq_none (h : c.Permitted tables o table) (set : c.origin.setOperation = true) :
    c.lock = none := by
  cases hl : c.lock with
  | none => rfl
  | some clause => exact nomatch set.symm.trans (h.lock clause hl).setOperation

theorem continuable (h : c.Permitted tables o table) (set : c.origin.setOperation = true) :
    c.clauses.Continuable := by
  obtain ⟨orderBy, limit, offset⟩ := h.unordered set
  refine ⟨orderBy, limit, offset, ?_⟩
  change c.modifier.lockingClause = none
  unfold modifier
  rw [h.lock_eq_none set]
  cases c.distinct <;> rfl

theorem defined_armClauses (h : c.Permitted tables o table)
    (arm : c.arm = some (operator, filter)) :
    ∀ name ∈ (c.armClauses filter).windowNames, name ∈ (c.armClauses filter).windows.names := by
  intro name hn
  rcases List.mem_append.1 hn with hn | hn
  · obtain ⟨f, hf, hn⟩ := List.mem_flatMap.1 hn
    exact h.shape.defined f hf name hn
  · obtain ⟨e, he, hn⟩ := List.mem_flatMap.1 hn
    rw [(h.armClauses_drawn arm e he).windowNames] at hn
    exact nomatch hn

theorem combinable (h : c.Permitted tables o table) (arm : c.arm = some (operator, filter)) :
    c.clauses.alone.Combinable (c.armClauses filter) where
  continued := by
    have set : c.origin.setOperation = true := by rw [← h.arm, arm]; rfl
    exact Clauses.continuable_alone.2 (h.continuable set)
  continuable := ⟨rfl, rfl, rfl, rfl⟩
  withClause := rfl
  option := rfl
  groupBy := rfl
  having := rfl
  columns := rfl
  windowFunctions := rfl
  fromItems := rfl
  joins := rfl
  windows := rfl
  columnCount := ⟨c.projected.length + c.shape.windowFunctions.length,
    Clauses.columnCount_of_ofScope rfl, Clauses.columnCount_of_ofScope rfl⟩
  defined := h.defined_armClauses arm

end Permitted
end SelectChoices

namespace Select

/-- With checked options, a random statement with a set operation is a chain of two statements that
can be combined. -/
theorem generation_arms_combinable {o : Options} (checked : o.check = .ok ()) (schema : Schema) :
    (Select.random schema.tables o.query).Ensures o.query.HasNaN fun s =>
      s.hasSetOperation → ∃ first second, s.chain = [first, second] ∧ first.Combinable second := by
  have range := (Options.check_eq_ok_iff.1 checked).1
  refine (Select.random_ensures range schema.tables).mono ?_
  rintro s (⟨-, value, -, rfl⟩ | ⟨table, -, c, permitted, rfl⟩)
  · intro more
    exact nomatch more
  · intro more
    cases arm : c.arm with
    | none =>
      have none : c.statement.clauses.setOperation = none := congrArg (Option.map _) arm
      rw [hasSetOperation, none] at more
      exact nomatch more
    | some drawn =>
      obtain ⟨operator, filter⟩ := drawn
      exact ⟨_, _, SelectChoices.chain_statement arm, permitted.combinable arm⟩

/-- What a second statement rules out is wanted as often as the second statement. -/
def distinctArms : Options where
  query :=
    { withChance := .ofNat 0, joinChance := .ofNat 0, filterChance := .ofNat 0,
      distinctChance := .ofNat 1, distinctOnChance := .ofNat 1, windowChance := .ofNat 1,
      namedWindowChance := .ofNat 1, orderByChance := .ofNat 1, limitChance := .ofNat 1,
      setOperationChance := .ofNat 1 }

def distinctArmsText : String :=
  "SELECT DISTINCT ON (t.a) t.a, DENSE_RANK() OVER w0 FROM t WINDOW w0 AS (ORDER BY t.a) " ++
    "EXCEPT SELECT t.a, DENSE_RANK() OVER w0 FROM t WINDOW w0 AS (ORDER BY t.a)"

theorem distinctArms_combinable :
    distinctArms.check = .ok () ∧ ∃ (s : Select) (first second : Clauses Select),
      s.hasSetOperation ∧ s.sql = distinctArmsText ∧ s.chain = [first, second] ∧
        first.Combinable second := by
  have checked : distinctArms.check = .ok () := by decide +kernel
  let schema : Schema := ⟨[{ name := "t", columns := [{ name := "a", type := .int }] }]⟩
  have run : ((Select.random schema.tables distinctArms.query).run.run Scripted.source
      ⟨[], 3⟩).1.toOption.map (fun s => (s.hasSetOperation, s.sql)) =
        some (true, distinctArmsText) := by decide +kernel
  have combinable := generation_arms_combinable checked schema
  obtain ⟨s, summary, arms⟩ := Building.Ensures.exists_of_run combinable run
  obtain ⟨more, text⟩ := Prod.mk.inj summary
  obtain ⟨first, second, chain, paired⟩ := arms more
  exact ⟨checked, s, first, second, more, text, chain, paired⟩

end Select
end QueryForge
