import QueryForge.Proofs.Literal
import QueryForge.Scope

/-!
# The grammar of random predicates

A random predicate over a scope is a tree of connectives over tests and comparisons of columns in
scope. Only an empty scope gives a constant.
-/

namespace QueryForge.Predicate

open Draw

variable {nan : Prop}

inductive Leaf (scope : List ScopeColumn) : Expr → Prop
  | constant {value : Bool} (empty : scope = []) : Leaf scope (.literal (.boolean value))
  | nullTest {c : ScopeColumn} {operator : TestOperator} (mem : c ∈ scope)
      (test : operator = .isNull ∨ operator = .isNotNull) : Leaf scope (.test c.expr operator)
  | truthTest {c : ScopeColumn} {operator : TestOperator} (mem : c ∈ scope)
      (type : c.type = .boolean) (test : operator = .isTrue ∨ operator = .isNotTrue) :
      Leaf scope (.test c.expr operator)
  | columns {c d : ScopeColumn} {operator : BinaryOperator} (left : c ∈ scope) (right : d ∈ scope)
      (other : d ≠ c) (type : d.type = c.type) (comparison : operator ∈ c.type.comparisons) :
      Leaf scope (.binary c.expr operator d.expr)
  | literal {c : ScopeColumn} {operator : BinaryOperator} {value : Literal} (mem : c ∈ scope)
      (comparison : operator ∈ c.type.comparisons) (drawn : value.Drawn c.type) :
      Leaf scope (.binary c.expr operator (.literal value))

/-- Predicates over a scope with at most so many connectives inside each other. -/
inductive Over (scope : List ScopeColumn) : Nat → Expr → Prop
  | leaf {depth : Nat} {e : Expr} : Leaf scope e → Over scope depth e
  | and {depth : Nat} {left right : Expr} : Over scope depth left → Over scope depth right →
      Over scope (depth + 1) (left.and right)
  | or {depth : Nat} {left right : Expr} : Over scope depth left → Over scope depth right →
      Over scope (depth + 1) (left.or right)
  | not {depth : Nat} {operand : Expr} : Over scope depth operand →
      Over scope (depth + 1) operand.not

variable {scope : List ScopeColumn} {target : ScopeColumn}

/-- The right side of a comparison with a column. -/
def Operand (scope : List ScopeColumn) (target : ScopeColumn) (e : Expr) : Prop :=
  (∃ c ∈ scope, c ≠ target ∧ c.type = target.type ∧ e = c.expr) ∨
    ∃ value : Literal, value.Drawn target.type ∧ e = .literal value

theorem randomOperand_ensures (scope : List ScopeColumn) (target : ScopeColumn) :
    (randomOperand scope target).Ensures nan (Operand scope target) := by
  have literal : (Literal.random target.type).Ensures nan fun v =>
      Operand scope target (.literal v) :=
    (Literal.random_ensures _).mono fun v hv => .inr ⟨v, hv, rfl⟩
  unfold randomOperand
  dsimp only
  split
  · exact literal.bind fun v hv => .pure hv
  · next same =>
    refine (chance_ensures (.inl (by decide +kernel))).bind fun column _ => ?_
    cases column with
    | false => exact literal.bind fun v hv => .pure hv
    | true =>
      refine (pick_ensures same).bind fun c hc => .pure ?_
      obtain ⟨mem, keep⟩ := List.mem_filter.1 hc
      rw [Bool.and_eq_true, beq_iff_eq, bne_iff_ne] at keep
      exact .inl ⟨c, mem, keep.2, keep.1, rfl⟩

theorem randomComparison_ensures (mem : target ∈ scope) :
    (randomComparison scope target).Ensures nan (Leaf scope) := by
  refine (pick_ensures _).bind fun operator comparison => ?_
  refine (randomOperand_ensures scope target).bind fun operand h => .pure ?_
  obtain ⟨c, right, other, type, rfl⟩ | ⟨value, drawn, rfl⟩ := h
  · exact .columns mem right other type comparison
  · exact .literal mem comparison drawn

theorem randomTest_ensures {first second : TestOperator} {P : Expr → Prop}
    (h : ∀ operator, operator = first ∨ operator = second → P (.test target.expr operator)) :
    (randomTest target first second).Ensures nan P := by
  refine (chance_ensures Draw.even_isChance).bind fun one _ => .pure ?_
  cases one with
  | true => exact h first (.inl rfl)
  | false => exact h second (.inr rfl)

theorem randomLeaf_ensures (scope : List ScopeColumn) :
    (randomLeaf scope).Ensures nan (Leaf scope) := by
  unfold randomLeaf
  split
  · next empty =>
    exact (chance_ensures Draw.even_isChance).bind fun value _ => .pure (.constant empty)
  · next h =>
    refine (pick_ensures h).bind fun target mem => ?_
    refine (within_ensures (by decide)).bind fun branch _ => ?_
    split
    · exact randomTest_ensures fun operator test => .nullTest mem test
    · split
      · next branch => exact randomTest_ensures fun operator test => .truthTest mem branch.2 test
      · exact randomComparison_ensures mem

theorem random_ensures (scope : List ScopeColumn) (depth : Nat) :
    (random scope depth).Ensures nan (Over scope depth) := by
  induction depth with
  | zero => exact (randomLeaf_ensures scope).mono fun _ h => .leaf h
  | succ depth ih =>
    refine (chance_ensures (.inl (by decide +kernel))).bind fun leaf _ => ?_
    cases leaf with
    | true => exact (randomLeaf_ensures scope).mono fun _ h => .leaf h
    | false =>
      refine (within_ensures (by decide)).bind fun branch _ => ?_
      split
      · exact ih.bind fun left hl => ih.bind fun right hr => .pure (.and hl hr)
      · split
        · exact ih.bind fun left hl => ih.bind fun right hr => .pure (.or hl hr)
        · exact ih.bind fun operand h => .pure (.not h)

end QueryForge.Predicate
