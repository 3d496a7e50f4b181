import QueryForge.Proofs.Documents.Depth
import QueryForge.Proofs.Documents.Statement
import QueryForge.Proofs.Json.Numerals
import QueryForge.Proofs.Select.Acceptance
import QueryForge.Proofs.Select.Expressions

/-!
# Random statements are replayed

With checked options a random statement is never nested deeper than a reader of text goes, its
numbers are finite, and its windows are named in the order of their names. So it is read back both
from its text and from its sorted document.
-/

namespace QueryForge

open Json

variable {tables : List Table} {o : QueryOptions} {table : Table} {c : SelectChoices} {nan : Prop}

section Depth

variable {scope : List ScopeColumn} {depth : Nat} {e : Expr}

theorem ScopeColumn.depth_dump_le (c : ScopeColumn) : c.expr.dump.depth ≤ 2 :=
  Nat.le_of_eq (Expr.depth_dump_qualifiedColumn c.source c.column.name)

theorem Predicate.Leaf.depth_dump_le (h : Leaf scope e) : e.dump.depth ≤ 5 := by
  cases h with
  | constant => exact Nat.le_trans (Expr.depth_dump_literal_le _) (by decide)
  | @nullTest c operator =>
    exact Nat.le_trans (Expr.depth_dump_test_le c.depth_dump_le operator) (by decide)
  | @truthTest c operator =>
    exact Nat.le_trans (Expr.depth_dump_test_le c.depth_dump_le operator) (by decide)
  | @columns c d operator =>
    exact Nat.le_trans (Expr.depth_dump_binary_le c.depth_dump_le operator d.depth_dump_le)
      (by decide)
  | @literal c operator value =>
    exact Expr.depth_dump_binary_le (Nat.le_succ_of_le c.depth_dump_le) operator
      (Expr.depth_dump_literal_le value)

/-- Every connective takes two levels. -/
theorem Predicate.Over.depth_dump_le (h : Over scope depth e) :
    e.dump.depth ≤ 2 * depth + 5 := by
  induction h with
  | leaf h => exact Nat.le_trans h.depth_dump_le (Nat.le_add_left 5 _)
  | and _ _ left right => exact Expr.depth_dump_binary_le left .and right
  | or _ _ left right => exact Expr.depth_dump_binary_le left .or right
  | not _ operand => exact Expr.depth_dump_not_le operand

theorem Expr.Drawn.depth_dump_le (h : e.Drawn scope depth) : e.dump.depth ≤ 2 * depth + 5 := by
  cases h with
  | column mem => exact Nat.le_trans (ScopeColumn.depth_dump_le _) (by omega)
  | predicate grown => exact grown.depth_dump_le

end Depth

section Numbers

variable {scope : List ScopeColumn} {depth : Nat} {e left right operand : Expr}

theorem Literal.Drawn.isFinite {type : ColumnType} {v : Literal} (h : v.Drawn type) :
    v.IsFinite := by
  cases h with
  | number fractional unit => exact List.forall_mem_singleton.2 trivial
  | null | integer | boolean | text | range | amount | bits | address => exact nofun

theorem ScopeColumn.expr_isFinite (c : ScopeColumn) : c.expr.IsFinite :=
  Expr.isFinite_node.2 ⟨nofun, nofun⟩

theorem Expr.literal_isFinite {v : Literal} (h : v.IsFinite) : (literal v).IsFinite :=
  isFinite_node.2 ⟨h, nofun⟩

theorem Expr.test_isFinite (h : operand.IsFinite) (operator : TestOperator) :
    (test operand operator).IsFinite :=
  isFinite_node.2 ⟨nofun, List.forall_mem_singleton.2 h⟩

theorem Expr.binary_isFinite (first : left.IsFinite) (operator : BinaryOperator)
    (second : right.IsFinite) : (binary left operator right).IsFinite :=
  isFinite_node.2 ⟨nofun, List.forall_mem_cons.2 ⟨first, List.forall_mem_singleton.2 second⟩⟩

theorem Expr.not_isFinite (h : operand.IsFinite) : operand.not.IsFinite :=
  isFinite_node.2 ⟨nofun, List.forall_mem_singleton.2 h⟩

theorem Predicate.Leaf.isFinite (h : Leaf scope e) : e.IsFinite := by
  cases h with
  | constant => exact Expr.literal_isFinite nofun
  | @nullTest c operator => exact Expr.test_isFinite c.expr_isFinite operator
  | @truthTest c operator => exact Expr.test_isFinite c.expr_isFinite operator
  | @columns c d operator => exact Expr.binary_isFinite c.expr_isFinite operator d.expr_isFinite
  | @literal c operator value mem comparison drawn =>
    exact Expr.binary_isFinite c.expr_isFinite operator (Expr.literal_isFinite drawn.isFinite)

theorem Predicate.Over.isFinite (h : Over scope depth e) : e.IsFinite := by
  induction h with
  | leaf h => exact h.isFinite
  | and _ _ left right => exact Expr.binary_isFinite left .and right
  | or _ _ left right => exact Expr.binary_isFinite left .or right
  | not _ operand => exact Expr.not_isFinite operand

theorem Expr.Drawn.isFinite (h : e.Drawn scope depth) : e.IsFinite := by
  cases h with
  | @column c mem => exact c.expr_isFinite
  | predicate grown => exact grown.isFinite

end Numbers
section Windows

variable {scope projected : List ScopeColumn}

/-- One or two drawn windows are registered in the order of their names. -/
theorem SelectShape.Permitted.windows_kept {shape : SelectShape}
    (h : shape.Permitted o scope projected) : Json.Origin.request.Keeps shape.windows.names := by
  cases h with
  | plain => exact .nil
  | grouped => exact .nil
  | @windowed named drawn count amount h =>
    cases named with
    | false => exact .nil
    | true =>
      have names := DrawnWindow.map_name h
      have ordered : ((drawn.map DrawnWindow.entry).map Prod.fst).Pairwise (· < ·) ∧
          ((drawn.map DrawnWindow.entry).map Prod.fst).Nodup := by
        rw [names]
        obtain rfl | rfl : count = 1 ∨ count = 2 := by omega
        · decide
        · decide
      have registered := NamedWindows.entries_putAll (w := .empty) ordered.2
      change (NamedWindows.entries (NamedWindows.empty.putAll _) |>.map Prod.fst).Pairwise (· < ·)
      rw [registered]
      exact ordered.1

end Windows

theorem CteSource.Drawn.windows_eq {index : Nat} {d : CteSource} (h : Drawn tables o index d) :
    d.cte.query.clauses.windows = .empty := by
  cases h
  rfl

namespace SelectChoices.Permitted

theorem keepsWindows (h : c.Permitted tables o table) : c.statement.KeepsWindows .request := by
  refine Select.forall_contains_node.2 ⟨h.shape.windows_kept, h.forall_contains_nested ?_ ?_⟩
  · intro index d drawn
    rw [drawn.windows_eq]
    exact .nil
  · intro operator filter _
    exact h.shape.windows_kept

theorem isFinite (h : c.Permitted tables o table) : c.statement.IsFinite := by
  have lone : ∀ (q : Select) (scope : List ScopeColumn), q.clauses.nested = [] →
      (∀ e ∈ q.clauses.expressions, e.Drawn scope o.predicateDepth) → q.IsFinite := by
    rintro ⟨clauses⟩ scope flat drawn
    refine Select.isFinite_node.2 ⟨fun e he => (drawn e he).isFinite, ?_⟩
    rw [show clauses.nested = [] from flat]
    exact nofun
  refine Select.isFinite_node.2 ⟨fun e he => (h.clauses_drawn e he).isFinite, h.forall_nested ?_ ?_⟩
  · intro index d drawn
    obtain ⟨t, -, -, -, expressions⟩ := drawn.expressions_drawn
    exact lone _ _ drawn.nested_query expressions
  · exact fun _ filter ha => lone _ _ (h.nested_armClauses filter) (h.armClauses_drawn ha)

theorem depth_dump_le (h : c.Permitted tables o table) :
    c.statement.dump.depth ≤ 2 * o.predicateDepth + 18 := by
  have lone : ∀ (q : Select) (scope : List ScopeColumn), q.clauses.nested = [] →
      (∀ e ∈ q.clauses.expressions, e.Drawn scope o.predicateDepth) →
      q.dump.depth ≤ 2 * o.predicateDepth + 12 := by
    intro q scope flat drawn
    rw [q.dump_eq]
    refine Clauses.depth_dump_le (m := 0) (fun e he => (drawn e he).depth_dump_le) ?_
      (Nat.le_refl _) (by omega)
    rw [flat]
    exact fun _ hq => nomatch hq
  rw [Select.dump_eq]
  refine Clauses.depth_dump_le (fun e he => (h.clauses_drawn e he).depth_dump_le)
    (h.forall_nested ?_ ?_) (by omega) (Nat.le_refl _)
  · intro index d drawn
    obtain ⟨t, -, -, -, expressions⟩ := drawn.expressions_drawn
    exact lone _ _ drawn.nested_query expressions
  · exact fun _ filter ha => lone _ _ (h.nested_armClauses filter) (h.armClauses_drawn ha)

end SelectChoices.Permitted

namespace Select

/-- The statement is read back from its text, and from its document with all members sorted. -/
structure Replayed (s : Select) : Prop where
  shallow : s.dump.depth ≤ textLevels
  text : decode? replay s.dump.text = some s
  request : replay (.ofRequest s.dump.sorted) s.dump.sorted = some s

theorem Replayed.of_keepsWindows {s : Select} (finite : s.IsFinite)
    (shallow : s.dump.depth ≤ textLevels) (kept : s.KeepsWindows .request) : s.Replayed where
  shallow := shallow
  text := decode?_dump finite shallow
  request := (Select.stands finite kept (n := s.dump.sorted.depth)).reads _ (Nat.le_refl _)
    (Nat.le_refl _)

theorem constant_replayed {value : Expr} {depth : Nat} (range : depth ≤ 16)
    (h : Predicate.Over [] depth value) :
    (Select.node { columns := [.expr value none] }).Replayed := by
  refine .of_keepsWindows ?_ ?_ fun t ht => ?_
  · refine isFinite_node.2 ⟨Clauses.forall_mem_expressions ?_ ?_ ?_ ?_ ?_ ?_ ?_ ?_ ?_, nofun⟩
    case refine_1 =>
      intro r hr e he
      rw [List.mem_singleton.1 hr] at he
      rw [List.mem_singleton.1 he]
      exact h.isFinite
    all_goals exact fun _ h => (nomatch h)
  · have expressions : ∀ e ∈ (Clauses.expressions (Q := Select) { columns := [.expr value none] }),
        e.dump.depth ≤ 2 * depth + 5 := by
      refine Clauses.forall_mem_expressions ?_ ?_ ?_ ?_ ?_ ?_ ?_ ?_ ?_
      case refine_1 =>
        intro r hr e he
        rw [List.mem_singleton.1 hr] at he
        rw [List.mem_singleton.1 he]
        exact h.depth_dump_le
      all_goals exact fun _ h => (nomatch h)
    rw [dump_eq, textLevels]
    refine Clauses.depth_dump_le (m := 0) expressions (fun _ hq => nomatch hq) ?_ ?_ <;> omega
  · cases ht with
    | self => exact .nil
    | nested mem => exact nomatch mem

/-- With checked options a random statement is read back, for every permitted answer to the
generator's requests and so on every source of random words. The numerals in between denote the
nearest number. -/
theorem generation_replayed {o : Options} (checked : o.check = .ok ()) (schema : Schema) :
    FaithfulNumerals ∧ (Select.random schema.tables o.query).Ensures o.query.HasNaN Replayed ∧
    ∀ {σ : Type} (source : WordSource σ) (state : σ), ∃ s,
      ((Select.random schema.tables o.query).run.run source state).1 = .ok s ∧ s.Replayed := by
  have range := (Options.check_eq_ok_iff.1 checked).1
  have depth : o.query.predicateDepth ≤ 16 := range.maxPredicateDepth.2
  have replayed : (Select.random schema.tables o.query).Ensures o.query.HasNaN Replayed := by
    refine (Select.random_ensures range schema.tables).mono ?_
    rintro s (⟨-, value, grown, rfl⟩ | ⟨table, mem, c, permitted, rfl⟩)
    · exact constant_replayed depth grown
    · have shallow := permitted.depth_dump_le
      exact .of_keepsWindows permitted.isFinite (by rw [textLevels]; omega) permitted.keepsWindows
  exact ⟨faithfulNumerals, replayed, fun source state => Draw.Ensures.run replayed source state⟩

theorem assorted_generation_replayed :
    Options.broad.check = .ok () ∧
      (Select.random Schema.assorted.tables Options.broad.query).Ensures False Replayed :=
  ⟨Options.check_broad, (generation_replayed Options.check_broad Schema.assorted).2.1.relax
    Options.not_hasNaN_broad.1⟩

end Select
end QueryForge
