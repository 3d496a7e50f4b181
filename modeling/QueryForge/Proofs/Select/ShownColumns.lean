import QueryForge.Draw.Sources
import QueryForge.Proofs.Select.Shadowing

/-!
# Clauses over the shown columns

A random statement is ordered and grouped by the columns that it shows, and a DISTINCT ON goes by
one of them. The three lists are filled at different points of the generation, so that they agree is
a property of the choices behind the statement.
-/

namespace QueryForge

open Draw

variable {nan : Prop}

/-- The reference as an expression. -/
def ColumnReference.expr (r : ColumnReference) : Expr := .node (.column r.qualifier r.name)

/-- The groups are what the statement shows, and it has none of the clauses that exclude groups.
What comes after the grouping refers to grouped columns only. -/
structure Clauses.GroupsShown (c : Clauses Select) : Prop where
  columns : c.columns = c.groupBy.map fun e => .expr e none
  windowFunctions : c.windowFunctions = []
  modifier : c.modifier = .all
  references : ∀ e ∈ c.having.toList ++ c.orderBy.map OrderTerm.expr,
    ∀ r ∈ e.references, r.expr ∈ c.groupBy

/-- The clauses that go by the shown columns of a scope. Without a set operation, DISTINCT ON and
ORDER BY begin with the same expression. -/
structure Clauses.GoesBy (shown : List ScopeColumn) (c : Clauses Select) : Prop where
  columns : c.fromItems ≠ [] → c.columns = shown.map .ofScope
  orderBy : ∀ t ∈ c.orderBy, .expr t.expr none ∈ c.columns ∧
    ∃ d ∈ shown, d.isOrderable ∧ t.expr = d.expr
  distinctOn : ∀ e, c.modifier.distinctOn = some e → .expr e none ∈ c.columns ∧
    (c.setOperation = none → c.orderBy.head?.map OrderTerm.expr = some e)
  groupBy : c.groupBy ≠ [] → c.GroupsShown

variable {tables : List Table} {o : QueryOptions} {table : Table} {c : SelectChoices}

theorem ScopeColumn.references_grouped {scope : List ScopeColumn} {e : Expr} (h : e.Within scope) :
    ∀ r ∈ e.references, r.expr ∈ scope.map ScopeColumn.expr := by
  intro r hr
  obtain ⟨d, mem, rfl⟩ := h r hr
  exact List.mem_map_of_mem mem

namespace SelectChoices

theorem exists_of_groupBy (h : c.shape.groupBy c.projected ≠ []) :
    ∃ having, c.shape = .grouped having := by
  cases hs : c.shape with
  | grouped having => exact ⟨having, rfl⟩
  | plain | windowed =>
    rw [hs] at h
    exact absurd rfl h

namespace Permitted

theorem modifier_of_grouped (h : c.Permitted tables o table)
    (some : c.shape.groupBy c.projected ≠ []) : c.modifier = .all := by
  obtain ⟨having, shape⟩ := exists_of_groupBy some
  have distinct : c.distinct = none := h.grouped (shape ▸ rfl)
  have lock : c.lock = none := by
    by_contra locked
    obtain ⟨clause, hl⟩ := Option.ne_none_iff_exists'.1 locked
    exact some (h.lock clause hl).groupBy
  unfold modifier
  rw [distinct, lock]

theorem groupsShown (h : c.Permitted tables o table) (some : c.shape.groupBy c.projected ≠ []) :
    c.clauses.GroupsShown := by
  obtain ⟨having, shape⟩ := exists_of_groupBy some
  have groups : c.clauses.groupBy = c.projected.map ScopeColumn.expr := by
    change c.shape.groupBy c.projected = _
    rw [shape]
    rfl
  have permitted := h.shape
  rw [shape] at permitted
  cases permitted with
  | grouped grown =>
  refine ⟨?_, ?_, h.modifier_of_grouped some, ?_⟩
  · rw [groups, List.map_map]
    rfl
  · change c.shape.windowFunctions = []
    rw [shape]
    rfl
  · intro e he
    rw [groups]
    refine ScopeColumn.references_grouped ?_
    rcases List.mem_append.1 he with he | he
    · change e ∈ c.shape.having.toList at he
      rw [shape] at he
      exact (grown e (Option.mem_toList.1 he)).within
    · obtain ⟨t, ht, rfl⟩ := List.mem_map.1 he
      obtain ⟨d, mem, -, same⟩ := h.orderBy_shown t ht
      rw [same]
      exact ScopeColumn.expr_within mem

/-- The terms of a statement without a second arm start with its DISTINCT ON. -/
theorem head_orderBy (h : c.Permitted tables o table) (single : c.arm = none) {d : ScopeColumn}
    (on : c.distinct = some (some d)) : c.orderBy.head?.map OrderTerm.expr = some d.expr := by
  have set : c.origin.setOperation = false := by
    rw [← h.arm, single]
    rfl
  obtain ⟨more, terms, -⟩ := (h.ordered set).1
  rw [terms, on]
  rfl

theorem goesBy (h : c.Permitted tables o table) : c.clauses.GoesBy c.projected := by
  have shown {d : ScopeColumn} (mem : d ∈ c.projected) :
      .expr d.expr none ∈ c.clauses.columns := List.mem_map.2 ⟨d, mem, rfl⟩
  refine ⟨fun _ => rfl, ?_, ?_, h.groupsShown⟩
  · intro t ht
    obtain ⟨d, mem, orderable, same⟩ := h.orderBy_shown t ht
    rw [same]
    exact ⟨shown mem, d, mem, orderable, rfl⟩
  · intro e he
    obtain ⟨d, on, rfl⟩ := exists_of_distinctOn he
    refine ⟨shown (h.distinctOn d on).1, ?_⟩
    intro single
    exact h.head_orderBy (Option.map_eq_none_iff.1 single) on

/-- Only the statement itself is ordered, grouped or DISTINCT. -/
theorem unarranged_nested (h : c.Permitted tables o table) :
    ∀ q ∈ c.clauses.nested, ∀ t, q.Contains t →
      t.clauses.orderBy = [] ∧ t.clauses.modifier = .all ∧ t.groupBy = [] := by
  refine h.forall_contains_nested ?_ fun _ _ _ => ⟨rfl, rfl, rfl⟩
  intro index d drawn
  cases drawn
  exact ⟨rfl, rfl, rfl⟩

end Permitted
end SelectChoices

namespace Select

theorem constant_goesBy (value : Expr) :
    (Clauses.GoesBy [] { columns := [.expr value none] }) := by
  refine ⟨fun read => absurd rfl read, ?_, ?_, fun groups => absurd rfl groups⟩
  · intro t ht
    exact nomatch ht
  · intro e he
    exact nomatch he

/-- With checked options, the ORDER BY, DISTINCT ON and GROUP BY clauses of a random statement go by
columns of its scope that it shows, and no statement inside has such a clause. -/
theorem generation_goes_by_shown {o : Options} (checked : o.check = .ok ()) (schema : Schema) :
    Prod.snd <$> randomTraced schema.tables o.query = Select.random schema.tables o.query ∧
      (randomTraced schema.tables o.query).Ensures o.query.HasNaN fun run =>
        (∃ shown, shown.Sublist (run.1.elim [] Origin.scope) ∧ run.2.clauses.GoesBy shown) ∧
        ∀ q ∈ run.2.clauses.nested, ∀ t, q.Contains t →
          t.clauses.orderBy = [] ∧ t.clauses.modifier = .all ∧ t.groupBy = [] := by
  refine ⟨snd_randomTraced schema.tables o.query, ?_⟩
  have range := (Options.check_eq_ok_iff.1 checked).1
  refine (randomTraced_ensures range schema.tables).mono ?_
  rintro run (⟨value, -, rfl⟩ | ⟨table, -, c, permitted, rfl⟩)
  · refine ⟨⟨[], List.Sublist.refl [], constant_goesBy value⟩, ?_⟩
    intro q hq
    exact nomatch hq
  · exact ⟨⟨c.projected, permitted.projected, permitted.goesBy⟩, permitted.unarranged_nested⟩

/-- Grouped and ordered statements over one table; a lock and windows are wanted as well. -/
def groupedAlways : Options where
  query :=
    { withChance := .ofNat 0, joinChance := .ofNat 0, filterChance := .ofNat 0,
      distinctChance := .ofNat 0, groupByChance := .ofNat 1, havingChance := .ofNat 1,
      lockingChance := .ofNat 1, windowChance := .ofNat 1, orderByChance := .ofNat 1,
      limitChance := .ofNat 0, setOperationChance := .ofNat 0, maxPredicateDepth := 1 }

theorem grouped_generation_goes_by_shown :
    groupedAlways.check = .ok () ∧ ∃ (s : Select) (shown : List ScopeColumn),
      s.sql = "SELECT t.a, t.b FROM t GROUP BY t.a, t.b HAVING ((t.a) IS NULL) ORDER BY t.a DESC" ∧
        s.clauses.GoesBy shown ∧ s.clauses.GroupsShown := by
  have checked : groupedAlways.check = .ok () := by decide +kernel
  let schema : Schema :=
    ⟨[{ name := "t", columns := [{ name := "a", type := .int }, { name := "b", type := .range }] }]⟩
  have run : ((randomTraced schema.tables groupedAlways.query).run.run Scripted.source
      ⟨[], 25⟩).1.toOption.map (fun run => (run.2.sql, run.2.groupBy.isEmpty)) = some
        ("SELECT t.a, t.b FROM t GROUP BY t.a, t.b HAVING ((t.a) IS NULL) ORDER BY t.a DESC",
          false) := by decide +kernel
  obtain ⟨traced, summary, ⟨shown, -, goesBy⟩, -⟩ :=
    Building.Ensures.exists_of_run (generation_goes_by_shown checked schema).2 run
  obtain ⟨text, groups⟩ := Prod.mk.inj summary
  refine ⟨checked, traced.2, shown, text, goesBy, goesBy.groupBy ?_⟩
  intro none
  rw [groupBy, none] at groups
  exact nomatch groups

end Select
end QueryForge
