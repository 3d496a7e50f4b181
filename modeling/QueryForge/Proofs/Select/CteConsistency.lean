import QueryForge.Proofs.Select.Shadowing

/-!
# What random common table expressions hold

A common table expression has its query, its aliases and its columns side by side, and building it
does not compare them. The generator derives all three from one selection of the columns of a
table.
-/

namespace QueryForge

open Draw

variable {tables : List Table} {o : QueryOptions} {table : Table} {c : SelectChoices} {nan : Prop}

/-- A statement with columns, sources and a condition only. -/
structure Clauses.Plain (c : Clauses Select) : Prop where
  withClause : c.withClause = none
  modifier : c.modifier = .all
  windowFunctions : c.windowFunctions = []
  joins : c.joins = []
  groupBy : c.groupBy = []
  having : c.having = none
  windows : c.windows.entries = []
  orderBy : c.orderBy = []
  limit : c.limit = none
  offset : c.offset = none
  setOperation : c.setOperation = none

/-- The query shows the columns, which are some of the table in its order. If there are aliases,
they are different names, one for each column. -/
structure Cte.Consistent (t : Table) (cte : Cte Select) : Prop where
  plain : cte.query.clauses.Plain
  fromItems : cte.query.clauses.fromItems = [.ofTable t.name]
  kept : cte.columns.Sublist t.columns
  shown : cte.columns ≠ []
  columns : cte.query.clauses.columns = cte.columns.map fun c => .ofScope ⟨t.name, c⟩
  aliases : cte.columnAliases ≠ [] → cte.columnAliases.Nodup ∧
    cte.query.clauses.columnCount = some cte.columnAliases.length

structure WithClause.Consistent (tables : List Table) (limit : Nat) (w : WithClause Select) :
    Prop where
  nonempty : 1 ≤ w.ctes.length
  bounded : w.ctes.length ≤ limit
  ctes : ∀ cte ∈ w.ctes, ∃ t ∈ tables, cte.Consistent t

namespace CteSource

theorem length_defaultAliases (count : Nat) : (defaultAliases count).length = count := by
  rw [defaultAliases, List.length_map, List.length_range]

theorem nodup_defaultAliases (count : Nat) : (defaultAliases count).Nodup :=
  List.nodup_range.map (Sql.append_repr_injective "a")

theorem columnCount_reading (table : Table) (index : Nat) (columns : List Column)
    (filter : Option Expr) (aliases : List String) :
    (reading table index columns filter aliases).cte.query.clauses.columnCount =
      some columns.length := by
  have shows : columns.map (fun c => ResultColumn.ofScope ⟨table.name, c⟩) =
      (columns.map (ScopeColumn.mk table.name)).map .ofScope := by
    rw [List.map_map]
    rfl
  unfold reading
  rw [Clauses.columnCount_of_ofScope shows, List.length_map]
  rfl

theorem Drawn.consistent {index : Nat} {d : CteSource} (h : Drawn tables o index d) :
    ∃ t ∈ tables, d.cte.Consistent t := by
  obtain @⟨table, columns, filter, aliases, read, kept, shown, filtered, named⟩ := h
  refine ⟨table, read, ?_, rfl, kept, shown, rfl, ?_⟩
  · constructor <;> rfl
  · intro given
    obtain rfl : aliases = defaultAliases columns.length := named.resolve_left given
    refine ⟨nodup_defaultAliases _, ?_⟩
    rw [columnCount_reading]
    exact congrArg some (length_defaultAliases _).symm

end CteSource

namespace Select.Origin.Drawn

variable {g : Origin}

theorem length_ctes (h : g.Drawn tables o table) : g.ctes.length ≤ o.maxCtes.toNat := by
  obtain ⟨indices, within, drawn⟩ := h.ctes
  have amount := within.length_le
  rwa [drawn.length_eq, List.length_range] at amount

end Select.Origin.Drawn

namespace SelectChoices.Permitted

theorem withClause_consistent (h : c.Permitted tables o table) :
    ∀ w, c.clauses.withClause = some w → w.Consistent tables o.maxCtes.toNat := by
  intro w hw
  change (if c.origin.ctes.isEmpty then none else some _) = some w at hw
  by_cases empty : c.origin.ctes.isEmpty
  · rw [if_pos empty] at hw
    exact nomatch hw
  rw [if_neg empty] at hw
  obtain rfl := Option.some.inj hw
  refine ⟨?_, ?_, ?_⟩
  · rw [List.length_map]
    exact List.length_pos_iff.2 (mt List.isEmpty_iff.2 empty)
  · rw [List.length_map]
    exact h.origin.length_ctes
  · intro cte hc
    obtain ⟨d, hd, rfl⟩ := List.mem_map.1 hc
    obtain ⟨index, drawn⟩ := h.origin.exists_index_drawn hd
    exact drawn.consistent

/-- Only the statement itself can have a WITH clause. -/
theorem withClause_nested (h : c.Permitted tables o table) :
    ∀ q ∈ c.clauses.nested, ∀ t, q.Contains t → t.clauses.withClause = none := by
  refine h.forall_contains_nested ?_ fun _ _ _ => rfl
  intro index d drawn
  cases drawn
  rfl

end SelectChoices.Permitted

namespace Select

/-- With checked options, every WITH clause in a random statement holds at least one and at most the
allowed amount of common table expressions, each with a plain query of one table. -/
theorem generation_ctes_consistent {o : Options} (checked : o.check = .ok ()) (schema : Schema) :
    (Select.random schema.tables o.query).Ensures o.query.HasNaN fun s =>
      ∀ t, s.Contains t → ∀ w, t.clauses.withClause = some w →
        w.Consistent schema.tables o.query.maxCtes.toNat := by
  have range := (Options.check_eq_ok_iff.1 checked).1
  refine (Select.random_ensures range schema.tables).mono ?_
  rintro s (⟨-, value, -, rfl⟩ | ⟨table, -, c, permitted, rfl⟩)
  · refine forall_contains_of_flat rfl ?_
    intro w hw
    exact nomatch hw
  · refine forall_contains_node.2 ⟨permitted.withClause_consistent, ?_⟩
    intro q hq t ht w hw
    rw [permitted.withClause_nested q hq t ht] at hw
    exact nomatch hw

/-- Plain statements with up to two common table expressions. -/
def twoCtes : Options where
  query := { plainWith.query with maxCtes := 2 }

def twoCtesText : String :=
  "WITH cte0(a0, a1) AS (SELECT t.a, t.c FROM t), cte1 AS (SELECT t.a, t.b, t.c FROM t) " ++
    "SELECT t.a, t.b, t.c FROM t"

theorem twoCtes_consistent :
    twoCtes.check = .ok () ∧ ∃ (tables : List Table) (s : Select) (w : WithClause Select),
      s.sql = twoCtesText ∧ s.clauses.withClause = some w ∧ w.Consistent tables 2 := by
  have checked : twoCtes.check = .ok () := by decide +kernel
  let schema : Schema :=
    ⟨[{ name := "t", columns := [{ name := "a", type := .int }, { name := "b", type := .range },
      { name := "c", type := .text }] }]⟩
  have run : ((Select.random schema.tables twoCtes.query).run.run Scripted.source
      ⟨[], 4⟩).1.toOption.map (fun s => (s.sql, s.clauses.withClause.isSome)) =
        some (twoCtesText, true) := by decide +kernel
  obtain ⟨s, summary, consistent⟩ :=
    Building.Ensures.exists_of_run (generation_ctes_consistent checked schema) run
  obtain ⟨text, present⟩ := Prod.mk.inj summary
  obtain ⟨w, hw⟩ := Option.isSome_iff_exists.1 present
  exact ⟨checked, schema.tables, s, w, text, hw, consistent s (.self s) w hw⟩

end Select
end QueryForge
