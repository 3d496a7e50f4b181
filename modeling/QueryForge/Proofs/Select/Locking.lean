import QueryForge.Draw.Sources
import QueryForge.Proofs.Names
import QueryForge.Proofs.Select.Acceptance
import QueryForge.Proofs.Select.CteNames
import QueryForge.Proofs.Select.Expressions

/-!
# Row locks of random statements

The database locks the rows of a table through a statement only if no clause hides which rows they
are. The clauses that do are drawn one after the other, and the lock last of all, so that the
conditions on it come together in one place.
-/

namespace QueryForge

variable {nan : Prop}

/-- What the database asks of a statement that locks rows. -/
structure Select.Lockable (tables : List Table) (s : Select) : Prop where
  option : s.selectOption = .all
  groupBy : s.groupBy = []
  windowFunctions : s.clauses.windowFunctions = []
  joins : ∀ j ∈ s.clauses.joins, j.kind ≠ .left ∧ j.kind ≠ .right ∧ j.kind ≠ .full
  setOperation : s.clauses.setOperation = none
  /-- A table with a name like theirs would be taken for a common table expression. -/
  items : (∀ t ∈ tables, ¬ CteSource.IsNumberedName t.name) →
    ∀ item ∈ s.clauses.items, ∀ cte ∈ s.clauses.ctes, cte.name ∉ item.names

variable {tables : List Table} {o : QueryOptions} {table : Table}

theorem JoinKind.isOuter_eq_false_iff {k : JoinKind} :
    k.isOuter = false ↔ k ≠ .left ∧ k ≠ .right ∧ k ≠ .full := by
  cases k <;> decide

namespace Select.Origin

variable {g : Origin}

theorem isCte_of_readsCte (h : g.readsCte = false) : ∀ s ∈ g.read, s.isCte = false := by
  obtain ⟨base, joined⟩ := Bool.or_eq_false_iff.1 h
  intro s hs
  rcases List.mem_cons.1 hs with rfl | hs
  · exact base
  · obtain ⟨j, hj, rfl⟩ := List.mem_map.1 hs
    rw [Option.mem_toList.1 hj] at joined
    exact joined

theorem isOuter_of_hasOuterJoin (h : g.hasOuterJoin = false) :
    ∀ j ∈ g.joins, j.kind.isOuter = false := by
  intro j hj
  obtain ⟨d, hd, rfl⟩ := List.mem_map.1 hj
  rw [hasOuterJoin, Option.mem_toList.1 hd] at h
  exact h

/-- Items that read no common table expression read tables under their names. -/
theorem Drawn.exists_item_table (h : g.Drawn tables o table) (ht : table ∈ tables)
    (plain : g.readsCte = false) :
    ∀ item ∈ g.items, ∃ t ∈ tables, ∃ only, item = .table t.name only none := by
  intro item hi
  obtain ⟨s, hs, only, -, rfl⟩ := Draw.exists_of_forall₂ h.items_read item hi
  obtain ⟨t, mem, rfl⟩ := h.exists_table ht hs (isCte_of_readsCte plain s hs)
  exact ⟨t, mem, only, rfl⟩

end Select.Origin

namespace SelectChoices

variable {c : SelectChoices}

theorem lock_of_lockingClause (h : c.statement.lockingClause ≠ none) :
    ∃ clause, c.lock = some clause := by
  change c.modifier.lockingClause ≠ none at h
  unfold modifier at h
  cases hd : c.distinct with
  | some on =>
    rw [hd] at h
    exact absurd rfl h
  | none =>
    cases hl : c.lock with
    | some clause => exact ⟨clause, rfl⟩
    | none =>
      rw [hd, hl] at h
      exact absurd rfl h

namespace Permitted

theorem lockable_statement (h : c.Permitted tables o table) (ht : table ∈ tables)
    {clause : LockingClause} (hl : c.lock = some clause) : c.statement.Lockable tables := by
  have lockable := h.lock clause hl
  refine ⟨Select.selectOption_eq_all_iff.2 lockable.distinct, lockable.groupBy,
    lockable.windowFunctions, ?_, ?_, ?_⟩
  · intro j hj
    exact JoinKind.isOuter_eq_false_iff.1 (Select.Origin.isOuter_of_hasOuterJoin lockable.join j hj)
  · have arm : c.arm = none := by
      rw [← Option.isNone_iff_eq_none, ← Option.not_isSome, h.arm, lockable.setOperation]
      rfl
    exact congrArg (Option.map _) arm
  · intro unnumbered item hi cte hc shared
    obtain ⟨t, mem, only, rfl⟩ := h.origin.exists_item_table ht lockable.source item hi
    change cte ∈ c.clauses.ctes at hc
    rw [ctes_clauses] at hc
    obtain ⟨i, -, name⟩ := h.origin.exists_index cte hc
    obtain same : cte.name = t.name := List.mem_singleton.1 shared
    exact unnumbered t mem (same ▸ name ▸ CteSource.isNumberedName_numberedName i)

/-- Only the statement itself can have a lock. -/
theorem unlocked_nested (h : c.Permitted tables o table) :
    ∀ q ∈ c.clauses.nested, ∀ t, q.Contains t → t.lockingClause = none := by
  refine h.forall_contains_nested ?_ fun _ _ _ => rfl
  intro index d drawn
  cases drawn
  rfl

end Permitted
end SelectChoices

namespace Select

/-- With checked options, a random statement has a row lock only if its rows can be locked, and no
statement inside has one. -/
theorem generation_locks_lockable {o : Options} (checked : o.check = .ok ()) (schema : Schema) :
    (Select.random schema.tables o.query).Ensures o.query.HasNaN fun s =>
      (s.lockingClause ≠ none → s.Lockable schema.tables) ∧
        ∀ q ∈ s.clauses.nested, ∀ t, q.Contains t → t.lockingClause = none := by
  have range := (Options.check_eq_ok_iff.1 checked).1
  refine (Select.random_ensures range schema.tables).mono ?_
  rintro s (⟨-, value, -, rfl⟩ | ⟨table, mem, c, permitted, rfl⟩)
  · exact ⟨fun locked => absurd rfl locked, fun q hq => nomatch hq⟩
  · refine ⟨?_, permitted.unlocked_nested⟩
    intro locked
    obtain ⟨clause, hl⟩ := SelectChoices.lock_of_lockingClause locked
    exact permitted.lockable_statement mem hl

theorem assorted_generation_locks_lockable :
    Options.broad.check = .ok () ∧
      (Select.random Schema.assorted.tables Options.broad.query).Ensures False fun s =>
        (s.lockingClause ≠ none → s.Lockable Schema.assorted.tables) ∧
          ∀ q ∈ s.clauses.nested, ∀ t, q.Contains t → t.lockingClause = none :=
  ⟨Options.check_broad, (generation_locks_lockable Options.check_broad Schema.assorted).relax
    Options.not_hasNaN_broad.1⟩

/-- A lock next to a WITH clause that the statement itself does not read. -/
example :
    ((Select.random [{ name := "t", columns := [{ name := "a", type := .int }] }]
      { withChance := .ofNat 1, maxCtes := 1, joinChance := .ofNat 0, filterChance := .ofNat 0,
        distinctChance := .ofNat 0, groupByChance := .ofNat 0, lockingChance := .ofNat 1,
        windowChance := .ofNat 0, orderByChance := .ofNat 0, limitChance := .ofNat 0,
        setOperationChance := .ofNat 0 }).run.run Scripted.source ⟨[], 10⟩).1.toOption.map
      Select.sql = some "WITH cte0 AS (SELECT t.a FROM t) SELECT t.a FROM t FOR NO KEY UPDATE" := by
  decide +kernel

end Select
end QueryForge
