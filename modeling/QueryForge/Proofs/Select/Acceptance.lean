import QueryForge.Proofs.Draw.Answers
import QueryForge.Proofs.Select.Choices
import QueryForge.Proofs.Select.Nesting

/-!
# Random statements are never refused

No setter refuses what the generator of SELECT statements asks of it, and the result is valid. The
locks are the reason for care: a lock is drawn only for a statement without DISTINCT and grouping.
-/

namespace QueryForge

variable {nan : Prop}

theorem Source.ReadBy.nested_eq_nil {s : Source} {item : FromItem Select} (h : s.ReadBy item) :
    item.nested = [] := by
  obtain ⟨only, -, rfl⟩ := h
  rfl

namespace SelectChoices

variable {tables : List Table} {o : QueryOptions} {table : Table} {c : SelectChoices}

theorem ctes_clauses (c : SelectChoices) :
    c.clauses.ctes = c.origin.ctes.map CteSource.cte := by
  unfold clauses Clauses.ctes
  dsimp only
  split
  · next none =>
    split at none
    · next empty => rw [List.isEmpty_iff.1 empty, List.map_nil]
    · exact nomatch none
  · next some =>
    split at some
    · exact nomatch some
    · exact congrArg WithClause.ctes (Option.some.inj some).symm

namespace Permitted

theorem nested_joins (h : c.Permitted tables o table) :
    c.origin.joins.flatMap (fun j => j.item.nested) = [] := by
  unfold Select.Origin.joins
  cases hj : c.origin.join with
  | none => rfl
  | some j =>
    have := (h.origin.join j hj).item.nested_eq_nil
    simpa using this

theorem nested_armClauses (h : c.Permitted tables o table) (filter : Option Expr) :
    (c.armClauses filter).nested = [] := by
  have item := h.origin.item.nested_eq_nil
  have joins := h.nested_joins
  unfold armClauses Clauses.nested
  simp [Clauses.ctes, item, joins]

/-- Apart from its common table expressions a statement holds only its second arm. -/
theorem nested_clauses (h : c.Permitted tables o table) :
    c.clauses.nested = c.origin.ctes.map (fun d => d.cte.query) ++
      c.arm.toList.map fun a => .node (c.armClauses a.2) := by
  have item := h.origin.item.nested_eq_nil
  have joins := h.nested_joins
  have arm : c.clauses.setOperation.toList.map SetOperation.query =
      c.arm.toList.map fun a => .node (c.armClauses a.2) := by
    unfold clauses
    cases c.arm <;> rfl
  unfold Clauses.nested
  rw [ctes_clauses, arm]
  simp [clauses, item, joins]

/-- Directly inside the statement there are its common table expressions and its arm. -/
theorem forall_nested (h : c.Permitted tables o table) {P : Select → Prop}
    (cte : ∀ index d, CteSource.Drawn tables o index d → P d.cte.query)
    (arm : ∀ operator filter, c.arm = some (operator, filter) → P (.node (c.armClauses filter))) :
    ∀ q ∈ c.clauses.nested, P q := by
  intro q hq
  rw [h.nested_clauses] at hq
  rcases List.mem_append.1 hq with hq | hq
  · obtain ⟨d, hd, rfl⟩ := List.mem_map.1 hq
    obtain ⟨index, drawn⟩ := h.origin.exists_index_drawn hd
    exact cte index d drawn
  · obtain ⟨⟨operator, filter⟩, ha, rfl⟩ := List.mem_map.1 hq
    exact arm operator filter (Option.mem_toList.1 ha)

/-- There is nothing inside the common table expressions and the arm. -/
theorem forall_contains_nested (h : c.Permitted tables o table) {P : Select → Prop}
    (cte : ∀ index d, CteSource.Drawn tables o index d → P d.cte.query)
    (arm : ∀ operator filter, c.arm = some (operator, filter) → P (.node (c.armClauses filter))) :
    ∀ q ∈ c.clauses.nested, ∀ t, q.Contains t → P t := by
  refine h.forall_nested ?_ ?_
  · intro index d drawn
    exact Select.forall_contains_of_flat drawn.nested_query (cte index d drawn)
  · intro operator filter drawn
    exact Select.forall_contains_of_flat (h.nested_armClauses filter) (arm operator filter drawn)

theorem checkLocking_clauses (h : c.Permitted tables o table) :
    Select.checkLocking c.clauses.modifier c.clauses.groupBy = .ok () := by
  change Select.checkLocking c.modifier (c.shape.groupBy c.projected) = .ok ()
  unfold modifier
  cases c.distinct with
  | some on => rfl
  | none =>
    cases hl : c.lock with
    | none => rfl
    | some clause => exact if_pos (List.isEmpty_iff.2 (h.lock clause hl).groupBy)

theorem validate_statement (h : c.Permitted tables o table) : c.statement.validate = .ok () := by
  refine Select.validate_node_eq_ok_iff.2 ⟨h.checkLocking_clauses, h.forall_nested ?_ ?_⟩
  · rintro index _ ⟨read, kept, shown, filtered, named⟩
    exact CteSource.reading_validate ..
  · intro operator filter _
    refine Select.validate_node_eq_ok_iff.2 ⟨rfl, ?_⟩
    rw [h.nested_armClauses]
    exact fun _ hq => nomatch hq

end Permitted
end SelectChoices

theorem Select.random_valid {o : QueryOptions} (h : o.InRange nan) (tables : List Table) :
    (Select.random tables o).Ensures nan fun s => s.validate = .ok () := by
  refine (Select.random_ensures h tables).mono ?_
  rintro s (⟨-, value, -, rfl⟩ | ⟨table, -, c, permitted, rfl⟩)
  · exact validate_node_eq_ok_iff.2 ⟨rfl, fun _ hq => (nomatch hq)⟩
  · exact permitted.validate_statement

namespace SelectQuery

/-- With checked options the generators succeed with a valid statement, for every permitted answer
to their requests and so on every source of random words. -/
theorem generation_never_refused {o : Options} (checked : o.check = .ok ()) (schema : Schema) :
    (Select.random schema.tables o.query).Ensures o.query.HasNaN (fun s => s.validate = .ok ()) ∧
    (SelectQuery.random schema.tables o.query).Ensures o.query.HasNaN
      (fun q => q.select.validate = .ok ()) ∧
    ∀ {σ : Type} (source : WordSource σ) (state : σ),
      (∃ s, ((Select.random schema.tables o.query).run.run source state).1 = .ok s ∧
        s.validate = .ok ()) ∧
      ∃ q, ((SelectQuery.random schema.tables o.query).run.run source state).1 = .ok q ∧
        q.select.validate = .ok () := by
  have select := Select.random_valid (Options.check_eq_ok_iff.1 checked).1 schema.tables
  have query : (SelectQuery.random schema.tables o.query).Ensures o.query.HasNaN
      fun q => q.select.validate = .ok () :=
    .bind select fun s hs => .pure hs
  exact ⟨select, query, fun source state =>
    ⟨Draw.Ensures.run select source state, Draw.Ensures.run query source state⟩⟩

theorem assorted_generation_never_refused :
    Options.broad.check = .ok () ∧
      (SelectQuery.random Schema.assorted.tables Options.broad.query).Ensures False
        fun q => q.select.validate = .ok () :=
  ⟨Options.check_broad, (generation_never_refused Options.check_broad Schema.assorted).2.1.relax
    Options.not_hasNaN_broad.1⟩

end SelectQuery
end QueryForge
