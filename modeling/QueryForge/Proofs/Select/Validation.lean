import QueryForge.Select.Build

/-!
# What validation accepts

A statement is valid if its own lock fits its grouping and every nested statement is valid.
-/

namespace QueryForge

theorem FromItem.nested_map {Q R : Type} (f : Q → R) (i : FromItem Q) :
    (i.map f).nested = i.nested.map f := by
  cases i <;> rfl

theorem Clauses.ctes_map {Q R : Type} (f : Q → R) (c : Clauses Q) :
    (c.map f).ctes = c.ctes.map (Cte.map f) := by
  unfold ctes map
  cases c.withClause <;> rfl

theorem Clauses.nested_map {Q R : Type} (f : Q → R) (c : Clauses Q) :
    (c.map f).nested = c.nested.map f := by
  have ctes : (c.map f).ctes.map Cte.query = (c.ctes.map Cte.query).map f := by
    rw [ctes_map, List.map_map, List.map_map]
    rfl
  have arm : (c.map f).setOperation.toList.map SetOperation.query =
      (c.setOperation.toList.map SetOperation.query).map f := by
    unfold map
    cases c.setOperation <;> rfl
  unfold nested
  rw [ctes, arm]
  simp only [map, List.map_append, List.map_flatMap, List.flatMap_map, FromItem.nested_map,
    Join.map]

namespace Select

theorem forM_eq_ok_iff {α : Type} {check : α → Except BuildError Unit} {items : List α} :
    items.forM check = .ok () ↔ ∀ a ∈ items, check a = .ok () := by
  induction items with
  | nil => exact ⟨fun _ _ ha => (nomatch ha), fun _ => rfl⟩
  | cons a rest ih =>
    rw [List.forall_mem_cons, ← ih]
    change (check a >>= fun _ => rest.forM check) = .ok () ↔ _
    cases check a with
    | error e =>
      constructor
      · intro h
        exact nomatch h
      · rintro ⟨ha, -⟩
        exact nomatch ha
    | ok =>
      constructor
      · intro h
        exact ⟨rfl, h⟩
      · rintro ⟨-, h⟩
        exact h

theorem validate_node (c : Clauses Select) :
    (Select.node c).validate =
      checkLocking c.modifier c.groupBy >>= fun _ => c.nested.forM validate := by
  unfold validate
  rw [fold_node, validateClauses, Clauses.nested_map]
  have verdicts (queries : List Select) :
      (queries.map validate).forM id = queries.forM validate := by
    induction queries with
    | nil => rfl
    | cons q rest ih => exact congrArg (q.validate >>= fun _ => ·) ih
  exact congrArg (checkLocking c.modifier c.groupBy >>= fun _ => ·) (verdicts c.nested)

theorem validate_node_eq_ok_iff {c : Clauses Select} :
    (Select.node c).validate = .ok () ↔
      checkLocking c.modifier c.groupBy = .ok () ∧ ∀ q ∈ c.nested, q.validate = .ok () := by
  rw [validate_node, ← forM_eq_ok_iff]
  cases checkLocking c.modifier c.groupBy with
  | error e =>
    constructor
    · intro h
      exact nomatch h
    · rintro ⟨locking, -⟩
      exact nomatch locking
  | ok =>
    constructor
    · intro h
      exact ⟨rfl, h⟩
    · rintro ⟨-, nested⟩
      exact nested

end Select
end QueryForge
