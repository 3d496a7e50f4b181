import QueryForge.Proofs.Select.Validation

/-!
# Statements inside statements

A statement contains the queries of its WITH clause, its subqueries and the arms of its set
operation, to any depth. Validation accepts a statement if no statement in it breaks the rule on
locks, and what holds of a statement once it holds of those directly inside holds of all.
-/

namespace QueryForge

theorem FromItem.sizeOf_lt_of_mem_nested {i : FromItem Select} {q : Select} (h : q ∈ i.nested) :
    sizeOf q < sizeOf i := by
  cases i with
  | table => simp [nested] at h
  | subquery query asName =>
    obtain rfl := List.mem_singleton.1 h
    simp
    omega

section Maps

variable {Q R S : Type} {f : Q → R} {g : R → S} {k : Q → S}

theorem FromItem.map_map {i : FromItem Q} (h : ∀ q ∈ i.nested, g (f q) = k q) :
    (i.map f).map g = i.map k := by
  cases i with
  | table name only asName => rfl
  | subquery query asName => rw [map, map, map, h query List.mem_cons_self]

theorem Join.map_map {j : Join Q} (h : ∀ q ∈ j.item.nested, g (f q) = k q) :
    (j.map f).map g = j.map k := by
  rw [map, map, map, FromItem.map_map h]

theorem Cte.map_map {c : Cte Q} (h : g (f c.query) = k c.query) :
    (c.map f).map g = c.map k := by
  rw [map, map, map, h]

theorem SetOperation.map_map {s : SetOperation Q} (h : g (f s.query) = k s.query) :
    (s.map f).map g = s.map k := by
  rw [map, map, map, h]

end Maps

namespace Clauses

variable {Q R S : Type}

theorem mem_nested {c : Clauses Q} {q : Q} :
    q ∈ c.nested ↔ (∃ cte ∈ c.ctes, cte.query = q) ∨ (∃ i ∈ c.fromItems, q ∈ i.nested) ∨
      (∃ j ∈ c.joins, q ∈ j.item.nested) ∨ ∃ arm, c.setOperation = some arm ∧ arm.query = q := by
  simp only [nested, List.mem_append, List.mem_map, List.mem_flatMap, Option.mem_toList, or_assoc]

theorem forall_nested_iff {c : Clauses Q} {P : Q → Prop} :
    (∀ q ∈ c.nested, P q) ↔ (∀ cte ∈ c.ctes, P cte.query) ∧
      (∀ i ∈ c.fromItems, ∀ q ∈ i.nested, P q) ∧ (∀ j ∈ c.joins, ∀ q ∈ j.item.nested, P q) ∧
      ∀ s, c.setOperation = some s → P s.query := by
  simp only [nested, List.forall_mem_append, List.forall_mem_flatMap, List.forall_mem_map,
    Option.mem_toList, and_assoc]

theorem mem_ctes {c : Clauses Q} {cte : Cte Q} :
    cte ∈ c.ctes ↔ ∃ w, c.withClause = some w ∧ cte ∈ w.ctes := by
  unfold ctes
  cases c.withClause <;> simp

/-- Two functions one after the other are one function that agrees with them on the nested
statements. -/
theorem map_map {f : Q → R} {g : R → S} {k : Q → S} {c : Clauses Q}
    (h : ∀ q ∈ c.nested, g (f q) = k q) : (c.map f).map g = c.map k := by
  obtain ⟨ofCtes, ofItems, ofJoins, ofArm⟩ := forall_nested_iff.1 h
  have withClause : (c.withClause.map (WithClause.map f)).map (WithClause.map g) =
      c.withClause.map (WithClause.map k) := by
    rw [Option.map_map]
    refine Option.map_congr fun w hw => congrArg WithClause.mk ?_
    rw [WithClause.map, List.map_map]
    exact List.map_congr_left fun cte hc => Cte.map_map (ofCtes cte (mem_ctes.2 ⟨w, hw, hc⟩))
  have items : (c.fromItems.map (FromItem.map f)).map (FromItem.map g) =
      c.fromItems.map (FromItem.map k) := by
    rw [List.map_map]
    exact List.map_congr_left fun i hi => FromItem.map_map (ofItems i hi)
  have joins : (c.joins.map (Join.map f)).map (Join.map g) = c.joins.map (Join.map k) := by
    rw [List.map_map]
    exact List.map_congr_left fun j hj => Join.map_map (ofJoins j hj)
  have arm : (c.setOperation.map (SetOperation.map f)).map (SetOperation.map g) =
      c.setOperation.map (SetOperation.map k) := by
    rw [Option.map_map]
    exact Option.map_congr fun s hs => SetOperation.map_map (ofArm s hs)
  simp only [map, withClause, items, joins, arm]

theorem sizeOf_lt_of_mem_nested {c : Clauses Select} {q : Select} (h : q ∈ c.nested) :
    sizeOf q < sizeOf c := by
  obtain ⟨withClause, modifier, columns, windowFunctions, fromItems, joins, filter, groupBy, having,
    windows, orderBy, limit, offset, setOperation⟩ := c
  rcases mem_nested.1 h with ⟨cte, hc, rfl⟩ | ⟨i, hi, hq⟩ | ⟨j, hj, hq⟩ | ⟨arm, ha, rfl⟩
  · obtain ⟨⟨ctes⟩, hw, mem⟩ := mem_ctes.1 hc
    change withClause = some ⟨ctes⟩ at hw
    change cte ∈ ctes at mem
    have inner := List.sizeOf_lt_of_mem mem
    subst hw
    cases cte
    simp at inner ⊢
    omega
  · have inner := List.sizeOf_lt_of_mem hi
    have deep := FromItem.sizeOf_lt_of_mem_nested hq
    simp at inner ⊢
    omega
  · have inner := List.sizeOf_lt_of_mem hj
    have deep := FromItem.sizeOf_lt_of_mem_nested hq
    cases j
    simp at inner deep ⊢
    omega
  · change setOperation = some arm at ha
    subst ha
    cases arm
    simp
    omega

end Clauses

namespace Select

/-- What holds of a statement whenever it holds of the statements directly inside holds of all. -/
theorem induction {P : Select → Prop}
    (step : ∀ c : Clauses Select, (∀ q ∈ c.nested, P q) → P (.node c)) (s : Select) : P s :=
  match s with
  | .node c => step c fun q _ => induction step q
termination_by sizeOf s
decreasing_by
  have smaller : sizeOf q < sizeOf c := Clauses.sizeOf_lt_of_mem_nested (by assumption)
  simp only [node.sizeOf_spec]
  omega

/-- The statement itself and every statement inside, to any depth. -/
inductive Contains : Select → Select → Prop
  | self (s : Select) : Contains s s
  | nested {s q t : Select} (mem : q ∈ s.clauses.nested) (inside : Contains q t) : Contains s t

theorem forall_contains_node {P : Select → Prop} {c : Clauses Select} :
    (∀ t, (Select.node c).Contains t → P t) ↔
      P (.node c) ∧ ∀ q ∈ c.nested, ∀ t, q.Contains t → P t := by
  constructor
  · intro h
    exact ⟨h _ (.self _), fun q hq t ht => h t (.nested hq ht)⟩
  · rintro ⟨here, inside⟩ t ht
    cases ht with
    | self => exact here
    | nested mem ht => exact inside _ mem t ht

theorem forall_contains_of_flat {P : Select → Prop} {s : Select} (flat : s.clauses.nested = [])
    (h : P s) : ∀ t, s.Contains t → P t := by
  intro t ht
  cases ht with
  | self => exact h
  | nested mem =>
    rw [flat] at mem
    exact nomatch mem

/-- Validation looks at every statement inside. -/
theorem validate_eq_ok_iff {s : Select} :
    s.validate = .ok () ↔
      ∀ t, s.Contains t → checkLocking t.clauses.modifier t.clauses.groupBy = .ok () := by
  induction s using Select.induction with
  | step c ih =>
    rw [validate_node_eq_ok_iff, forall_contains_node]
    refine and_congr Iff.rfl ?_
    constructor
    · intro h q hq
      exact (ih q hq).1 (h q hq)
    · intro h q hq
      exact (ih q hq).2 (h q hq)

theorem attach_of_eq_none {c : Clauses Select} (h : c.setOperation = none) (operator : SetOperator)
    (next : Select) :
    (node c).attach operator next = .node { c with setOperation := some ⟨operator, next⟩ } := by
  cases c
  cases h
  rfl

theorem attach_of_eq_some {c : Clauses Select} {first : SetOperator} {arm : Select}
    (h : c.setOperation = some ⟨first, arm⟩) (operator : SetOperator) (next : Select) :
    (node c).attach operator next =
      .node { c with setOperation := some ⟨first, arm.attach operator next⟩ } := by
  cases c
  cases h
  rfl

end Select
end QueryForge
