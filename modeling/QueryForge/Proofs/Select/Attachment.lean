import QueryForge.Proofs.Select.Chain

/-!
# Attaching concatenates

A statement is its own clauses and the row of its arms, each with the operator in front of it.
Attaching appends to that row and touches nothing else, so texts, verdicts and further attachments
follow the laws of appending lists.
-/

namespace QueryForge.Select

variable {s t : Select} {c : Clauses Select}

/-- The arms behind the first statement, without what follows them. -/
def arms : Select → List (SetOperator × Clauses Select)
  | .node { setOperation := some ⟨operator, arm⟩, .. } => (operator, arm.clauses.alone) :: arm.arms
  | .node { setOperation := none, .. } => []

/-- Puts a row of arms behind a statement. -/
def joined (first : Clauses Select) : List (SetOperator × Clauses Select) → Select
  | [] => .node first.alone
  | (operator, arm) :: rest => .node { first with setOperation := some ⟨operator, joined arm rest⟩ }

theorem arms_of_eq_none (h : c.setOperation = none) : (node c).arms = [] := by
  cases c
  subst h
  rw [arms]

theorem arms_of_eq_some {arm : SetOperation Select} (h : c.setOperation = some arm) :
    (node c).arms = (arm.operator, arm.query.clauses.alone) :: arm.query.arms := by
  cases c
  subst h
  rw [arms]

theorem joined_alone (first : Clauses Select) (arms : List (SetOperator × Clauses Select)) :
    joined first.alone arms = joined first arms := by
  cases arms <;> rfl

/-- Nothing of a statement is lost in its clauses and its arms. -/
theorem joined_arms (s : Select) : joined s.clauses s.arms = s := by
  induction s using Select.induction with
  | step c ih =>
    cases hc : c.setOperation with
    | none =>
      rw [arms_of_eq_none hc]
      cases c
      subst hc
      rfl
    | some arm =>
      have mem : arm.query ∈ c.nested := Clauses.mem_nested.2 (.inr (.inr (.inr ⟨_, hc, rfl⟩)))
      rw [arms_of_eq_some hc, joined, joined_alone, ih arm.query mem]
      cases c
      subst hc
      rfl

/-- Statements with the same clauses and the same arms are the same. -/
theorem eq_of_arms (alone : s.clauses.alone = t.clauses.alone) (arms : s.arms = t.arms) :
    s = t := by
  rw [← s.joined_arms, ← t.joined_arms, arms, ← joined_alone, alone, joined_alone]

theorem alone_attach (s : Select) (operator : SetOperator) (next : Select) :
    (s.attach operator next).clauses.alone = s.clauses.alone := by
  obtain ⟨c⟩ := s
  cases hc : c.setOperation with
  | none =>
    rw [attach_of_eq_none hc]
    rfl
  | some arm =>
    rw [attach_of_eq_some hc]
    rfl

theorem arms_attach (s : Select) (operator : SetOperator) (next : Select) :
    (s.attach operator next).arms = s.arms ++ (operator, next.clauses.alone) :: next.arms := by
  induction s using Select.induction with
  | step c ih =>
    cases hc : c.setOperation with
    | none =>
      rw [attach_of_eq_none hc, arms_of_eq_none hc, arms_of_eq_some rfl]
      rfl
    | some arm =>
      obtain ⟨first, arm⟩ := arm
      have mem : arm ∈ c.nested := Clauses.mem_nested.2 (.inr (.inr (.inr ⟨_, hc, rfl⟩)))
      rw [attach_of_eq_some hc, arms_of_eq_some rfl, arms_of_eq_some hc, ih arm mem, alone_attach]
      rfl

/-- An attached statement brings its own arms along, whichever of two attachments comes first. -/
theorem attach_attach (s n m : Select) (p q : SetOperator) :
    (s.attach p n).attach q m = s.attach p (n.attach q m) := by
  refine eq_of_arms ?_ ?_
  · rw [alone_attach, alone_attach, alone_attach]
  · rw [arms_attach, arms_attach, arms_attach, arms_attach, alone_attach, List.append_assoc,
      List.cons_append]

/-- The arm of a statement is validated last. -/
theorem validate_eq_alone (c : Clauses Select) :
    (node c).validate = (node c.alone).validate >>= fun _ =>
      forM c.setOperation.toList fun arm => arm.query.validate := by
  have nested : c.nested = c.alone.nested ++ c.setOperation.toList.map SetOperation.query := by
    change _ = (_ ++ []) ++ _
    rw [List.append_nil]
    rfl
  rw [validate_node, validate_node, nested, List.forM_eq_forM, List.forM_append, List.forM_map,
    bind_assoc]
  rfl

/-- The statements of a chain are validated one after the other. -/
theorem validate_eq_forM_chain (s : Select) :
    s.validate = forM s.chain fun c => (node c).validate := by
  induction s using Select.induction with
  | step c ih =>
    rw [validate_eq_alone]
    cases hc : c.setOperation with
    | none =>
      rw [chain_of_eq_none hc]
      rfl
    | some arm =>
      have mem : arm.query ∈ c.nested := Clauses.mem_nested.2 (.inr (.inr (.inr ⟨_, hc, rfl⟩)))
      rw [chain_of_eq_some hc, List.forM_cons, ← ih arm.query mem, Option.toList_some,
        List.forM_cons, List.forM_nil, bind_pure_unit]

theorem validate_attach (s : Select) (operator : SetOperator) (next : Select) :
    (s.attach operator next).validate = s.validate >>= fun _ => next.validate := by
  rw [validate_eq_forM_chain, chain_attach, List.forM_append, ← validate_eq_forM_chain,
    ← validate_eq_forM_chain]

/-- Attaching puts the whole chain of the other statement behind the own one, and the statement with
that chain is the only one. Texts are written one after the other, a second attachment may come
first, the verdict of the attached statement comes last, and the columns are those of the own
one. -/
theorem attach_concatenates (s n m : Select) (p q : SetOperator) :
    (∀ t : Select, t = s.attach p n ↔ t.clauses.alone = s.clauses.alone ∧
      t.arms = s.arms ++ (p, n.clauses.alone) :: n.arms) ∧
    (s.attach p n).sql = s.sql ++ " " ++ p.sql ++ " " ++ n.sql ∧
    (s.attach p n).attach q m = s.attach p (n.attach q m) ∧
    (s.attach p n).validate = (s.validate >>= fun _ => n.validate) ∧
    (s.attach p n).clauses.columnCount = s.clauses.columnCount := by
  have count (t : Select) : t.clauses.alone.columnCount = t.clauses.columnCount := rfl
  refine ⟨?_, ?_, attach_attach s n m p q, validate_attach s p n, ?_⟩
  · intro t
    constructor
    · rintro rfl
      exact ⟨alone_attach s p n, arms_attach s p n⟩
    · rintro ⟨alone, arms⟩
      exact eq_of_arms (alone.trans (alone_attach s p n).symm) (arms.trans (arms_attach s p n).symm)
  · rw [sql_attach, ← String.append_assoc, ← String.append_assoc, ← String.append_assoc]
  · rw [← count, alone_attach, count]

/-- The second statement goes behind the arm that is there already. -/
example : ((simple "a" [.star]).attach .union (simple "b" [.star])).attach .except
    (simple "c" [.star]) = (simple "a" [.star]).attach .union
      ((simple "b" [.star]).attach .except (simple "c" [.star])) := rfl

end QueryForge.Select
