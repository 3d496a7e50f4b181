import QueryForge.Proofs.Select.Nesting
import QueryForge.Select.With

/-!
# The verdict of validation

Validation meets the statements inside a statement in pre-order: the statement itself, then those in
the queries of its WITH clause, in FROM, in its joins, and in the next arm. It reports the lock of
the first one that locks grouped rows, and it accepts a statement exactly if there is none.
-/

namespace QueryForge

namespace Select

variable {s t : Select} {c : Clauses Select}

/-- The statement is grouped and has a row lock as well. -/
structure LocksGroups (s : Select) (clause : LockingClause) : Prop where
  lock : s.lockingClause = some clause
  grouped : s.groupBy ≠ []

/-- The statement itself, and what is reached from the query of a WITH member, from a subquery in
FROM or in a join, or from the next arm. -/
-- One constructor for each place, since `Clauses.nested` is what validation itself goes by.
inductive Reaches : Select → Select → Prop
  | self (s : Select) : Reaches s s
  | cte {c : Clauses Select} {w : WithClause Select} {cte : Cte Select} {t : Select}
      (withClause : c.withClause = some w) (mem : cte ∈ w.ctes) (inside : Reaches cte.query t) :
      Reaches (.node c) t
  | fromItem {c : Clauses Select} {query : Select} {asName : String} {t : Select}
      (mem : .subquery query asName ∈ c.fromItems) (inside : Reaches query t) : Reaches (.node c) t
  | join {c : Clauses Select} {kind : JoinKind} {query : Select} {asName : String}
      {on : Option Expr} {t : Select} (mem : ⟨kind, .subquery query asName, on⟩ ∈ c.joins)
      (inside : Reaches query t) : Reaches (.node c) t
  | arm {c : Clauses Select} {operator : SetOperator} {query : Select} {t : Select}
      (setOperation : c.setOperation = some ⟨operator, query⟩) (inside : Reaches query t) :
      Reaches (.node c) t

theorem sizeOf_lt_of_mem_nested {q : Select} (h : q ∈ c.nested) : sizeOf q < sizeOf (node c) := by
  have smaller := Clauses.sizeOf_lt_of_mem_nested h
  rw [node.sizeOf_spec]
  omega

/-- The reached statements in the order in which they are met. -/
def preorder : Select → List Select
  | .node c =>
    .node c ::
      (c.ctes.attach.flatMap (fun cte => preorder cte.1.query) ++
        (c.fromItems.flatMap FromItem.nested).attach.flatMap (fun q => preorder q.1) ++
        (c.joins.flatMap fun j => j.item.nested).attach.flatMap (fun q => preorder q.1) ++
        c.setOperation.toList.attach.flatMap fun arm => preorder arm.1.query)
termination_by s => sizeOf s
decreasing_by
  · exact sizeOf_lt_of_mem_nested (Clauses.mem_nested.2 (.inl ⟨_, cte.2, rfl⟩))
  · exact sizeOf_lt_of_mem_nested (Clauses.mem_nested.2 (.inr (.inl (List.mem_flatMap.1 q.2))))
  · exact sizeOf_lt_of_mem_nested
      (Clauses.mem_nested.2 (.inr (.inr (.inl (List.mem_flatMap.1 q.2)))))
  · exact sizeOf_lt_of_mem_nested
      (Clauses.mem_nested.2 (.inr (.inr (.inr ⟨_, Option.mem_toList.1 arm.2, rfl⟩))))

theorem preorder_node (c : Clauses Select) :
    (node c).preorder = .node c ::
      (c.ctes.flatMap (fun cte => cte.query.preorder) ++
        (c.fromItems.flatMap FromItem.nested).flatMap preorder ++
        (c.joins.flatMap fun j => j.item.nested).flatMap preorder ++
        c.setOperation.toList.flatMap fun arm => arm.query.preorder) := by
  rw [preorder]
  simp only [List.flatMap_subtype, List.unattach_attach]

theorem preorder_eq_nested (c : Clauses Select) :
    (node c).preorder = .node c :: c.nested.flatMap preorder := by
  rw [preorder_node, Clauses.nested, List.flatMap_append, List.flatMap_append, List.flatMap_append,
    List.flatMap_map, List.flatMap_map]

theorem Reaches.contains (h : s.Reaches t) : s.Contains t := by
  induction h with
  | self s => exact .self s
  | cte withClause mem _ ih =>
    refine .nested (Clauses.mem_nested.2 (.inl ⟨_, ?_, rfl⟩)) ih
    exact Clauses.mem_ctes.2 ⟨_, withClause, mem⟩
  | fromItem mem _ ih =>
    exact .nested (Clauses.mem_nested.2 (.inr (.inl ⟨_, mem, List.mem_singleton_self _⟩))) ih
  | join mem _ ih =>
    exact .nested (Clauses.mem_nested.2 (.inr (.inr (.inl ⟨_, mem, List.mem_singleton_self _⟩)))) ih
  | arm setOperation _ ih =>
    exact .nested (Clauses.mem_nested.2 (.inr (.inr (.inr ⟨_, setOperation, rfl⟩)))) ih

theorem Contains.reaches (h : s.Contains t) : s.Reaches t := by
  induction h with
  | self s => exact .self s
  | @nested s q t mem _ ih =>
    obtain ⟨c⟩ := s
    rcases Clauses.mem_nested.1 mem with ⟨cte, hc, rfl⟩ | ⟨i, hi, hq⟩ | ⟨j, hj, hq⟩ | ⟨arm, ha, rfl⟩
    · obtain ⟨w, hw, mem⟩ := Clauses.mem_ctes.1 hc
      exact .cte hw mem ih
    · cases i with
      | table => exact nomatch hq
      | subquery query asName =>
        obtain rfl := List.mem_singleton.1 hq
        exact .fromItem hi ih
    · obtain ⟨kind, item, on⟩ := j
      cases item with
      | table => exact nomatch hq
      | subquery query asName =>
        obtain rfl := List.mem_singleton.1 hq
        exact .join hj ih
    · exact .arm ha ih

theorem mem_preorder_iff : t ∈ s.preorder ↔ s.Reaches t := by
  refine Iff.trans ?_ ⟨Contains.reaches, Reaches.contains⟩
  induction s using Select.induction with
  | step c ih =>
    rw [preorder_eq_nested, List.mem_cons, List.mem_flatMap]
    constructor
    · rintro (rfl | ⟨q, mem, ht⟩)
      · exact .self _
      · exact .nested mem ((ih q mem).1 ht)
    · intro h
      cases h with
      | self => exact .inl rfl
      | nested mem inside => exact .inr ⟨_, mem, (ih _ mem).2 inside⟩

section Checks

variable {α β : Type} {check : α → Except BuildError Unit} {items : List α}

/-- The first check that fails gives the error. -/
theorem forM_eq_error_iff {e : BuildError} :
    forM items check = .error e ↔ ∃ before a after, items = before ++ a :: after ∧
      (∀ b ∈ before, check b = .ok ()) ∧ check a = .error e := by
  induction items with
  | nil =>
    constructor
    · intro h
      exact nomatch h
    · rintro ⟨before, a, after, same, -⟩
      exact absurd same.symm (by simp)
  | cons first rest ih =>
    rw [List.forM_cons]
    cases hf : check first with
    | error e' =>
      constructor
      · intro h
        exact ⟨[], first, rest, rfl, fun _ hb => (nomatch hb), hf.trans h⟩
      · rintro ⟨before, a, after, same, passed, failed⟩
        cases before with
        | nil =>
          obtain ⟨rfl, -⟩ := List.cons.inj same
          exact hf.symm.trans failed
        | cons b before =>
          obtain ⟨rfl, -⟩ := List.cons.inj same
          exact nomatch hf.symm.trans (passed _ List.mem_cons_self)
    | ok =>
      refine ih.trans ⟨?_, ?_⟩
      · rintro ⟨before, a, after, rfl, passed, failed⟩
        exact ⟨first :: before, a, after, rfl, List.forall_mem_cons.2 ⟨hf, passed⟩, failed⟩
      · rintro ⟨before, a, after, same, passed, failed⟩
        cases before with
        | nil =>
          obtain ⟨rfl, -⟩ := List.cons.inj same
          exact nomatch hf.symm.trans failed
        | cons b before =>
          obtain ⟨rfl, rfl⟩ := List.cons.inj same
          exact ⟨before, a, after, rfl, (List.forall_mem_cons.1 passed).2, failed⟩

theorem forM_eq_forM_flatMap {row : β → List α} {whole : β → Except BuildError Unit}
    {groups : List β} (h : ∀ b ∈ groups, whole b = forM (row b) check) :
    forM groups whole = forM (groups.flatMap row) check := by
  induction groups with
  | nil => rfl
  | cons b rest ih =>
    obtain ⟨first, others⟩ := List.forall_mem_cons.1 h
    rw [List.flatMap_cons, List.forM_append, List.forM_cons, first, ih others]

end Checks

/-- The rule of one statement, apart from those inside. -/
def checkOwn (s : Select) : Except BuildError Unit :=
  checkLocking s.clauses.modifier s.clauses.groupBy

theorem checkOwn_of_locksGroups {clause : LockingClause} (h : s.LocksGroups clause) :
    s.checkOwn = .error (.lockingWithGroupBy clause) := by
  have modifier : s.clauses.modifier = .locked clause := by
    have lock : s.clauses.modifier.lockingClause = some clause := h.lock
    cases hm : s.clauses.modifier with
    | locked other =>
      rw [hm] at lock
      exact congrArg SelectModifier.locked (Option.some.inj lock)
    | all => exact nomatch hm ▸ lock
    | distinct on => exact nomatch hm ▸ lock
  rw [checkOwn, modifier]
  exact if_neg (mt List.isEmpty_iff.1 h.grouped)

theorem checkOwn_of_not_locksGroups (h : ∀ clause, ¬ s.LocksGroups clause) :
    s.checkOwn = .ok () := by
  unfold checkOwn
  cases hm : s.clauses.modifier with
  | all => rfl
  | distinct on => rfl
  | locked clause =>
    have lock : s.lockingClause = some clause := congrArg SelectModifier.lockingClause hm
    by_cases ungrouped : s.groupBy = []
    · exact if_pos (List.isEmpty_iff.2 ungrouped)
    · exact absurd ⟨lock, ungrouped⟩ (h clause)

theorem checkOwn_eq_ok_iff : s.checkOwn = .ok () ↔ ∀ clause, ¬ s.LocksGroups clause := by
  constructor
  · intro passed clause locked
    exact nomatch passed.symm.trans (checkOwn_of_locksGroups locked)
  · exact checkOwn_of_not_locksGroups

theorem checkOwn_eq_error_iff {e : BuildError} :
    s.checkOwn = .error e ↔ ∃ clause, s.LocksGroups clause ∧ e = .lockingWithGroupBy clause := by
  constructor
  · intro failed
    by_cases locked : ∃ clause, s.LocksGroups clause
    · obtain ⟨clause, locked⟩ := locked
      have reported := failed.symm.trans (checkOwn_of_locksGroups locked)
      exact ⟨clause, locked, Except.error.inj reported⟩
    · exact nomatch failed.symm.trans (checkOwn_of_not_locksGroups (not_exists.1 locked))
  · rintro ⟨clause, locked, rfl⟩
    exact checkOwn_of_locksGroups locked

theorem validate_eq_forM_preorder (s : Select) : s.validate = forM s.preorder checkOwn := by
  induction s using Select.induction with
  | step c ih =>
    rw [validate_node, preorder_eq_nested, List.forM_cons, ← forM_eq_forM_flatMap ih,
      List.forM_eq_forM]
    rfl

theorem validate_eq_ok_iff_reaches :
    s.validate = .ok () ↔ ∀ t, s.Reaches t → ∀ clause, ¬ t.LocksGroups clause := by
  rw [validate_eq_forM_preorder]
  refine forM_eq_ok_iff.trans (forall_congr' fun t => ?_)
  rw [mem_preorder_iff, checkOwn_eq_ok_iff]

theorem validate_eq_error_iff {e : BuildError} :
    s.validate = .error e ↔ ∃ before t after clause, s.preorder = before ++ t :: after ∧
      (∀ b ∈ before, ∀ clause, ¬ b.LocksGroups clause) ∧ t.LocksGroups clause ∧
      e = .lockingWithGroupBy clause := by
  simp only [validate_eq_forM_preorder, forM_eq_error_iff, checkOwn_eq_ok_iff,
    checkOwn_eq_error_iff, exists_and_left]

end Select

/-- An expression with a name is built from its query exactly if that is valid. -/
theorem Cte.build_of_named {name : String} (named : name ≠ "") (columnAliases : List String)
    (query : Select) (columns : List Column) :
    Cte.build name columnAliases query columns =
      query.validate.map fun _ => ⟨name, columnAliases, query, columns⟩ := by
  have some : name.isEmpty = false := by simpa using named
  unfold Cte.build
  rw [some]
  cases query.validate <;> rfl

namespace Select

/-- A statement is valid exactly if it reaches no statement that locks grouped rows. Otherwise the
verdict is the lock of the first one in pre-order, which lists the reached statements, and no named
expression can be built from it for the same reason. -/
theorem validate_first_offender (s : Select) :
    (s.validate = .ok () ↔ ∀ t, s.Reaches t → ∀ clause, ¬ t.LocksGroups clause) ∧
    (∀ e, s.validate = .error e ↔ ∃ before t after clause, s.preorder = before ++ t :: after ∧
      (∀ b ∈ before, ∀ clause, ¬ b.LocksGroups clause) ∧ t.LocksGroups clause ∧
      e = .lockingWithGroupBy clause) ∧
    (∀ t, t ∈ s.preorder ↔ s.Reaches t) ∧
    ∀ name columnAliases columns, name ≠ "" →
      (Cte.build name columnAliases s columns = .ok ⟨name, columnAliases, s, columns⟩ ↔
        ∀ t, s.Reaches t → ∀ clause, ¬ t.LocksGroups clause) ∧
      ∀ e, Cte.build name columnAliases s columns = .error e ↔ s.validate = .error e := by
  refine ⟨validate_eq_ok_iff_reaches, fun e => validate_eq_error_iff, fun t => mem_preorder_iff, ?_⟩
  intro name columnAliases columns named
  rw [Cte.build_of_named named, ← validate_eq_ok_iff_reaches]
  cases s.validate with
  | ok => exact ⟨iff_of_true rfl rfl, fun e => iff_of_false nofun nofun⟩
  | error e' =>
    refine ⟨iff_of_false nofun nofun, fun e => ?_⟩
    exact ⟨fun h => congrArg _ (Except.error.inj h), fun h => congrArg _ (Except.error.inj h)⟩

/-- Two locked groupings: one in a subquery of the second WITH member, and one that is joined, which
is nearer to the top but met later. -/
def twiceLocked : Select :=
  let locking (clause : LockingClause) : Select :=
    .node { modifier := .locked clause, groupBy := [.truth] }
  let member : Select := .node { fromItems := [.subquery (locking .share) "q"] }
  .node
    { withClause := some ⟨[⟨"a", [], simple "t" [.star], []⟩, ⟨"b", [], member, []⟩]⟩
      joins := [⟨.cross, .subquery (locking .update) "r", none⟩] }

theorem twiceLocked_first_offender :
    "c" ≠ "" ∧ twiceLocked.validate = .error (.lockingWithGroupBy .share) ∧
      Cte.build "c" [] twiceLocked [] = .error (.lockingWithGroupBy .share) ∧
      ∃ t, twiceLocked.Reaches t ∧ t.LocksGroups .share := by
  have verdict : twiceLocked.validate = .error (.lockingWithGroupBy .share) := rfl
  obtain ⟨-, refused, met, build⟩ := validate_first_offender twiceLocked
  have named : "c" ≠ "" := by decide
  refine ⟨named, verdict, ((build "c" [] [] named).2 _).2 verdict, ?_⟩
  obtain ⟨before, t, after, clause, row, -, locked, reported⟩ := (refused _).1 verdict
  obtain rfl : LockingClause.share = clause := BuildError.lockingWithGroupBy.inj reported
  have mem : t ∈ twiceLocked.preorder := by simp [row]
  exact ⟨t, (met t).1 mem, locked⟩

end Select
end QueryForge
