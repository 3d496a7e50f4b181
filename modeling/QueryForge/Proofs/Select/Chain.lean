import QueryForge.Proofs.Select.Built

/-!
# Chains of set operations

A statement and the arms behind it are written one after the other without parentheses. There a
clause that ends a statement is misplaced in front of an operator, and a WITH clause behind one.
No setter looks at the chain, so that it is up to the caller to keep these places free.
-/

namespace QueryForge

/-- A statement that an operator may follow: it does not end with any of the last clauses. -/
structure Clauses.Continuable (c : Clauses Select) : Prop where
  orderBy : c.orderBy = []
  limit : c.limit = none
  offset : c.offset = none
  lock : c.modifier.lockingClause = none

/-- The statement without what follows it. -/
def Clauses.alone (c : Clauses Select) : Clauses Select := { c with setOperation := none }

theorem Clauses.continuable_alone {c : Clauses Select} : c.alone.Continuable ↔ c.Continuable := by
  constructor <;> exact fun h => ⟨h.orderBy, h.limit, h.offset, h.lock⟩

namespace Select

variable {s t : Select} {c : Clauses Select}

/-- The statements of the chain in the order in which they are written. -/
def chain : Select → List (Clauses Select)
  | .node c@{ setOperation := some ⟨_, arm⟩, .. } => c.alone :: arm.chain
  | .node c@{ setOperation := none, .. } => [c.alone]

/-- The clauses that end a statement are only in the last one, and a WITH clause is only in the
first. -/
structure Grammatical (s : Select) : Prop where
  continued : ∀ c ∈ s.chain.dropLast, c.Continuable
  headless : ∀ c ∈ s.chain.tail, c.withClause = none

theorem chain_of_eq_none (h : c.setOperation = none) : (node c).chain = [c.alone] := by
  cases c
  subst h
  rw [chain]

theorem chain_of_eq_some {arm : SetOperation Select} (h : c.setOperation = some arm) :
    (node c).chain = c.alone :: arm.query.chain := by
  cases c
  subst h
  rw [chain]

theorem exists_chain_eq (s : Select) : ∃ rest, s.chain = s.clauses.alone :: rest := by
  obtain ⟨c⟩ := s
  cases h : c.setOperation with
  | none => exact ⟨[], chain_of_eq_none h⟩
  | some arm => exact ⟨arm.query.chain, chain_of_eq_some h⟩

theorem chain_ne_nil (s : Select) : s.chain ≠ [] := by
  obtain ⟨rest, same⟩ := s.exists_chain_eq
  rw [same]
  exact List.cons_ne_nil _ _

theorem chain_attach (s : Select) (operator : SetOperator) (next : Select) :
    (s.attach operator next).chain = s.chain ++ next.chain := by
  induction s using Select.induction with
  | step c ih =>
    cases hc : c.setOperation with
    | none =>
      rw [attach_of_eq_none hc, chain_of_eq_none hc, chain_of_eq_some rfl]
      rfl
    | some arm =>
      obtain ⟨first, arm⟩ := arm
      have mem : arm ∈ c.nested := Clauses.mem_nested.2 (.inr (.inr (.inr ⟨_, hc, rfl⟩)))
      rw [attach_of_eq_some hc, chain_of_eq_some hc, chain_of_eq_some rfl, ih arm mem]
      rfl

/-- The last statement of the chain. -/
def last (s : Select) : Clauses Select := s.chain.getLast s.chain_ne_nil

theorem grammatical_of_eq_none (h : c.setOperation = none) : (node c).Grammatical := by
  have single := chain_of_eq_none h
  constructor <;> simp [single]

/-- Only an arm makes demands on the statement in front of it. -/
theorem grammatical_node_iff : (node c).Grammatical ↔ ∀ arm, c.setOperation = some arm →
    c.Continuable ∧ arm.query.clauses.withClause = none ∧ arm.query.Grammatical := by
  cases h : c.setOperation with
  | none =>
    constructor
    · intro _ arm ha
      exact nomatch ha
    · intro _
      exact grammatical_of_eq_none h
  | some arm =>
    obtain ⟨rest, same⟩ := arm.query.exists_chain_eq
    have chain : (node c).chain = c.alone :: arm.query.clauses.alone :: rest :=
      (chain_of_eq_some h).trans (congrArg _ same)
    constructor
    · rintro ⟨continued, headless⟩ _ ⟨⟩
      rw [chain, List.dropLast_cons_cons, List.forall_mem_cons, ← same] at continued
      rw [chain, List.tail_cons, List.forall_mem_cons] at headless
      refine ⟨Clauses.continuable_alone.1 continued.1, headless.1, continued.2, ?_⟩
      rw [same]
      exact headless.2
    · intro h
      obtain ⟨here, first, inside⟩ := h arm rfl
      constructor
      · rw [chain, List.dropLast_cons_cons, List.forall_mem_cons, ← same]
        exact ⟨Clauses.continuable_alone.2 here, inside.continued⟩
      · have rest := inside.headless
        rw [same] at rest
        rw [chain, List.tail_cons, List.forall_mem_cons]
        exact ⟨first, rest⟩

theorem forall_mem_chain_iff_last {P : Clauses Select → Prop} (s : Select) :
    (∀ c ∈ s.chain, P c) ↔ (∀ c ∈ s.chain.dropLast, P c) ∧ P s.last := by
  have parts : s.chain.dropLast ++ [s.last] = s.chain :=
    List.dropLast_concat_getLast s.chain_ne_nil
  rw [← List.forall_mem_singleton (p := P), ← List.forall_mem_append, parts]

theorem forall_mem_chain_iff_first {P : Clauses Select → Prop} (s : Select) :
    (∀ c ∈ s.chain, P c) ↔ P s.clauses.alone ∧ ∀ c ∈ s.chain.tail, P c := by
  obtain ⟨rest, same⟩ := s.exists_chain_eq
  rw [same, List.forall_mem_cons, List.tail_cons]

/-- The seam of two chains is between the last statement of one and the first of the other. -/
theorem grammatical_attach_iff (s : Select) (operator : SetOperator) (next : Select) :
    (s.attach operator next).Grammatical ↔ s.Grammatical ∧ next.Grammatical ∧
      s.last.Continuable ∧ next.clauses.withClause = none := by
  have continued : (∀ c ∈ (s.attach operator next).chain.dropLast, c.Continuable) ↔
      ((∀ c ∈ s.chain.dropLast, c.Continuable) ∧ s.last.Continuable) ∧
        ∀ c ∈ next.chain.dropLast, c.Continuable := by
    rw [chain_attach, List.dropLast_append_of_ne_nil next.chain_ne_nil, List.forall_mem_append,
      forall_mem_chain_iff_last]
  have headless : (∀ c ∈ (s.attach operator next).chain.tail, c.withClause = none) ↔
      (∀ c ∈ s.chain.tail, c.withClause = none) ∧
        next.clauses.withClause = none ∧ ∀ c ∈ next.chain.tail, c.withClause = none := by
    rw [chain_attach, List.tail_append_of_ne_nil s.chain_ne_nil, List.forall_mem_append,
      forall_mem_chain_iff_first]
    rfl
  constructor
  · rintro ⟨c, h⟩
    obtain ⟨⟨front, last⟩, back⟩ := continued.1 c
    obtain ⟨front', first, back'⟩ := headless.1 h
    exact ⟨⟨front, front'⟩, ⟨back, back'⟩, last, first⟩
  · rintro ⟨⟨front, front'⟩, ⟨back, back'⟩, last, first⟩
    exact ⟨continued.2 ⟨⟨front, last⟩, back⟩, headless.2 ⟨front', first, back'⟩⟩

theorem sql_eq_alone (c : Clauses Select) : (node c).sql = (node c.alone).sql ++
    Sql.optional c.setOperation fun a => " " ++ a.operator.sql ++ " " ++ a.query.sql := by
  have parts (d : Clauses String) : d.sql = { d with setOperation := none }.sql ++
      Sql.optional d.setOperation SetOperation.sql := by
    change _ ++ _ = (_ ++ "") ++ _
    rw [String.append_empty]
    rfl
  have here : (node c).sql = (c.map sql).sql := fold_node ..
  have alone : (node c.alone).sql = (c.alone.map sql).sql := fold_node ..
  have front : { c.map sql with setOperation := none } = c.alone.map sql := rfl
  have back : Sql.optional (c.map sql).setOperation SetOperation.sql =
      Sql.optional c.setOperation fun a => " " ++ a.operator.sql ++ " " ++ a.query.sql := by
    unfold Clauses.map
    cases c.setOperation <;> rfl
  rw [here, alone, parts, front, back]

/-- The text of an attached statement follows without parentheses. -/
theorem sql_attach (s : Select) (operator : SetOperator) (next : Select) :
    (s.attach operator next).sql = s.sql ++ (" " ++ operator.sql ++ " " ++ next.sql) := by
  induction s using Select.induction with
  | step c ih =>
    cases hc : c.setOperation with
    | none =>
      rw [attach_of_eq_none hc, sql_eq_alone, sql_eq_alone c, hc]
      simp [Sql.optional, Clauses.alone]
    | some arm =>
      obtain ⟨first, arm⟩ := arm
      have mem : arm ∈ c.nested := Clauses.mem_nested.2 (.inr (.inr (.inr ⟨_, hc, rfl⟩)))
      rw [attach_of_eq_some hc, sql_eq_alone, sql_eq_alone c, hc]
      simp [Sql.optional, Clauses.alone, ih arm mem, String.append_assoc]

/-- A call that does not misplace anything. What goes in front of an operator is none of the last
clauses, and what goes behind one is without a WITH clause. -/
def Admits (s : Select) : SelectCall → Prop
  | .guarded call => s.hasSetOperation →
    ∀ clause, call = .lock (some clause) → s.selectOption = .distinct ∨ s.groupBy ≠ []
  | .orderBy terms => s.hasSetOperation → terms = []
  | .limit limit => s.hasSetOperation → limit = none
  | .offset offset => s.hasSetOperation → offset = none
  | .attach _ next => next.Grammatical ∧ s.last.Continuable ∧ next.clauses.withClause = none
  | _ => True

theorem Grammatical.continuable (h : s.Grammatical) (more : s.hasSetOperation) :
    s.clauses.Continuable := by
  obtain ⟨c⟩ := s
  obtain ⟨arm, ha⟩ := Option.isSome_iff_exists.1 more
  exact (grammatical_node_iff.1 h arm ha).1

/-- A statement with the same arms is looked at itself only. -/
theorem Grammatical.grammatical_iff (h : s.Grammatical)
    (arms : t.clauses.setOperation = s.clauses.setOperation) :
    t.Grammatical ↔ (s.hasSetOperation → t.clauses.Continuable) := by
  obtain ⟨c⟩ := s
  obtain ⟨d⟩ := t
  change d.setOperation = c.setOperation at arms
  constructor
  · intro ht more
    obtain ⟨arm, ha⟩ := Option.isSome_iff_exists.1 more
    exact (grammatical_node_iff.1 ht arm (arms.trans ha)).1
  · intro here
    refine grammatical_node_iff.2 fun arm ha => ?_
    have ha := arms.symm.trans ha
    exact ⟨here (Option.isSome_iff_exists.2 ⟨arm, ha⟩), (grammatical_node_iff.1 h arm ha).2⟩

/-- A call keeps a statement grammatical exactly if it is admitted. -/
theorem Grammatical.afterCall_iff (h : s.Grammatical) (c : SelectCall) :
    (s.afterCall c).Grammatical ↔ s.Admits c := by
  cases c with
  | attach operator next =>
    refine (grammatical_attach_iff s operator next).trans ?_
    exact and_iff_right h
  | guarded call =>
    obtain ⟨modifier, groupBy, same⟩ := s.attempt_writes call
    change (s.attempt call).2.Grammatical ↔ _
    refine (h.grammatical_iff (congrArg (fun t => t.clauses.setOperation) same)).trans
      (forall_congr' fun more => ?_)
    have old := h.continuable more
    have lock := ClauseFields.lock_after (f := s.fields) old.lock call
    rw [← fields_attempt] at lock
    refine Iff.trans ⟨fun new => new.lock, fun none => ?_⟩ lock
    have none : (s.attempt call).2.clauses.modifier.lockingClause = _ := none
    rw [same] at none ⊢
    exact ⟨old.orderBy, old.limit, old.offset, none⟩
  | orderBy terms =>
    have arms : (s.setOrderBy terms).clauses.setOperation = s.clauses.setOperation := rfl
    refine (h.grammatical_iff arms).trans (forall_congr' fun more => ?_)
    have old := h.continuable more
    exact ⟨fun new => new.orderBy, fun none => ⟨none, old.limit, old.offset, old.lock⟩⟩
  | limit limit =>
    have arms : (s.setLimit limit).clauses.setOperation = s.clauses.setOperation := rfl
    refine (h.grammatical_iff arms).trans (forall_congr' fun more => ?_)
    have old := h.continuable more
    exact ⟨fun new => new.limit, fun none => ⟨old.orderBy, none, old.offset, old.lock⟩⟩
  | offset offset =>
    have arms : (s.setOffset offset).clauses.setOperation = s.clauses.setOperation := rfl
    refine (h.grammatical_iff arms).trans (forall_congr' fun more => ?_)
    have old := h.continuable more
    exact ⟨fun new => new.offset, fun none => ⟨old.orderBy, old.limit, none, old.lock⟩⟩
  | withClause | columns | windowFunctions | windowDefinition | fromItems | joins | filter
  | having =>
    refine iff_of_true ((h.grammatical_iff ?_).2 fun more => ?_) trivial
    · rfl
    · have old := h.continuable more
      exact ⟨old.orderBy, old.limit, old.offset, old.lock⟩

/-- A statement as a constructor leaves it. -/
def IsNew (s : Select) : Prop := s = .empty ∨ ∃ table columns, s = .simple table columns

theorem IsNew.grammatical (h : s.IsNew) : s.Grammatical := by
  rcases h with rfl | ⟨table, columns, rfl⟩
  · exact grammatical_of_eq_none rfl
  · exact grammatical_of_eq_none rfl

/-- Built statements are what runs of calls make of new ones. -/
theorem Built.exists_run (h : s.Built) :
    ∃ start, start.IsNew ∧ ∃ calls : List SelectCall, s = calls.foldl afterCall start := by
  refine Built.induction ?_ ?_ ?_ h
  · exact ⟨.empty, .inl rfl, [], rfl⟩
  · intro table columns
    exact ⟨.simple table columns, .inr ⟨table, columns, rfl⟩, [], rfl⟩
  · rintro _ c ⟨start, new, calls, rfl⟩
    refine ⟨start, new, calls ++ [c], ?_⟩
    rw [List.foldl_append]
    rfl

/-- Every call is admitted by the statement that it meets. -/
def AdmitsAll : Select → List SelectCall → Prop
  | _, [] => True
  | s, c :: rest => s.Admits c ∧ (s.afterCall c).AdmitsAll rest

theorem forall_scanl_grammatical_iff (start : Select) (calls : List SelectCall) :
    (∀ s ∈ calls.scanl afterCall start, s.Grammatical) ↔
      start.Grammatical ∧ start.AdmitsAll calls := by
  induction calls generalizing start with
  | nil =>
    rw [List.scanl_nil, List.forall_mem_singleton]
    exact (and_iff_left trivial).symm
  | cons c rest ih =>
    rw [List.scanl_cons, List.forall_mem_cons, ih]
    exact and_congr_right fun h => and_congr_left fun _ => h.afterCall_iff c

/-- A run from a grammatical statement stays grammatical exactly if each of its calls is admitted,
and every built statement is the end of a run from a new one. -/
theorem calls_grammatical_iff (start : Select) (calls : List SelectCall) :
    ((∀ s ∈ calls.scanl afterCall start, s.Grammatical) ↔
        start.Grammatical ∧ start.AdmitsAll calls) ∧
      (start.IsNew → start.Grammatical) ∧
      (∀ s : Select, s.Built →
        ∃ new : Select, new.IsNew ∧ ∃ run : List SelectCall, s = run.foldl afterCall new) ∧
      ∀ operator next, (start.attach operator next).sql =
        start.sql ++ (" " ++ operator.sql ++ " " ++ next.sql) := by
  refine ⟨forall_scanl_grammatical_iff start calls, IsNew.grammatical, ?_, start.sql_attach⟩
  intro s built
  exact built.exists_run

/-- A limited statement with a second arm. -/
def limitedFirst : Select :=
  ((simple "t0" [.star]).afterCall (.limit (some 1))).afterCall
    (.attach .union (simple "t1" [.star]))

theorem limitedFirst_not_grammatical :
    limitedFirst.Built ∧ limitedFirst.sql = "SELECT * FROM t0 LIMIT 1 UNION SELECT * FROM t1" ∧
      ¬ limitedFirst.Grammatical := by
  have limited : ((simple "t0" [.star]).afterCall (.limit (some 1))).Built :=
    .call (.simple _ _) (by simp [SelectCall.statements]) (by simp [SelectCall.withClause?])
  refine ⟨.call limited ?_ ?_, by decide +kernel, ?_⟩
  · intro q hq
    rw [List.mem_singleton.1 hq]
    exact .simple _ _
  · simp [SelectCall.withClause?]
  · intro h
    have unlimited : limitedFirst.clauses.limit = none := (h.continuable rfl).limit
    exact Option.some_ne_none 1 unlimited

end Select
end QueryForge
