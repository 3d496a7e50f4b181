import QueryForge.Proofs.AlterTable.Pruning

/-!
# Kinds that yield nothing

Whether a kind yields an action is a matter of the table, and no random choice changes it. A
statement has one fragment for every kept kind that yields one, and there is no statement if none
does.
-/

namespace QueryForge

open Draw

variable {nan : Prop}

namespace ActionKind

/-- Whether the table has what an action of the kind acts on. -/
def HasTarget (t : Table) : ActionKind → Prop
  | .dropColumn | .alterColumnType | .setDropDefault | .setDropNotNull | .setStatistics
  | .setAttributeOption | .resetAttributeOption | .setStorage => t.columns ≠ []
  | .addConstraintUsingIndex | .clusterOn => t.indexes ≠ []
  | .setIdentity | .setGenerated | .dropIdentity | .restartIdentity =>
    ∃ c ∈ t.columns, c.type.isInteger
  | .addConstraint | .validateConstraint | .disableRowSecurity | .enableRowSecurity
  | .forceRowSecurity | .noForceRowSecurity | .setWithoutCluster | .setWithOids | .setWithoutOids
  | .setLoggedUnlogged | .notOf | .ownerTo | .replicaIdentity => True

/-- Three kinds never yield an action, and the others need their target. -/
structure Yields (t : Table) (k : ActionKind) : Prop where
  rendered : k ≠ .setWithOids ∧ k ≠ .setIdentity ∧ k ≠ .setGenerated
  target : k.HasTarget t

instance (t : Table) (k : ActionKind) : Decidable (k.HasTarget t) :=
  match k with
  | .dropColumn | .alterColumnType | .setDropDefault | .setDropNotNull | .setStatistics
  | .setAttributeOption | .resetAttributeOption | .setStorage =>
    inferInstanceAs (Decidable (t.columns ≠ []))
  | .addConstraintUsingIndex | .clusterOn => inferInstanceAs (Decidable (t.indexes ≠ []))
  | .setIdentity | .setGenerated | .dropIdentity | .restartIdentity =>
    inferInstanceAs (Decidable (∃ c ∈ t.columns, c.type.isInteger))
  | .addConstraint | .validateConstraint | .disableRowSecurity | .enableRowSecurity
  | .forceRowSecurity | .noForceRowSecurity | .setWithoutCluster | .setWithOids | .setWithoutOids
  | .setLoggedUnlogged | .notOf | .ownerTo | .replicaIdentity => inferInstanceAs (Decidable True)

theorem yields_iff {t : Table} {k : ActionKind} :
    k.Yields t ↔ (k ≠ .setWithOids ∧ k ≠ .setIdentity ∧ k ≠ .setGenerated) ∧ k.HasTarget t :=
  ⟨fun h => ⟨h.rendered, h.target⟩, fun h => ⟨h.1, h.2⟩⟩

instance (t : Table) (k : ActionKind) : Decidable (k.Yields t) := decidable_of_iff _ yields_iff.symm

theorem yieldsAction_iff {k : ActionKind} :
    k.yieldsAction ↔ k ≠ .setIdentity ∧ k ≠ .setGenerated := by
  cases k <;> decide

theorem yields_dropIdentity {t : Table} (nonempty : t.columns ≠ [])
    (integers : ∀ c ∈ t.columns, c.type.isInteger) : dropIdentity.Yields t := by
  obtain ⟨c, mem⟩ := List.exists_mem_of_ne_nil _ nonempty
  exact ⟨by decide, c, mem, integers c mem⟩

end ActionKind

namespace AlterAction

/-- Something is drawn exactly under a condition, and then it is an action of the kind. -/
structure DecidedBy (condition : Prop) (k : ActionKind) (drawn : Option AlterAction) : Prop where
  isSome_iff : drawn.isSome ↔ condition
  kind : ∀ a, drawn = some a → a.kind = k

variable {k : ActionKind}

theorem decidedBy_some {a : AlterAction} (h : a.kind = k) : DecidedBy True k (some a) :=
  ⟨iff_of_true rfl trivial, fun _ hb => Option.some.inj hb ▸ h⟩

theorem decidedBy_none {condition : Prop} (h : ¬condition) : DecidedBy condition k none :=
  ⟨iff_of_false Bool.false_ne_true h, fun _ ha => nomatch ha⟩

/-- Nothing is drawn only if there is nothing to pick from. -/
theorem pickMaybe_decided {α : Type} (choices : List α) {action : α → Draw AlterAction}
    (h : ∀ c, (action c).Ensures nan fun a => a.kind = k) :
    (pickMaybe choices).Ensures nan fun choice =>
      (choice.elim (return none) fun c => some <$> action c).Ensures nan
        (DecidedBy (choices ≠ []) k) := by
  refine (pickMaybe_ensures choices).mono ?_
  rintro _ (⟨rfl, none⟩ | ⟨c, mem, rfl⟩)
  · exact .pure (decidedBy_none (not_not_intro none))
  · refine (h c).map fun a ha => ?_
    have nonempty := List.ne_nil_of_mem mem
    exact ⟨iff_of_true rfl nonempty, (decidedBy_some ha).kind⟩

theorem onColumn_decided {columns : List Column} {action : Column → Draw AlterAction}
    (h : ∀ c, (action c).Ensures nan fun a => a.kind = k) :
    (onColumn columns action).Ensures nan (DecidedBy (columns ≠ []) k) := by
  refine (pickMaybe_decided columns h).bind fun choice decided => ?_
  cases choice <;> exact decided

theorem onIndex_decided {t : Table} {action : Index → Draw AlterAction}
    (h : ∀ i, (action i).Ensures nan fun a => a.kind = k) :
    (onIndex t action).Ensures nan (DecidedBy (t.indexes ≠ []) k) := by
  refine (pickMaybe_decided t.indexes h).bind fun choice decided => ?_
  cases choice <;> exact decided

theorem onIntegerColumn_decided {t : Table} {action : Column → Draw AlterAction}
    (h : ∀ c, (action c).Ensures nan fun a => a.kind = k) :
    (onColumn t.integerColumns action).Ensures nan
      (DecidedBy (∃ c ∈ t.columns, c.type.isInteger) k) := by
  refine (onColumn_decided h).mono fun drawn decided => ⟨?_, decided.kind⟩
  rw [decided.isSome_iff, Table.integerColumns, ne_eq, List.filter_eq_nil_iff]
  push Not
  rfl

/-- Of the kinds that can yield an action, each draws one exactly if its target exists. -/
theorem random_decided_target (t : Table)
    (rendered : k ≠ .setWithOids ∧ k ≠ .setIdentity ∧ k ≠ .setGenerated) :
    (random t k).Ensures nan (DecidedBy (k.HasTarget t) k) := by
  cases k with
  | dropColumn =>
    refine (chance_ensures even_isChance).bind fun ifExists _ => onColumn_decided fun c => ?_
    exact (sometimes_ensures even_isChance (pick_ensures _)).bind fun behavior _ => .pure rfl
  | alterColumnType =>
    refine onColumn_decided fun c => (chance_ensures even_isChance).bind fun setData _ => ?_
    exact ColumnType.random_ensures.bind fun type _ => .pure rfl
  | setDropDefault =>
    refine onColumn_decided fun c => ?_
    exact (sometimes_ensures even_isChance word32_ensures).bind fun value _ => .pure rfl
  | setDropNotNull =>
    exact onColumn_decided fun c => (chance_ensures even_isChance).bind fun notNull _ => .pure rfl
  | setStatistics =>
    exact onColumn_decided fun c => (within_ensures (by decide)).bind fun target _ => .pure rfl
  | setAttributeOption =>
    exact onColumn_decided fun c => unit_ensures.bind fun x _ => .pure rfl
  | resetAttributeOption => exact onColumn_decided fun c => .pure rfl
  | setStorage =>
    exact onColumn_decided fun c => (randomStorage_ensures c.type).bind fun storage _ => .pure rfl
  | addConstraint =>
    exact randomConstraintName_ensures.bind fun name _ => .pure (decidedBy_some rfl)
  | addConstraintUsingIndex =>
    refine onIndex_decided fun i => randomConstraintName_ensures.bind fun name _ => ?_
    exact (pick_ensures _).bind fun kind _ => .pure rfl
  | clusterOn => exact onIndex_decided fun i => .pure rfl
  | dropIdentity =>
    exact onIntegerColumn_decided fun c =>
      (chance_ensures even_isChance).bind fun ifExists _ => .pure rfl
  | restartIdentity =>
    refine onIntegerColumn_decided fun c => ?_
    exact (sometimes_ensures even_isChance (within_ensures (by decide))).bind fun value _ =>
      .pure rfl
  | setLoggedUnlogged =>
    exact (chance_ensures even_isChance).bind fun logged _ => .pure (decidedBy_some rfl)
  | ownerTo => exact (pick_ensures _).bind fun role _ => .pure (decidedBy_some rfl)
  | replicaIdentity => exact (pick_ensures _).bind fun identity _ => .pure (decidedBy_some rfl)
  | validateConstraint | disableRowSecurity | enableRowSecurity | forceRowSecurity
  | noForceRowSecurity | setWithoutCluster | setWithoutOids | notOf =>
    exact .pure (decidedBy_some rfl)
  | setWithOids => exact absurd rfl rendered.1
  | setIdentity => exact absurd rfl rendered.2.1
  | setGenerated => exact absurd rfl rendered.2.2

theorem random_decided (t : Table) (k : ActionKind) :
    (random t k).Ensures nan (DecidedBy (k.Yields t) k) := by
  by_cases rendered : k ≠ .setWithOids ∧ k ≠ .setIdentity ∧ k ≠ .setGenerated
  · refine (random_decided_target t rendered).mono fun drawn decided => ⟨?_, decided.kind⟩
    rw [decided.isSome_iff, ActionKind.yields_iff, and_iff_right rendered]
  · have none : random t k = return none := by
      obtain rfl | rfl | rfl : k = .setWithOids ∨ k = .setIdentity ∨ k = .setGenerated := by
        simpa only [ne_eq, not_and_or, not_not] using rendered
      all_goals rfl
    rw [none]
    exact .pure (decidedBy_none fun h => rendered h.rendered)

end AlterAction

namespace DrawnAction

/-- What a kept kind gives: a fragment on the table exactly if it yields an action. -/
structure Decided (t : Table) (k : ActionKind) (d : DrawnAction) : Prop where
  isSome_iff : d.fragment.isSome ↔ k.Yields t
  fragment : ∀ f, d.fragment = some f → f.table = t.name ∧ f.action.kind = k

theorem random_decided {o : AlterOptions} (h : o.InRange nan) (t : Table) (k : ActionKind) :
    (DrawnAction.random t o k).Ensures nan (Decided t k) := by
  unfold DrawnAction.random
  by_cases yields : k.yieldsAction
  · rw [if_pos yields]
    refine (chance_ensures h.onlyChance).bind fun only _ => ?_
    refine (AlterAction.random_decided t k).bind fun action decided => .pure ⟨?_, ?_⟩
    · rw [Option.isSome_map]
      exact decided.isSome_iff
    · intro f hf
      obtain ⟨a, drawn, rfl⟩ := Option.map_eq_some_iff.1 hf
      exact ⟨rfl, decided.kind a drawn⟩
  · rw [if_neg yields]
    have never : ¬k.Yields t := fun h => yields (ActionKind.yieldsAction_iff.2 h.rendered.2)
    exact .pure ⟨iff_of_false Bool.false_ne_true never, fun f hf => nomatch hf⟩

/-- By induction on the kept kinds: each one that yields puts its fragment in front. -/
theorem kinds_of_decided {t : Table} {kept : List ActionKind} {actions : List DrawnAction}
    (h : List.Forall₂ (Decided t) kept actions) :
    ((actions.filterMap fragment).map fun f => f.action.kind) =
      kept.filter fun k => k.Yields t := by
  induction h with
  | nil => rfl
  | @cons k d kept actions decided _ ih =>
    by_cases yields : k.Yields t
    · obtain ⟨f, hf⟩ := Option.isSome_iff_exists.1 (decided.isSome_iff.2 yields)
      rw [List.filterMap_cons_some hf, List.map_cons, (decided.fragment f hf).2, ih,
        List.filter_cons_of_pos (by simpa using yields)]
    · have none := Option.not_isSome_iff_eq_none.1 (mt decided.isSome_iff.1 yields)
      rw [List.filterMap_cons_none none, ih, List.filter_cons_of_neg (by simpa using yields)]

end DrawnAction

namespace AlterTableQuery

/-- The outcome of one run fits the kinds that it kept. -/
structure SkippedByTable (t : Table) (kept : List ActionKind) (result : Option AlterTableQuery) :
    Prop where
  none_iff : result = none ↔ ∀ k ∈ kept, ¬k.Yields t
  kinds : ∀ q, result = some q →
    (q.alterTable.fragments.map fun f => f.action.kind) = kept.filter fun k => k.Yields t
  table : ∀ q, result = some q → ∀ f ∈ q.alterTable.fragments, f.table = t.name
  integers : t.columns ≠ [] → (∀ c ∈ t.columns, c.type.isInteger) → result ≠ none

theorem ofDrawn_eq_none_iff {actions : List DrawnAction} :
    ofDrawn actions = none ↔ actions.filterMap DrawnAction.fragment = [] := by
  unfold ofDrawn
  dsimp only
  split
  · next none => exact iff_of_true rfl (List.isEmpty_iff.1 none)
  · next shown => exact iff_of_false (Option.some_ne_none _) (mt List.isEmpty_iff.2 shown)

theorem skippedByTable_of_decided {t : Table} {kept : List ActionKind}
    {actions : List DrawnAction} (h : List.Forall₂ (DrawnAction.Decided t) kept actions)
    (group : t.columns ≠ [] → (∀ c ∈ t.columns, c.type.isInteger) → .dropIdentity ∈ kept) :
    SkippedByTable t kept (ofDrawn actions) := by
  have kinds := DrawnAction.kinds_of_decided h
  have none_iff : ofDrawn actions = none ↔ ∀ k ∈ kept, ¬k.Yields t := by
    rw [ofDrawn_eq_none_iff, ← List.map_eq_nil_iff, kinds, List.filter_eq_nil_iff]
    simp only [decide_eq_true_eq]
  constructor
  · exact none_iff
  · intro q hq
    obtain ⟨-, rfl⟩ := eq_some_of_ofDrawn hq
    exact kinds
  · intro q hq f hf
    obtain ⟨-, rfl⟩ := eq_some_of_ofDrawn hq
    obtain ⟨d, hd, yielded⟩ := List.mem_filterMap.1 hf
    obtain ⟨k, -, decided⟩ := exists_of_forall₂ h d hd
    exact (decided.fragment f yielded).1
  · intro nonempty integers none
    exact none_iff.1 none _ (group nonempty integers)
      (ActionKind.yields_dropIdentity nonempty integers)

end AlterTableQuery

/-- A column sampled from integer columns only is an integer, so the identity kinds are kept. -/
theorem ActionKind.randomKept_integers {o : AlterOptions} (h : o.InRange nan) (t : Table) :
    (randomKept t o).Ensures nan fun kept =>
      t.columns ≠ [] → (∀ c ∈ t.columns, c.type.isInteger) → .dropIdentity ∈ kept := by
  refine (randomList_ensures h).bind fun drawn _ => ?_
  refine (randomSample_isSome t).bind fun sampled ⟨present, mem⟩ => .pure ?_
  intro nonempty integers
  obtain ⟨c, hc⟩ := List.exists_mem_of_ne_nil _ nonempty
  obtain ⟨d, hd⟩ := Option.isSome_iff_exists.1 (present.2 ⟨c, hc, integers c hc⟩)
  have integer : sampled.any fun c => c.type.isInteger := by
    rw [hd]
    exact integers d (mem d hd)
  exact mem_prune_of_mem_identityKinds integer (by decide)

namespace AlterTableQuery

/-- The table alone decides which kinds are skipped. With options in their range, there is nothing
to generate exactly if all kept kinds are skipped, and each of the others gives a fragment. -/
theorem generation_skips_by_table {o : AlterOptions} (h : o.InRange nan) (t : Table) :
    (∀ k, (AlterAction.random t k).Ensures nan fun drawn =>
      (drawn.isSome ↔ k.Yields t) ∧ ∀ a, drawn = some a → a.kind = k) ∧
    Prod.snd <$> randomTraced t o = AlterTableQuery.random t o ∧
    (randomTraced t o).Ensures nan fun run => SkippedByTable t run.1 run.2 := by
  refine ⟨?_, snd_randomTraced t o, ?_⟩
  · intro k
    exact (AlterAction.random_decided t k).mono fun drawn decided =>
      ⟨decided.isSome_iff, decided.kind⟩
  · refine (ActionKind.randomKept_integers h t).bind fun kept group => ?_
    have skipped : (randomOf t o kept).Ensures nan (SkippedByTable t kept) :=
      randomOf_ensures ((each_ensures fun k _ => DrawnAction.random_decided h t k).mono
        fun actions decided => skippedByTable_of_decided decided group)
    exact skipped.bind fun q hq => .pure hq

theorem assorted_generation_skips_by_table :
    Options.broad.alterTable.InRange False ∧ ∀ t ∈ Schema.assorted.tables,
      (randomTraced t Options.broad.alterTable).Ensures False fun run =>
        SkippedByTable t run.1 run.2 := by
  have inRange := (Options.check_eq_ok_iff.1 Options.check_broad).2
  rw [eq_false Options.not_hasNaN_broad.2] at inRange
  exact ⟨inRange, fun t _ => (generation_skips_by_table inRange t).2.2⟩

end AlterTableQuery
end QueryForge
