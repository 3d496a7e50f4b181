import QueryForge.Proofs.AlterTable.Drawn

/-!
# Pruning

Drawn kinds are pruned once for their table. Those that it can take stay in their order, and a
sampled integer column brings in the identity kinds that are missing.
-/

namespace QueryForge.ActionKind

open Draw

variable {nan : Prop}

/-- The identity kinds, in the order of the catalog. -/
def identityKinds : List ActionKind :=
  [.setIdentity, .setGenerated, .dropIdentity, .restartIdentity]

/-- What a table has that a kind is kept for. -/
structure Suits (t : Table) (k : ActionKind) : Prop where
  supported : k ≠ .setWithOids
  columns : k = .dropColumn → 1 < t.columns.length
  indexes : k = .addConstraintUsingIndex ∨ k = .clusterOn → t.indexes ≠ []
  integer : k ∈ identityKinds → ∃ c ∈ t.columns, c.type.isInteger

theorem requiresIndex_iff {k : ActionKind} :
    k.requiresIndex ↔ k = .addConstraintUsingIndex ∨ k = .clusterOn := by
  cases k <;> decide

theorem isIdentity_iff {k : ActionKind} : k.isIdentity ↔ k ∈ identityKinds := by
  cases k <;> decide

theorem filter_isIdentity : all.filter isIdentity = identityKinds := rfl

theorem identityKinds_nodup : identityKinds.Nodup := by decide

theorem isApplicable_iff {t : Table} {k : ActionKind} : k.isApplicable t ↔ k.Suits t := by
  have indexes : t.hasIndexes ↔ t.indexes ≠ [] := by simp [Table.hasIndexes]
  have integer : t.hasIntegerColumn ↔ ∃ c ∈ t.columns, c.type.isInteger := List.any_eq_true
  unfold isApplicable
  simp only [Bool.and_eq_true, Bool.or_eq_true, Bool.not_eq_true', bne_iff_ne, decide_eq_true_eq,
    isSupported, ← Bool.not_eq_true, requiresIndex_iff, isIdentity_iff, indexes, integer]
  constructor
  · rintro ⟨⟨⟨supported, columns⟩, index⟩, group⟩
    constructor
    · exact supported
    · exact fun h => columns.resolve_left (not_not_intro h)
    · exact fun h => index.resolve_left (not_not_intro h)
    · exact fun h => group.resolve_left (not_not_intro h)
  · intro h
    exact ⟨⟨⟨h.supported, not_or_of_imp h.columns⟩, not_or_of_imp h.indexes⟩,
      not_or_of_imp h.integer⟩

instance (t : Table) (k : ActionKind) : Decidable (k.Suits t) := decidable_of_iff _ isApplicable_iff

theorem filter_isApplicable (t : Table) (kinds : List ActionKind) :
    kinds.filter (isApplicable t) = kinds.filter fun k => k.Suits t :=
  List.filter_congr fun k _ => by rw [Bool.eq_iff_iff, decide_eq_true_iff, isApplicable_iff]

def addMissing (kept : List ActionKind) (k : ActionKind) : List ActionKind :=
  if k ∈ kept then kept else kept ++ [k]

/-- The removals of every table, one after another. -/
def removeUnfit (t : Table) (drawn : List ActionKind) : List ActionKind :=
  let supported := drawn.filter isSupported
  let droppable :=
    if t.columns.length ≤ 1 then supported.filter fun k => k != .dropColumn else supported
  if t.hasIndexes then droppable else droppable.filter fun k => !k.requiresIndex

/-- A table without an integer column is done when the identity kinds are removed as well. Else
those that are missing are added one at a time, if the sampled column is an integer. -/
def pruneInStages (t : Table) (sampled : Option Column) (drawn : List ActionKind) :
    List ActionKind :=
  if t.hasIntegerColumn then
    if sampled.any fun c => c.type.isInteger then
      identityKinds.foldl addMissing (removeUnfit t drawn)
    else removeUnfit t drawn
  else (removeUnfit t drawn).filter fun k => !k.isIdentity

variable {t : Table} {sampled : Option Column} {drawn : List ActionKind}

/-- By induction on the kinds to add: as they are different, an added one is not missing later. -/
theorem foldl_addMissing {group : List ActionKind} (distinct : group.Nodup)
    (kept : List ActionKind) :
    group.foldl addMissing kept = kept ++ group.filter fun k => k ∉ kept := by
  induction group generalizing kept with
  | nil => exact (List.append_nil kept).symm
  | cons k rest ih =>
    obtain ⟨fresh, distinct⟩ := List.nodup_cons.1 distinct
    rw [List.foldl_cons, ih distinct]
    by_cases present : k ∈ kept
    · rw [addMissing, if_pos present, List.filter_cons_of_neg (by simpa using present)]
    · rw [addMissing, if_neg present, List.filter_cons_of_pos (by simpa using present),
        List.append_assoc, List.singleton_append]
      congr 2
      refine List.filter_congr fun other mem => ?_
      have different : other ≠ k := fun same => fresh (same ▸ mem)
      simp [different]

theorem prune_of_integer (integer : sampled.any fun c => c.type.isInteger) :
    prune t sampled drawn = drawn.filter (fun k => k.Suits t) ++
      identityKinds.filter fun k => k ∉ drawn.filter fun k => k.Suits t := by
  unfold prune
  dsimp only
  rw [if_pos integer, filter_isApplicable, ← filter_isIdentity, List.filter_filter]
  congr 1
  refine List.filter_congr fun k _ => ?_
  rw [Bool.and_comm, List.contains_eq_mem, decide_not]

theorem prune_of_not_integer (plain : ¬sampled.any fun c => c.type.isInteger) :
    prune t sampled drawn = drawn.filter fun k => k.Suits t := by
  unfold prune
  dsimp only
  rw [if_neg plain, filter_isApplicable]

theorem mem_prune_of_mem_identityKinds (integer : sampled.any fun c => c.type.isInteger)
    {k : ActionKind} (hk : k ∈ identityKinds) : k ∈ prune t sampled drawn := by
  rw [prune_of_integer integer]
  by_cases present : k ∈ drawn.filter fun k => k.Suits t
  · exact List.mem_append_left _ present
  · exact List.mem_append_right _ (List.mem_filter.2 ⟨hk, decide_eq_true present⟩)

theorem prune_prune (hs : ∀ c, sampled = some c → c ∈ t.columns) :
    prune t sampled (prune t sampled drawn) = prune t sampled drawn := by
  have suited : (prune t sampled drawn).filter (fun k => k.Suits t) = prune t sampled drawn := by
    refine List.filter_eq_self.2 fun k hk => ?_
    exact decide_eq_true (isApplicable_iff.1 (isApplicable_of_mem_prune hs hk))
  by_cases integer : sampled.any fun c => c.type.isInteger
  · rw [prune_of_integer integer, suited]
    have none : identityKinds.filter (fun k => k ∉ prune t sampled drawn) = [] := by
      refine List.filter_eq_nil_iff.2 fun k hk => ?_
      simpa using mem_prune_of_mem_identityKinds integer hk
    rw [none, List.append_nil]
  · rw [prune_of_not_integer integer, suited]

theorem removeUnfit_eq_filter :
    removeUnfit t drawn = drawn.filter fun k =>
      k.isSupported && (k != .dropColumn || 2 ≤ t.columns.length) &&
        (!k.requiresIndex || t.hasIndexes) := by
  unfold removeUnfit
  by_cases single : t.columns.length ≤ 1
  · have columns : ¬2 ≤ t.columns.length := by omega
    cases indexes : t.hasIndexes <;> simp [single, columns, List.filter_filter, Bool.and_comm]
  · have columns : 2 ≤ t.columns.length := by omega
    cases indexes : t.hasIndexes <;> simp [single, columns, List.filter_filter, Bool.and_comm]

theorem pruneInStages_eq_prune (hs : ∀ c, sampled = some c → c ∈ t.columns) :
    pruneInStages t sampled drawn = prune t sampled drawn := by
  unfold pruneInStages
  by_cases column : t.hasIntegerColumn
  · have kept : removeUnfit t drawn = drawn.filter fun k => k.Suits t := by
      rw [removeUnfit_eq_filter, ← filter_isApplicable]
      refine List.filter_congr fun k _ => ?_
      rw [isApplicable, column, Bool.or_true, Bool.and_true]
    rw [if_pos column, kept]
    by_cases integer : sampled.any fun c => c.type.isInteger
    · rw [if_pos integer, foldl_addMissing identityKinds_nodup, prune_of_integer integer]
    · rw [if_neg integer, prune_of_not_integer integer]
  · have plain : ¬sampled.any fun c => c.type.isInteger := by
      intro integer
      obtain ⟨c, same, hc⟩ := (Option.any_eq_true _ _).1 integer
      exact column (List.any_eq_true.2 ⟨c, hs c same, hc⟩)
    rw [if_neg column, removeUnfit_eq_filter, List.filter_filter, prune_of_not_integer plain,
      ← filter_isApplicable]
    refine List.filter_congr fun k _ => ?_
    rw [isApplicable, Bool.eq_false_iff.2 column, Bool.or_false, Bool.and_comm]

/-- The table has an integer column, and the one that was sampled is an integer. -/
def IntegerSampled (t : Table) (sampled : Option Column) : Prop :=
  (∃ c ∈ t.columns, c.type.isInteger) ∧ ∃ c, sampled = some c ∧ c.type.isInteger

/-- What is sampled and kept when different kinds are pruned for a table. -/
structure Pruned (t : Table) (drawn : List ActionKind) (sampled : Option Column)
    (kept : List ActionKind) : Prop where
  sampled_iff : sampled.isSome ↔ ∃ c ∈ t.columns, c.type.isInteger
  sampled_mem : ∀ c, sampled = some c → c ∈ t.columns
  distinct : kept.Nodup
  extended : IntegerSampled t sampled → kept = drawn.filter (fun k => k.Suits t) ++
    identityKinds.filter fun k => k ∉ drawn.filter fun k => k.Suits t
  unextended : ¬IntegerSampled t sampled → kept = drawn.filter fun k => k.Suits t
  stages : kept = pruneInStages t sampled drawn
  again : prune t sampled kept = kept

theorem pruned_prune (distinct : drawn.Nodup)
    (present : sampled.isSome ↔ ∃ c ∈ t.columns, c.type.isInteger)
    (hs : ∀ c, sampled = some c → c ∈ t.columns) :
    Pruned t drawn sampled (prune t sampled drawn) := by
  have integer_iff : (sampled.any fun c => c.type.isInteger) ↔ IntegerSampled t sampled := by
    rw [Option.any_eq_true]
    constructor
    · rintro ⟨c, same, integer⟩
      exact ⟨⟨c, hs c same, integer⟩, c, same, integer⟩
    · exact fun h => h.2
  constructor
  · exact present
  · exact hs
  · exact prune_nodup distinct
  · exact fun h => prune_of_integer (integer_iff.2 h)
  · exact fun h => prune_of_not_integer (mt integer_iff.1 h)
  · exact (pruneInStages_eq_prune hs).symm
  · exact prune_prune hs

/-- The pruning of drawn kinds, with the column that it samples. -/
def randomPruned (t : Table) (drawn : List ActionKind) :
    Draw (Option Column × List ActionKind) := do
  let sampled ← randomSample t
  return (sampled, prune t sampled drawn)

/-- Whatever is sampled, the generator prunes different kinds to those that suit the table, in
their order, followed by the missing identity kinds if an integer column was sampled. -/
theorem pruning_neither_loses_nor_repeats {drawn : List ActionKind} (distinct : drawn.Nodup)
    (t : Table) :
    (∀ o, AlterTableQuery.random t o = do
      let drawn ← randomList o
      let pruned ← randomPruned t drawn
      let actions ← each (DrawnAction.random t o) pruned.2
      return AlterTableQuery.ofDrawn actions) ∧
    (randomPruned t drawn).Ensures False fun pruned => Pruned t drawn pruned.1 pruned.2 := by
  constructor
  · intro o
    unfold AlterTableQuery.random randomPruned
    simp only [AlterTableQuery.randomOf_eq, map_eq_pure_bind, bind_assoc, pure_bind]
  · exact (randomSample_isSome t).bind fun sampled ⟨present, hs⟩ =>
      .pure (pruned_prune distinct present hs)

theorem integer_table_pruning :
    [restartIdentity, dropColumn, notOf].Nodup ∧
      (randomPruned { name := "t", columns := [{ name := "a", type := .int }] }
        [restartIdentity, dropColumn, notOf]).Ensures False fun pruned =>
          Pruned { name := "t", columns := [{ name := "a", type := .int }] }
            [restartIdentity, dropColumn, notOf] pruned.1 pruned.2 :=
  ⟨by decide, (pruning_neither_loses_nor_repeats (by decide)
    { name := "t", columns := [{ name := "a", type := .int }] }).2⟩

example :
    prune { name := "t", columns := [{ name := "a", type := .int }] }
        (some { name := "a", type := .int }) [restartIdentity, dropColumn, notOf] =
      [restartIdentity, notOf, setIdentity, setGenerated, dropIdentity] := by
  decide

end QueryForge.ActionKind
