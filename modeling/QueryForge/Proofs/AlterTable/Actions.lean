import QueryForge.AlterTable.Random
import QueryForge.Proofs.Draw.Choice
import QueryForge.Proofs.Literal
import QueryForge.Proofs.Options

/-!
# What random actions are

Every action tells which kind it came from, and it targets what its table has. The kinds that are
kept for a statement are different and applicable to the table.
-/

namespace QueryForge

open Draw

variable {nan : Prop}

namespace Table

def HasColumn (t : Table) (name : String) : Prop := ∃ c ∈ t.columns, c.name = name

def HasIntegerColumn (t : Table) (name : String) : Prop :=
  ∃ c ∈ t.columns, c.name = name ∧ c.type.isInteger

def HasIndex (t : Table) (name : String) : Prop := ∃ i ∈ t.indexes, i.name = name

end Table

namespace AlterAction

def kind : AlterAction → ActionKind
  | .dropColumn .. => .dropColumn
  | .alterColumnType .. => .alterColumnType
  | .columnDefault .. => .setDropDefault
  | .columnNotNull .. => .setDropNotNull
  | .setStatistics .. => .setStatistics
  | .setAttributeOption .. => .setAttributeOption
  | .resetAttributeOption _ => .resetAttributeOption
  | .setStorage .. => .setStorage
  | .addCheckConstraint _ => .addConstraint
  | .addConstraintUsingIndex .. => .addConstraintUsingIndex
  | .validateConstraint _ => .validateConstraint
  | .rowSecurity .disable => .disableRowSecurity
  | .rowSecurity .enable => .enableRowSecurity
  | .rowSecurity .force => .forceRowSecurity
  | .rowSecurity .noForce => .noForceRowSecurity
  | .clusterOn _ => .clusterOn
  | .setWithoutCluster => .setWithoutCluster
  | .setWithoutOids => .setWithoutOids
  | .setLogged _ => .setLoggedUnlogged
  | .notOf => .notOf
  | .ownerTo _ => .ownerTo
  | .replicaIdentity _ => .replicaIdentity
  | .dropIdentity .. => .dropIdentity
  | .restartIdentity .. => .restartIdentity

/-- The letter c and decimal digits. -/
def IsConstraintName (name : String) : Prop :=
  ∃ digits, name.toList = 'c' :: digits ∧ digits ≠ [] ∧ ∀ d ∈ digits, d.isDigit

/-- The targets of an action belong to the table, and its numbers are in range. -/
def LegalFor (t : Table) : AlterAction → Prop
  | .dropColumn _ column _ => 2 ≤ t.columns.length ∧ t.HasColumn column
  | .alterColumnType column _ _ => t.HasColumn column
  | .columnDefault column value =>
    t.HasColumn column ∧
      ∀ v, value = some v → -2147483648 ≤ v.toInt ∧ v.toInt ≤ 2147483647
  | .columnNotNull column _ => t.HasColumn column
  | .setStatistics column target =>
    t.HasColumn column ∧ -1 ≤ target.toInt ∧ target.toInt ≤ 10000
  | .setAttributeOption column _ => t.HasColumn column
  | .resetAttributeOption column => t.HasColumn column
  | .setStorage column storage =>
    ∃ c ∈ t.columns, c.name = column ∧ (storage ≠ .plain → c.type.isNumeric = false)
  | .addCheckConstraint name => IsConstraintName name
  | .addConstraintUsingIndex name _ index => IsConstraintName name ∧ t.HasIndex index
  | .clusterOn index => t.HasIndex index
  | .dropIdentity column _ => t.HasIntegerColumn column
  | .restartIdentity column value =>
    t.HasIntegerColumn column ∧ ∀ v, value = some v → 2 ≤ v.toInt ∧ v.toInt ≤ 200
  | .validateConstraint _ | .rowSecurity _ | .setWithoutCluster | .setWithoutOids | .setLogged _
  | .notOf | .ownerTo _ | .replicaIdentity _ => True

theorem randomConstraintName_ensures : randomConstraintName.Ensures nan IsConstraintName := by
  refine word64_ensures.bind fun word _ => .pure ?_
  refine ⟨Nat.toDigits 10 word.toInt64.toInt.natAbs, ?_, Nat.toDigits_ne_nil, fun d hd => ?_⟩
  · rw [String.toList_append, Nat.toList_repr]
    rfl
  · exact Nat.isDigit_of_mem_toDigits (by decide) (by decide) hd

theorem onColumn_ensures {columns : List Column} {action : Column → Draw AlterAction}
    {P : AlterAction → Prop} (h : ∀ c ∈ columns, (action c).Ensures nan P) :
    (onColumn columns action).Ensures nan fun drawn => ∀ a, drawn = some a → P a := by
  refine (pickMaybe_ensures columns).bind fun column hc => ?_
  obtain ⟨rfl, -⟩ | ⟨c, mem, rfl⟩ := hc
  · exact .pure fun a ha => (nomatch ha)
  · exact (h c mem).map fun a ha b hb => Option.some.inj hb ▸ ha

theorem onIndex_ensures {t : Table} {action : Index → Draw AlterAction}
    {P : AlterAction → Prop} (h : ∀ i ∈ t.indexes, (action i).Ensures nan P) :
    (onIndex t action).Ensures nan fun drawn => ∀ a, drawn = some a → P a := by
  refine (pickMaybe_ensures t.indexes).bind fun index hi => ?_
  obtain ⟨rfl, -⟩ | ⟨i, mem, rfl⟩ := hi
  · exact .pure fun a ha => (nomatch ha)
  · exact (h i mem).map fun a ha b hb => Option.some.inj hb ▸ ha

theorem randomStorage_ensures (type : ColumnType) :
    (randomStorage type).Ensures nan fun storage => storage ≠ .plain → type.isNumeric = false := by
  unfold randomStorage
  split
  · exact .pure fun hs => absurd rfl hs
  · next h => exact (pick_ensures _).mono fun _ _ _ => by simpa using h

/-- What an action of a kind drawn for a table is. -/
theorem random_ensures {t : Table} {k : ActionKind} (hk : k.isApplicable t) :
    (random t k).Ensures nan fun drawn => ∀ a, drawn = some a → a.kind = k ∧ a.LegalFor t := by
  cases k with
  | dropColumn =>
    have columns : 2 ≤ t.columns.length := by
      simpa [ActionKind.isApplicable, ActionKind.isSupported, ActionKind.requiresIndex,
        ActionKind.isIdentity] using hk
    refine (chance_ensures even_isChance).bind fun ifExists _ => ?_
    refine onColumn_ensures fun c hc => ?_
    refine (sometimes_ensures even_isChance (pick_ensures _)).bind fun behavior _ => ?_
    exact .pure ⟨rfl, columns, c, hc, rfl⟩
  | alterColumnType =>
    refine onColumn_ensures fun c hc => ?_
    refine (chance_ensures even_isChance).bind fun setData _ => ?_
    exact ColumnType.random_ensures.bind fun type _ => .pure ⟨rfl, c, hc, rfl⟩
  | setDropDefault =>
    refine onColumn_ensures fun c hc => ?_
    refine (sometimes_ensures even_isChance word32_ensures).bind fun value _ => ?_
    refine .pure ⟨rfl, ⟨c, hc, rfl⟩, fun v hv => ?_⟩
    obtain ⟨word, -, rfl⟩ := Option.map_eq_some_iff.1 hv
    have low := word.toInt32.le_toInt
    have high := word.toInt32.toInt_lt
    rw [Int64.toInt_ofInt_of_le (by omega) (by omega)]
    constructor <;> omega
  | setDropNotNull =>
    refine onColumn_ensures fun c hc => ?_
    exact (chance_ensures even_isChance).bind fun notNull _ => .pure ⟨rfl, c, hc, rfl⟩
  | setStatistics =>
    refine onColumn_ensures fun c hc => ?_
    refine (within_ensures (by decide)).bind fun target range => ?_
    refine .pure ⟨rfl, ⟨c, hc, rfl⟩, ?_⟩
    rw [Int32.toInt_ofInt_of_le (by omega) (by omega)]
    exact range
  | setAttributeOption =>
    refine onColumn_ensures fun c hc => ?_
    exact unit_ensures.bind fun x _ => .pure ⟨rfl, c, hc, rfl⟩
  | resetAttributeOption => exact onColumn_ensures fun c hc => .pure ⟨rfl, c, hc, rfl⟩
  | setStorage =>
    refine onColumn_ensures fun c hc => ?_
    exact (randomStorage_ensures c.type).bind fun storage hs => .pure ⟨rfl, c, hc, rfl, hs⟩
  | addConstraint =>
    refine randomConstraintName_ensures.bind fun name hn => .pure fun a ha => ?_
    exact Option.some.inj ha ▸ ⟨rfl, hn⟩
  | addConstraintUsingIndex =>
    refine onIndex_ensures fun i hi => ?_
    refine randomConstraintName_ensures.bind fun name hn => ?_
    exact (pick_ensures _).bind fun kind _ => .pure ⟨rfl, hn, i, hi, rfl⟩
  | clusterOn => exact onIndex_ensures fun i hi => .pure ⟨rfl, i, hi, rfl⟩
  | dropIdentity =>
    refine onColumn_ensures fun c hc => ?_
    obtain ⟨mem, integer⟩ := List.mem_filter.1 hc
    exact (chance_ensures even_isChance).bind fun ifExists _ =>
      .pure ⟨rfl, c, mem, rfl, integer⟩
  | restartIdentity =>
    refine onColumn_ensures fun c hc => ?_
    obtain ⟨mem, integer⟩ := List.mem_filter.1 hc
    refine (sometimes_ensures even_isChance (within_ensures (by decide))).bind fun value range => ?_
    refine .pure ⟨rfl, ⟨c, mem, rfl, integer⟩, fun v hv => ?_⟩
    obtain ⟨i, hi, rfl⟩ := Option.map_eq_some_iff.1 hv
    have := range i hi
    rw [Int32.toInt_ofInt_of_le (by omega) (by omega)]
    exact this
  | setLoggedUnlogged =>
    refine (chance_ensures even_isChance).bind fun logged _ => .pure fun a ha => ?_
    exact Option.some.inj ha ▸ ⟨rfl, trivial⟩
  | ownerTo =>
    refine (pick_ensures _).bind fun role _ => .pure fun a ha => ?_
    exact Option.some.inj ha ▸ ⟨rfl, trivial⟩
  | replicaIdentity =>
    refine (pick_ensures _).bind fun identity _ => .pure fun a ha => ?_
    exact Option.some.inj ha ▸ ⟨rfl, trivial⟩
  | setWithOids | setIdentity | setGenerated => exact .pure fun a ha => (nomatch ha)
  | validateConstraint | disableRowSecurity | enableRowSecurity | forceRowSecurity
  | noForceRowSecurity | setWithoutCluster | setWithoutOids | notOf =>
    exact .pure fun a ha => Option.some.inj ha ▸ ⟨rfl, trivial⟩

end AlterAction

namespace ActionKind

theorem all_nodup : all.Nodup := by decide

theorem randomList_ensures {o : AlterOptions} (h : o.InRange nan) :
    (randomList o).Ensures nan fun drawn => drawn.Sublist all := by
  refine (chance_ensures h.fullSubsetChance).bind fun full _ => ?_
  cases full with
  | true => exact (nonemptySubset_ensures all).mono fun _ hd => hd.1
  | false =>
    refine (smallNumber_ensures o.smallNumberMax.toNat_lt).bind fun amount _ => ?_
    exact (subset_ensures all amount).mono fun _ hd => hd.1

/-- A column of the table is sampled exactly if it has an integer column. -/
theorem randomSample_isSome (t : Table) :
    (randomSample t).Ensures nan fun sampled =>
      (sampled.isSome ↔ ∃ c ∈ t.columns, c.type.isInteger) ∧
        ∀ c, sampled = some c → c ∈ t.columns := by
  have present : t.hasIntegerColumn ↔ ∃ c ∈ t.columns, c.type.isInteger := List.any_eq_true
  unfold randomSample
  by_cases column : t.hasIntegerColumn
  · rw [dif_pos column]
    refine (pick_ensures _).map fun c mem => ⟨?_, ?_⟩
    · exact iff_of_true rfl (present.1 column)
    · rintro _ ⟨⟩
      exact mem
  · rw [dif_neg column]
    refine .pure ⟨?_, ?_⟩
    · exact iff_of_false Bool.false_ne_true (mt present.2 column)
    · exact fun c hc => nomatch hc

theorem randomSample_ensures (t : Table) :
    (randomSample t).Ensures nan fun sampled => ∀ c, sampled = some c → c ∈ t.columns :=
  (randomSample_isSome t).mono fun _ h => h.2

variable {t : Table} {sampled : Option Column} {drawn : List ActionKind}

theorem prune_nodup (h : drawn.Nodup) : (prune t sampled drawn).Nodup := by
  unfold prune
  dsimp only
  split
  · refine List.nodup_append.2 ⟨h.filter _, all_nodup.filter _, ?_⟩
    rintro k hk _ hr rfl
    have missing := (List.mem_filter.1 hr).2
    simp_all
  · exact h.filter _

theorem isApplicable_of_isIdentity {k : ActionKind} (hi : k.isIdentity) (hc : t.hasIntegerColumn) :
    k.isApplicable t := by
  have plain : k.isSupported ∧ k ≠ .dropColumn ∧ k.requiresIndex = false := by
    revert hi
    cases k <;> decide
  simp [isApplicable, plain, hc]

theorem isApplicable_of_mem_prune (hs : ∀ c, sampled = some c → c ∈ t.columns) {k : ActionKind}
    (h : k ∈ prune t sampled drawn) : k.isApplicable t := by
  unfold prune at h
  dsimp only at h
  split at h
  · next integer =>
    rcases List.mem_append.1 h with h | h
    · exact (List.mem_filter.1 h).2
    · have column : t.hasIntegerColumn := by
        cases sampled with
        | none => exact nomatch integer
        | some c => exact List.any_eq_true.2 ⟨c, hs c rfl, integer⟩
      exact isApplicable_of_isIdentity (Bool.and_eq_true_iff.1 (List.mem_filter.1 h).2).1 column
  · exact (List.mem_filter.1 h).2

/-- The kinds that are kept for a statement. -/
def randomKept (t : Table) (o : AlterOptions) : Draw (List ActionKind) := do
  let drawn ← randomList o
  let sampled ← randomSample t
  return prune t sampled drawn

theorem randomKept_ensures {o : AlterOptions} (h : o.InRange nan) (t : Table) :
    (randomKept t o).Ensures nan fun kept => kept.Nodup ∧ ∀ k ∈ kept, k.isApplicable t := by
  refine (randomList_ensures h).bind fun drawn hd => ?_
  refine (randomSample_ensures t).bind fun sampled hs => ?_
  exact .pure ⟨prune_nodup (all_nodup.sublist hd), fun k hk => isApplicable_of_mem_prune hs hk⟩

end ActionKind

end QueryForge
