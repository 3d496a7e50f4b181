import QueryForge.Draw.Sources
import QueryForge.Proofs.Select.Locking
import QueryForge.Proofs.Select.ScopeSoundness

/-!
# HAVING without GROUP BY

A random statement that is grouped lists all its columns in the GROUP BY clause, and may then have
a HAVING predicate. Of a table without columns it shows none, so that the list stays empty, and the
empty list in turn permits a row lock. As long as every table has a column neither happens.
-/

namespace QueryForge

open Draw

variable {nan : Prop}

/-- A HAVING predicate comes with a GROUP BY list, and so without a row lock. -/
structure Select.HavingGrouped (s : Select) : Prop where
  groups : s.clauses.having ≠ none → s.groupBy ≠ []
  unlocked : s.clauses.having ≠ none → s.lockingClause = none

/-- The item reads a table that has no columns. -/
def FromItem.ReadsBare (tables : List Table) (item : FromItem Select) : Prop :=
  ∃ t ∈ tables, t.columns = [] ∧ ∃ only, item = .table t.name only none

variable {tables : List Table} {o : QueryOptions} {table : Table}

theorem Source.scope_eq_nil_iff {s : Source} : s.scope = [] ↔ s.columns = [] :=
  List.map_eq_nil_iff

theorem CteSource.Drawn.columns_source {index : Nat} {d : CteSource} (h : Drawn tables o index d) :
    d.source.columns ≠ [] := by
  obtain ⟨read, kept, shown, filtered, named⟩ := h
  intro none
  have first := getElem?_exposed _ _ 0 ▸ congrArg (·[0]?) none
  rw [List.getElem?_nil, Option.map_eq_none_iff, List.getElem?_eq_none_iff] at first
  exact shown (List.eq_nil_of_length_eq_zero (Nat.le_zero.1 first))

/-- An origin without columns in scope reads only tables without columns. -/
theorem Select.Origin.Drawn.readsBare {g : Origin} (h : g.Drawn tables o table)
    (ht : table ∈ tables) (empty : g.scope = []) : ∀ item ∈ g.items, item.ReadsBare tables := by
  intro item hi
  obtain ⟨s, hs, only, -, rfl⟩ := Draw.exists_of_forall₂ h.items_read item hi
  rw [g.scope_eq, List.flatMap_eq_nil_iff] at empty
  have bare : s.columns = [] := Source.scope_eq_nil_iff.1 (empty s hs)
  rcases h.sources_cases (h.mem_sources ht s hs) with ⟨t, mem, rfl⟩ | ⟨d, -, index, drawn, rfl⟩
  · exact ⟨t, mem, bare, only, rfl⟩
  · exact absurd bare drawn.columns_source

namespace SelectChoices

variable {c : SelectChoices}

/-- With a HAVING predicate, all shown columns are grouped. -/
theorem groupBy_of_having (h : c.shape.having ≠ none) :
    c.shape.groupBy c.projected = c.projected.map ScopeColumn.expr := by
  cases hs : c.shape with
  | grouped having => rfl
  | plain => exact absurd (congrArg SelectShape.having hs) h
  | windowed named drawn => exact absurd (congrArg SelectShape.having hs) h

namespace Permitted

/-- What is missing from a GROUP BY clause is missing from the tables that are read. -/
theorem readsBare (h : c.Permitted tables o table) (ht : table ∈ tables)
    (having : c.shape.having ≠ none) (ungrouped : c.shape.groupBy c.projected = []) :
    ∀ item ∈ c.clauses.items, item.ReadsBare tables := by
  rw [groupBy_of_having having, List.map_eq_nil_iff] at ungrouped
  have empty : c.origin.scope = [] := by
    by_contra columns
    exact h.shown columns ungrouped
  exact h.origin.readsBare ht empty

theorem havingGrouped (h : c.Permitted tables o table) (ht : table ∈ tables)
    (columns : ∀ t ∈ tables, t.columns ≠ []) : c.statement.HavingGrouped := by
  have groups : c.shape.having ≠ none → c.shape.groupBy c.projected ≠ [] := by
    intro having ungrouped
    have bare := h.readsBare ht having ungrouped c.origin.item List.mem_cons_self
    obtain ⟨t, mem, none, -⟩ := bare
    exact columns t mem none
  refine ⟨groups, ?_⟩
  intro having
  by_contra locked
  obtain ⟨clause, hl⟩ := lock_of_lockingClause locked
  exact groups having (h.lock clause hl).groupBy

end Permitted
end SelectChoices

/-- The choices of these options make a statement that reads one table and has a HAVING
predicate. -/
structure QueryOptions.ForcesHaving (o : QueryOptions) : Prop where
  withChance : o.withChance.IsImpossible
  joinChance : o.joinChance.IsImpossible
  distinctChance : o.distinctChance.IsImpossible
  groupByChance : o.groupByChance.IsCertain
  havingChance : o.havingChance.IsCertain

namespace Select

theorem randomOrigin_scope_nil (h : o.InRange nan) (forced : o.ForcesHaving)
    (bare : table.columns = []) :
    (randomOrigin tables o table).Ensures nan fun g => g.scope = [] := by
  have ctes : (randomCtes tables o).Ensures nan fun ctes => ctes = [] := by
    refine .bindLift (chance_never forced.withChance) ?_
    rintro _ rfl
    exact .pure rfl
  refine .bind ctes ?_
  rintro _ rfl
  refine .bindLift (P := fun base => base = Source.ofTable table) (.pure rfl) ?_
  rintro _ rfl
  refine .bindLift (chance_ensures h.setOperationChance) fun setOperation _ => ?_
  refine .bindLift (Source.randomItem_ensures _) fun item _ => ?_
  have join (others : List Source) :
      (DrawnJoin.random o (Source.ofTable table).scope others).Ensures nan fun join =>
        join = none := by
    refine (pickMaybe_ensures others).bind fun other _ => ?_
    refine (chance_never forced.joinChance).bind ?_
    rintro _ rfl
    cases other <;> exact .pure rfl
  refine .bindLift (join _) ?_
  rintro _ rfl
  refine .pure ?_
  have scope : (Source.ofTable table).scope = [] := Source.scope_eq_nil_iff.2 bare
  exact (List.append_nil _).trans scope

theorem addRandomDistinct_never (forced : o.ForcesHaving) (s : Select)
    (projected : List ScopeColumn) :
    (s.addRandomDistinct o projected).Ensures nan fun r => r = (s, none) := by
  refine .bindLift (chance_never forced.distinctChance) ?_
  rintro _ rfl
  exact .pure rfl

theorem addRandomShape_having (forced : o.ForcesHaving) {c : SelectChoices}
    (hd : c.distinct = none) (hs : c.shape = .plain) (hl : c.lock = none)
    (scope : List ScopeColumn) :
    (c.statement.addRandomShape o scope c.projected).Ensures nan fun s =>
      ∃ e, s = { c with shape := .grouped (some e) }.statement := by
  unfold addRandomShape
  rw [if_pos (selectOption_eq_all_iff.2 hd)]
  refine .bindLift (chance_always forced.groupByChance) ?_
  rintro _ rfl
  refine (addRandomGrouping_ensures hs hl (sometimes_always forced.havingChance
    (Predicate.random_ensures _ _))).mono ?_
  rintro _ ⟨_, ⟨e, rfl, -⟩, same⟩
  exact ⟨e, same⟩

theorem randomOver_having (h : o.InRange nan) (forced : o.ForcesHaving) {g : Origin}
    (empty : g.scope = []) :
    (randomOver o g).Ensures nan fun s => s.clauses.having ≠ none ∧ s.groupBy = [] := by
  have shown : (nonemptySubset g.scope).Ensures nan fun projected => projected = [] := by
    refine (nonemptySubset_ensures g.scope).mono fun projected ⟨kept, _⟩ => ?_
    rw [empty] at kept
    exact List.sublist_nil.1 kept
  refine .bindLift shown ?_
  rintro _ rfl
  refine .bindLift (o.randomFilter_ensures h g.scope) fun filter _ => ?_
  refine .bind (ofOrigin_ensures g [] filter) ?_
  rintro _ rfl
  refine .bind (addRandomDistinct_never forced _ _) ?_
  rintro _ rfl
  refine .bind (addRandomShape_having forced rfl rfl rfl g.scope) ?_
  rintro _ ⟨e, rfl⟩
  -- The remaining steps keep the grouping.
  refine .branch (orderStep_ensures h
    (c := { origin := g, projected := [], filter, shape := .grouped (some e) }) rfl rfl rfl) ?_
  rintro _ ⟨orderBy, limit, offset, -, -, rfl⟩
  refine .bind (addRandomLock_ensures h rfl) ?_
  rintro _ ⟨lock, -, rfl⟩
  refine (armStep_ensures h (c := ⟨g, [], filter, none, .grouped (some e), orderBy, limit, offset,
    lock, none⟩) rfl).mono ?_
  rintro _ ⟨arm, -, -, rfl⟩
  constructor
  · intro absent
    exact nomatch absent
  · rfl

theorem randomFrom_having (h : o.InRange nan) (forced : o.ForcesHaving) (tables : List Table)
    (bare : table.columns = []) :
    (randomFrom tables o table).Ensures nan fun s => s.clauses.having ≠ none ∧ s.groupBy = [] := by
  refine .bind (randomOrigin_scope_nil h forced bare) fun g empty => ?_
  exact randomOver_having h forced empty

end Select

namespace Options

def havingAlways : Options where
  query :=
    { withChance := .ofNat 0, joinChance := .ofNat 0, distinctChance := .ofNat 0,
      groupByChance := .ofNat 1, havingChance := .ofNat 1 }

theorem check_havingAlways : havingAlways.check = .ok () := by decide +kernel

theorem forcesHaving_havingAlways : havingAlways.query.ForcesHaving := by
  constructor <;> decide +kernel

end Options

namespace Select

/-- If no options can lead to a HAVING predicate without groups, then every table has a column. -/
theorem columns_ne_nil_of_forall_options
    (all : ∀ o : Options, o.check = .ok () →
      (random tables o.query).Ensures o.query.HasNaN HavingGrouped) :
    ∀ t ∈ tables, t.columns ≠ [] := by
  intro t mem bare
  have range := (Options.check_eq_ok_iff.1 Options.check_havingAlways).1
  have drawn := all Options.havingAlways Options.check_havingAlways
  have grouped := forall_of_pickMaybe (Building.Ensures.of_bindLift drawn) t mem
  have having := randomFrom_having range Options.forcesHaving_havingAlways tables bare
  obtain ⟨s, run, hs⟩ := Draw.Ensures.run grouped Scripted.source ⟨[], 0⟩
  obtain ⟨s', run', present, ungrouped⟩ := Draw.Ensures.run having Scripted.source ⟨[], 0⟩
  obtain rfl : s = s' := Except.ok.inj (run.symm.trans run')
  exact hs.groups present ungrouped

/-- Random statements have HAVING predicates only over groups exactly if every table has a column.
A statement that has one without groups reads nothing but tables without columns. -/
theorem generation_having_grouped_iff (schema : Schema) :
    ((∀ o : Options, o.check = .ok () →
        (Select.random schema.tables o.query).Ensures o.query.HasNaN HavingGrouped) ↔
      ∀ t ∈ schema.tables, t.columns ≠ []) ∧
    ∀ o : Options, o.check = .ok () →
      (Select.random schema.tables o.query).Ensures o.query.HasNaN fun s =>
        s.clauses.having ≠ none → s.groupBy = [] →
          s.clauses.items ≠ [] ∧ ∀ item ∈ s.clauses.items, item.ReadsBare schema.tables := by
  refine ⟨⟨columns_ne_nil_of_forall_options, ?_⟩, ?_⟩
  · intro columns o checked
    have range := (Options.check_eq_ok_iff.1 checked).1
    refine (Select.random_ensures range schema.tables).mono ?_
    rintro s (⟨-, value, -, rfl⟩ | ⟨table, mem, c, permitted, rfl⟩)
    · constructor <;> exact fun present => absurd rfl present
    · exact permitted.havingGrouped mem columns
  · intro o checked
    have range := (Options.check_eq_ok_iff.1 checked).1
    refine (Select.random_ensures range schema.tables).mono ?_
    rintro s (⟨-, value, -, rfl⟩ | ⟨table, mem, c, permitted, rfl⟩)
    · exact fun present => absurd rfl present
    · intro having ungrouped
      exact ⟨List.cons_ne_nil _ _, permitted.readsBare mem having ungrouped⟩

/-- A grouped statement over a table without columns, with a HAVING predicate and a row lock. -/
def lockedHaving : Options where
  query :=
    { Options.havingAlways.query with
      filterChance := .ofNat 0, lockingChance := .ofNat 1, orderByChance := .ofNat 0,
      limitChance := .ofNat 0, setOperationChance := .ofNat 0, maxPredicateDepth := 1 }

/-- The HAVING predicate, the groups and the lock of a statement, and its text. -/
def havingSummary (s : Select) : Bool × Bool × Option LockingClause × String :=
  (s.clauses.having.isSome, s.groupBy.isEmpty, s.lockingClause, s.sql)

theorem columnless_table_locks_having :
    lockedHaving.check = .ok () ∧
      ((Select.random [⟨"t", [], []⟩] lockedHaving.query).run.run Scripted.source
        ⟨[], 1⟩).1.toOption.map havingSummary =
          some (true, true, some .share, "SELECT FROM t HAVING TRUE FOR SHARE") ∧
      ¬ (Select.random [⟨"t", [], []⟩] lockedHaving.query).Ensures lockedHaving.query.HasNaN
        HavingGrouped := by
  have run : ((Select.random [⟨"t", [], []⟩] lockedHaving.query).run.run Scripted.source
      ⟨[], 1⟩).1.toOption.map havingSummary =
        some (true, true, some .share, "SELECT FROM t HAVING TRUE FOR SHARE") := by decide +kernel
  refine ⟨by decide +kernel, run, ?_⟩
  intro grouped
  obtain ⟨s, summary, hs⟩ := Building.Ensures.exists_of_run grouped run
  have having : s.clauses.having.isSome := congrArg Prod.fst summary
  have groups : s.groupBy.isEmpty := congrArg (·.2.1) summary
  exact hs.groups (Option.isSome_iff_ne_none.1 having) (List.isEmpty_iff.1 groups)

end Select
end QueryForge
