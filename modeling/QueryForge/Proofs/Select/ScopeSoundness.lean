import QueryForge.Proofs.Select.Acceptance
import QueryForge.Proofs.Select.Expressions

/-!
# Random statements refer to what they read

Every column reference of a random statement is qualified by one of the statement's own items, and
what the item reads has a column of that name. The argument goes through the scope: each clause
refers to columns in scope, and each source in scope shows the columns that it promises.
-/

namespace QueryForge

variable {tables : List Table} {o : QueryOptions} {table : Table} {c : SelectChoices} {nan : Prop}

/-- The alias of a result column, or else the name of the column that it shows. -/
def ResultColumn.outputName : ResultColumn → Option String
  | .expr _ (some asName) => some asName
  | .expr (.node (.column _ name)) none => some name
  | .expr _ none | .star => none

/-- A common table expression shows a column under its alias for the position, or else under the
name that the column has in the query. -/
def Cte.Exposes (cte : Cte Select) (name : String) : Prop :=
  ∃ (i : Nat) (column : ResultColumn), cte.query.clauses.columns[i]? = some column ∧
    cte.columnAliases[i]?.or column.outputName = some name

/-- Some table or some common table expression of that name has the column. -/
def Exposes (tables : List Table) (ctes : List (Cte Select)) (source name : String) : Prop :=
  (∃ t ∈ tables, t.name = source ∧ ∃ column ∈ t.columns, column.name = name) ∨
    ∃ cte ∈ ctes, cte.name = source ∧ cte.Exposes name

/-- The items of a statement are read under their own, different names, and every reference is to
a column of one of them. -/
structure Clauses.ScopeSound (tables : List Table) (ctes : List (Cte Select))
    (c : Clauses Select) : Prop where
  named : c.itemNames.Nodup
  items : ∀ item ∈ c.items, ∃ only, item = .table item.name only none
  resolved : ∀ r ∈ c.references, ∃ source ∈ c.itemNames, r.qualifier = some source ∧
    Exposes tables ctes source r.name

/-- The body reads one table of the catalog and refers to its columns only. -/
def Cte.BodySound (tables : List Table) (cte : Cte Select) : Prop :=
  ∃ t ∈ tables, cte.query.clauses.items = [.ofTable t.name] ∧ cte.query.clauses.nested = [] ∧
    ∀ r ∈ cte.query.clauses.references, r.qualifier = some t.name ∧
      ∃ column ∈ t.columns, column.name = r.name

/-- The statement and its second arm resolve their references among the tables and the common
table expressions of the statement, which are sound themselves. -/
structure Select.ScopeSound (tables : List Table) (s : Select) : Prop where
  statement : s.clauses.ScopeSound tables s.clauses.ctes
  arm : ∀ arm, s.clauses.setOperation = some arm →
    arm.query.clauses.ScopeSound tables s.clauses.ctes ∧ arm.query.clauses.nested = []
  ctes : ∀ cte ∈ s.clauses.ctes, cte.BodySound tables

/-- Every column that a source shows can be found under the name of the source. -/
def Source.Provided (tables : List Table) (ctes : List (Cte Select)) (s : Source) : Prop :=
  ∀ column ∈ s.columns, Exposes tables ctes s.name column.name

theorem Source.ofTable_provided {t : Table} (h : t ∈ tables) (ctes : List (Cte Select)) :
    (Source.ofTable t).Provided tables ctes :=
  fun column hc => .inl ⟨t, h, rfl, column, hc, rfl⟩

namespace CteSource

theorem getElem?_exposed (columns : List Column) (aliases : List String) (i : Nat) :
    (exposed columns aliases)[i]? =
      columns[i]?.map fun c => { c with name := aliases[i]?.getD c.name } := by
  induction columns generalizing aliases i with
  | nil => cases aliases <;> rfl
  | cons c rest ih =>
    cases aliases with
    | nil => simp [exposed]
    | cons a aliases =>
      cases i with
      | zero => rfl
      | succ i => simpa [exposed] using ih aliases i

theorem reading_exposes {index : Nat} {columns : List Column} {filter : Option Expr}
    {aliases : List String} {column : Column} (h : column ∈ exposed columns aliases) :
    (reading table index columns filter aliases).cte.Exposes column.name := by
  obtain ⟨i, hi⟩ := List.getElem?_of_mem h
  rw [getElem?_exposed, Option.map_eq_some_iff] at hi
  obtain ⟨own, ho, rfl⟩ := hi
  refine ⟨i, .ofScope ⟨table.name, own⟩, ?_, ?_⟩
  · change (columns.map _)[i]? = _
    rw [List.getElem?_map, ho]
    rfl
  · change aliases[i]?.or (some own.name) = some (aliases[i]?.getD own.name)
    cases aliases[i]? with
    | none => rfl
    | some a => rfl

theorem Drawn.provided {index : Nat} {d : CteSource} (h : Drawn tables o index d)
    {ctes : List (Cte Select)} (hd : d.cte ∈ ctes) : d.source.Provided tables ctes := by
  obtain ⟨read, kept, shown, filtered, named⟩ := h
  exact fun column hc => .inr ⟨_, hd, rfl, reading_exposes hc⟩

theorem Drawn.bodySound {index : Nat} {d : CteSource} (h : Drawn tables o index d) :
    d.cte.BodySound tables := by
  obtain ⟨t, read, items, -, drawn⟩ := h.expressions_drawn
  refine ⟨t, read, items, h.nested_query, fun r hr => ?_⟩
  obtain ⟨e, he, hr⟩ := List.mem_flatMap.1 hr
  obtain ⟨c, hc, rfl⟩ := (drawn e he).within r hr
  obtain ⟨column, mem, rfl⟩ := List.mem_map.1 hc
  exact ⟨rfl, column, mem, rfl⟩

end CteSource

theorem Source.ReadBy.name_eq {s : Source} {item : FromItem Select} (h : s.ReadBy item) :
    item.name = s.name := by
  obtain ⟨only, -, rfl⟩ := h
  rfl

theorem Source.map_name_items {sources : List Source} {items : List (FromItem Select)}
    (h : List.Forall₂ Source.ReadBy sources items) :
    items.map FromItem.name = sources.map Source.name := by
  induction h with
  | nil => rfl
  | cons read _ ih => exact congrArg₂ List.cons read.name_eq ih

namespace Select.Origin.Drawn

variable {g : Origin}

theorem itemNames_nodup (h : g.Drawn tables o table) : (g.items.map FromItem.name).Nodup := by
  rw [items, joins]
  cases hj : g.join with
  | none => exact List.nodup_cons.2 ⟨fun hm => (nomatch hm), List.nodup_nil⟩
  | some j =>
    have drawn := h.join j hj
    have other := (List.mem_filter.1 drawn.source).2
    rw [bne_iff_ne, ← drawn.item.name_eq, ← h.item.name_eq] at other
    simpa using other.symm

theorem items_unaliased (h : g.Drawn tables o table) :
    ∀ item ∈ g.items, ∃ only, item = .table item.name only none := by
  intro item hi
  obtain ⟨s, -, only, -, rfl⟩ := Draw.exists_of_forall₂ h.items_read item hi
  exact ⟨only, rfl⟩

theorem source_provided (h : g.Drawn tables o table) {s : Source} (hs : s ∈ g.sources tables) :
    s.Provided tables (g.ctes.map CteSource.cte) := by
  rcases h.sources_cases hs with ⟨t, ht, rfl⟩ | ⟨d, hd, index, drawn, rfl⟩
  · exact Source.ofTable_provided ht _
  · exact drawn.provided (List.mem_map_of_mem hd)

theorem scope_provided (h : g.Drawn tables o table) (ht : table ∈ tables) {d : ScopeColumn}
    (hd : d ∈ g.scope) :
    d.source ∈ g.items.map FromItem.name ∧
      Exposes tables (g.ctes.map CteSource.cte) d.source d.column.name := by
  rw [g.scope_eq] at hd
  obtain ⟨s, hs, hd⟩ := List.mem_flatMap.1 hd
  obtain ⟨column, mem, rfl⟩ := List.mem_map.1 hd
  refine ⟨?_, h.source_provided (h.mem_sources ht s hs) column mem⟩
  rw [Source.map_name_items h.items_read]
  exact List.mem_map_of_mem hs

/-- Clauses that read the origin and refer to its scope only are sound. -/
theorem scopeSound (h : g.Drawn tables o table) (ht : table ∈ tables) {c : Clauses Select}
    (items : c.items = g.items) (within : ∀ e ∈ c.expressions, e.Within g.scope) :
    c.ScopeSound tables (g.ctes.map CteSource.cte) := by
  have names : c.itemNames = g.items.map FromItem.name := congrArg (List.map FromItem.name) items
  refine ⟨names ▸ h.itemNames_nodup, items ▸ h.items_unaliased, fun r hr => ?_⟩
  obtain ⟨e, he, hr⟩ := List.mem_flatMap.1 hr
  obtain ⟨d, hd, rfl⟩ := within e he r hr
  obtain ⟨mem, exposed⟩ := h.scope_provided ht hd
  exact ⟨d.source, names ▸ mem, rfl, exposed⟩

end Select.Origin.Drawn

namespace SelectChoices.Permitted

theorem scopeSound_clauses (h : c.Permitted tables o table) (ht : table ∈ tables) :
    c.clauses.ScopeSound tables c.clauses.ctes := by
  rw [ctes_clauses]
  exact h.origin.scopeSound ht rfl fun e he => (h.clauses_drawn e he).within

theorem scopeSound_statement (h : c.Permitted tables o table) (ht : table ∈ tables) :
    c.statement.ScopeSound tables := by
  refine ⟨h.scopeSound_clauses ht, fun arm ha => ?_, fun cte hc => ?_⟩
  · obtain ⟨⟨operator, filter⟩, drawn, rfl⟩ := Option.map_eq_some_iff.1 ha
    have sound := h.origin.scopeSound ht (c := c.armClauses filter) rfl fun e he =>
      (h.armClauses_drawn drawn e he).within
    rw [← ctes_clauses] at sound
    exact ⟨sound, h.nested_armClauses filter⟩
  · rw [statement, Select.clauses, ctes_clauses] at hc
    obtain ⟨d, hd, rfl⟩ := List.mem_map.1 hc
    obtain ⟨index, drawn⟩ := h.origin.exists_index_drawn hd
    exact drawn.bodySound

end SelectChoices.Permitted

namespace Select

theorem constant_within {value : Expr} {depth : Nat} (h : Predicate.Over [] depth value) :
    ∀ e ∈ (Clauses.expressions (Q := Select) { columns := [.expr value none] }),
      e.Within [] := by
  apply Clauses.forall_mem_expressions
  case columns =>
    intro r hr e he
    rw [List.mem_singleton.1 hr] at he
    rw [List.mem_singleton.1 he]
    exact h.within
  all_goals exact fun _ h => (nomatch h)

theorem constant_scopeSound {value : Expr} {depth : Nat} (h : Predicate.Over [] depth value) :
    (Select.node { columns := [.expr value none] }).ScopeSound tables := by
  refine ⟨⟨List.nodup_nil, fun item hi => (nomatch hi), fun r hr => ?_⟩, fun arm ha => (nomatch ha),
    fun cte hc => (nomatch hc)⟩
  obtain ⟨e, he, hr⟩ := List.mem_flatMap.1 hr
  obtain ⟨c, hc, -⟩ := constant_within h e he r hr
  exact nomatch hc

/-- With checked options, every reference of a random statement, of its second arm and of its
common table expressions is to a column of what is read there. -/
theorem generation_scope_sound {o : Options} (checked : o.check = .ok ()) (schema : Schema) :
    (Select.random schema.tables o.query).Ensures o.query.HasNaN
      (Select.ScopeSound schema.tables) := by
  have range := (Options.check_eq_ok_iff.1 checked).1
  refine (Select.random_ensures range schema.tables).mono ?_
  rintro s (⟨-, value, grown, rfl⟩ | ⟨table, mem, c, permitted, rfl⟩)
  · exact constant_scopeSound grown
  · exact permitted.scopeSound_statement mem

theorem assorted_generation_scope_sound :
    Options.broad.check = .ok () ∧
      (Select.random Schema.assorted.tables Options.broad.query).Ensures False
        (Select.ScopeSound Schema.assorted.tables) :=
  ⟨Options.check_broad, (generation_scope_sound Options.check_broad Schema.assorted).relax
    Options.not_hasNaN_broad.1⟩

end Select
end QueryForge
