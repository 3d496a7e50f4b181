import QueryForge.Draw.Sources
import QueryForge.Proofs.Select.CteNames
import QueryForge.Proofs.Select.ScopeSoundness

/-!
# What the names of a random statement read

A name in a FROM clause reads the common table expression of that name if the statement sees one,
and only otherwise a table. The generator draws sources and writes down their names, so a drawn
table is read as long as no common table expression has its name. Their names are different from
each other, but the catalog may have a table with the name of one.
-/

namespace QueryForge

open Draw

variable {nan : Prop}

/-- The source that a common table expression is to the statements that see it. -/
def Cte.source (cte : Cte Select) : Source :=
  ⟨cte.name, CteSource.exposed cte.columns cte.columnAliases, true⟩

/-- What an item without an alias reads, where some common table expressions are visible. -/
inductive FromItem.Reads (tables : List Table) (visible : List (Cte Select)) :
    FromItem Select → Source → Prop
  | cte {cte : Cte Select} (mem : cte ∈ visible) :
      Reads tables visible (.table cte.name false none) cte.source
  | table {t : Table} {only : Bool} (mem : t ∈ tables)
      (unshadowed : ∀ cte ∈ visible, cte.name ≠ t.name) :
      Reads tables visible (.table t.name only none) (.ofTable t)

/-- The item reads the source, and nothing else if tables have different names. -/
structure FromItem.ReadsAs (tables : List Table) (visible : List (Cte Select))
    (source : Source) (item : FromItem Select) : Prop where
  reads : item.Reads tables visible source
  unique : (tables.map Table.name).Nodup → ∀ other, item.Reads tables visible other →
    other = source

/-- The items read the given sources, one each, and the expressions refer to their columns. -/
structure Clauses.ReadsFrom (tables : List Table) (visible : List (Cte Select))
    (sources : List Source) (c : Clauses Select) : Prop where
  items : List.Forall₂ (FromItem.ReadsAs tables visible) sources c.items
  expressions : ∀ e ∈ c.expressions, e.Within (sources.flatMap Source.scope)

/-- The body reads a table and shows the columns that the source promises. -/
def Cte.BodyReads (tables : List Table) (visible : List (Cte Select)) (cte : Cte Select) : Prop :=
  cte.query.clauses.nested = [] ∧ ∃ t ∈ tables,
    cte.query.clauses.ReadsFrom tables visible [.ofTable t] ∧
    cte.query.clauses.columns = cte.columns.map fun c => .ofScope ⟨t.name, c⟩

/-- The statement and its second arm read the given sources, and each common table expression sees
those in front of it. -/
structure Select.ReadsFrom (tables : List Table) (sources : List Source) (s : Select) :
    Prop where
  statement : s.clauses.ReadsFrom tables s.clauses.ctes sources
  arm : ∀ arm, s.clauses.setOperation = some arm →
    arm.query.clauses.nested = [] ∧ arm.query.clauses.ReadsFrom tables s.clauses.ctes sources
  bodies : ∀ before cte after, s.clauses.ctes = before ++ cte :: after →
    cte.BodyReads tables before

/-- No table has the name of a common table expression of the statement. -/
def Select.FreshCtes (tables : List Table) (s : Select) : Prop :=
  ∀ cte ∈ s.clauses.ctes, ∀ t ∈ tables, cte.name ≠ t.name

variable {tables : List Table} {o : QueryOptions} {table : Table} {visible : List (Cte Select)}

namespace FromItem

theorem Reads.unshadowed {item : FromItem Select} {source : Source}
    (h : item.Reads tables visible source) (plain : source.isCte = false) :
    ∀ cte ∈ visible, cte.name ≠ source.name := by
  cases h with
  | cte mem => exact nomatch plain
  | table mem unshadowed => exact unshadowed

theorem Reads.unique {item : FromItem Select} {source other : Source}
    (h : item.Reads tables visible source) (h' : item.Reads tables visible other)
    (ctes : (visible.map Cte.name).Nodup) (names : (tables.map Table.name).Nodup) :
    other = source := by
  cases h with
  | @cte cte mem =>
    generalize hi : FromItem.table cte.name false none = item at h'
    cases h' with
    | @cte cte' mem' =>
      injection hi with name
      rw [List.inj_on_of_nodup_map ctes mem mem' name]
    | table mem' unshadowed =>
      injection hi with name
      exact absurd name (unshadowed cte mem)
  | @table t only mem unshadowed =>
    generalize hi : FromItem.table t.name only none = item at h'
    cases h' with
    | @cte cte' mem' =>
      injection hi with name
      exact absurd name.symm (unshadowed cte' mem')
    | @table t' only' mem' unshadowed' =>
      injection hi with name
      rw [List.inj_on_of_nodup_map names mem mem' name]

theorem Reads.readsAs {item : FromItem Select} {source : Source}
    (h : item.Reads tables visible source) (ctes : (visible.map Cte.name).Nodup) :
    item.ReadsAs tables visible source := by
  refine ⟨h, ?_⟩
  intro names other h'
  exact h.unique h' ctes names

end FromItem

/-- A table that is meant by a FROM item is no common table expression. -/
theorem Select.ReadsFrom.unshadowed {sources : List Source} {s : Select}
    (h : s.ReadsFrom tables sources) {source : Source} (hs : source ∈ sources)
    (plain : source.isCte = false) : ∀ cte ∈ s.clauses.ctes, cte.name ≠ source.name := by
  obtain ⟨item, -, read⟩ := Draw.exists_of_forall₂ h.statement.items.flip source hs
  exact read.reads.unshadowed plain

theorem CteSource.Drawn.source_eq {index : Nat} {d : CteSource} (h : Drawn tables o index d) :
    d.source = d.cte.source := by
  cases h
  rfl

theorem CteSource.Drawn.bodyReads {index : Nat} {d : CteSource} (h : Drawn tables o index d)
    (names : (visible.map Cte.name).Nodup)
    (fresh : ∀ cte ∈ visible, ∀ t ∈ tables, cte.name ≠ t.name) :
    d.cte.BodyReads tables visible := by
  obtain ⟨t, read, items, columns, drawn⟩ := h.expressions_drawn
  have item : (FromItem.ofTable t.name : FromItem Select).Reads tables visible (.ofTable t) :=
    .table read fun cte hc => fresh cte hc t read
  refine ⟨h.nested_query, t, read, ⟨?_, ?_⟩, columns⟩
  · rw [items]
    exact .cons (item.readsAs names) .nil
  · intro e he
    rw [List.flatMap_singleton]
    exact (drawn e he).within

namespace Select.Origin.Drawn

variable {g : Origin}

theorem items_readsAs (h : g.Drawn tables o table) (ht : table ∈ tables)
    (fresh : ∀ cte ∈ g.ctes.map CteSource.cte, ∀ t ∈ tables, cte.name ≠ t.name) :
    List.Forall₂ (FromItem.ReadsAs tables (g.ctes.map CteSource.cte)) g.read g.items := by
  refine ((List.forall₂_and_left _ _).2 ⟨h.mem_sources ht, h.items_read⟩).imp ?_
  rintro source _ ⟨mem, only, plain, rfl⟩
  refine FromItem.Reads.readsAs ?_ h.nodup_names_ctes
  rcases h.sources_cases mem with ⟨t, ht, rfl⟩ | ⟨d, hd, index, drawn, rfl⟩
  · exact .table ht fun cte hc => fresh cte hc t ht
  · obtain rfl : only = false := plain drawn.isCte_source
    rw [drawn.source_eq]
    exact .cte (List.mem_map_of_mem hd)

theorem bodyReads (h : g.Drawn tables o table)
    (fresh : ∀ cte ∈ g.ctes.map CteSource.cte, ∀ t ∈ tables, cte.name ≠ t.name)
    {before after : List (Cte Select)} {cte : Cte Select}
    (parts : g.ctes.map CteSource.cte = before ++ cte :: after) : cte.BodyReads tables before := by
  have mem : cte ∈ g.ctes.map CteSource.cte := parts ▸ List.mem_append_right _ List.mem_cons_self
  have front : before.Sublist (g.ctes.map CteSource.cte) := parts ▸ List.sublist_append_left _ _
  obtain ⟨d, hd, rfl⟩ := List.mem_map.1 mem
  obtain ⟨index, drawn⟩ := h.exists_index_drawn hd
  refine drawn.bodyReads (h.nodup_names_ctes.sublist (front.map _)) ?_
  intro earlier he
  exact fresh earlier (front.subset he)

end Select.Origin.Drawn

theorem SelectChoices.Permitted.readsFrom {c : SelectChoices} (h : c.Permitted tables o table)
    (ht : table ∈ tables) (fresh : c.statement.FreshCtes tables) :
    c.statement.ReadsFrom tables c.origin.read := by
  have ctes : c.statement.clauses.ctes = c.origin.ctes.map CteSource.cte := c.ctes_clauses
  unfold Select.FreshCtes at fresh
  rw [ctes] at fresh
  have items := h.origin.items_readsAs ht fresh
  rw [← ctes] at items
  refine ⟨⟨items, ?_⟩, ?_, ?_⟩
  · intro e he
    rw [← c.origin.scope_eq]
    exact (h.clauses_drawn e he).within
  · intro arm ha
    obtain ⟨⟨operator, filter⟩, drawn, rfl⟩ := Option.map_eq_some_iff.1 ha
    refine ⟨h.nested_armClauses filter, items, ?_⟩
    intro e he
    rw [← c.origin.scope_eq]
    exact (h.armClauses_drawn drawn e he).within
  · intro before cte after parts
    exact h.origin.bodyReads fresh (ctes ▸ parts)

namespace Select

/-- A random statement together with its origin, of which a constant has none. -/
def randomTraced (tables : List Table) (o : QueryOptions) : Building (Option Origin × Select) := do
  match ← pickMaybe tables with
  | none =>
    let value ← Predicate.random [] o.predicateDepth
    return (none, empty.setColumns [.expr value none])
  | some table =>
    let g ← randomOrigin tables o table
    let s ← randomOver o g
    return (some g, s)

theorem snd_randomTraced (tables : List Table) (o : QueryOptions) :
    Prod.snd <$> randomTraced tables o = random tables o := by
  unfold randomTraced random
  rw [map_bind]
  refine bind_congr fun picked => ?_
  cases picked with
  | none => simp
  | some table => simp [randomFrom]

theorem randomTraced_ensures (h : o.InRange nan) (tables : List Table) :
    (randomTraced tables o).Ensures nan fun run =>
      (∃ value, Predicate.Over [] o.predicateDepth value ∧
        run = (none, .node { columns := [.expr value none] })) ∨
      ∃ table ∈ tables, ∃ c : SelectChoices, c.Permitted tables o table ∧
        run = (some c.origin, c.statement) := by
  refine .bindLift (pickMaybe_ensures tables) fun picked hp => ?_
  obtain ⟨rfl, -⟩ | ⟨table, mem, rfl⟩ := hp
  · exact .bindLift (Predicate.random_ensures [] _) fun value hv => .pure (.inl ⟨value, hv, rfl⟩)
  · refine .bind (randomOrigin_ensures h tables table) fun g origin => ?_
    refine .bind (randomOver_ensures h origin) ?_
    rintro _ ⟨c, permitted, rfl, rfl⟩
    exact .pure (.inr ⟨table, mem, c, permitted, rfl⟩)

theorem constant_readsFrom {value : Expr} {depth : Nat} (h : Predicate.Over [] depth value) :
    (Select.node { columns := [.expr value none] }).ReadsFrom tables [] := by
  refine ⟨⟨.nil, constant_within h⟩, ?_, ?_⟩
  · intro arm ha
    exact nomatch ha
  · intro before cte after parts
    exact absurd parts.symm (List.append_ne_nil_of_right_ne_nil _ (List.cons_ne_nil _ _))

/-- With checked options, the common table expressions of a random statement have different,
numbered names. If no table has one of these names, every item reads the source that was drawn for
it. -/
theorem generation_reads_drawn_sources {o : Options} (checked : o.check = .ok ())
    (schema : Schema) :
    Prod.snd <$> randomTraced schema.tables o.query = Select.random schema.tables o.query ∧
      (randomTraced schema.tables o.query).Ensures o.query.HasNaN fun run =>
        (run.2.clauses.ctes.map Cte.name).Nodup ∧
        (∀ cte ∈ run.2.clauses.ctes, ∃ i < o.query.maxCtes.toNat,
          cte.name = CteSource.numberedName i) ∧
        (run.2.FreshCtes schema.tables →
          run.2.ReadsFrom schema.tables (run.1.elim [] Origin.read)) ∧
        ((∀ t ∈ schema.tables, ∀ i < o.query.maxCtes.toNat,
          t.name ≠ CteSource.numberedName i) → run.2.FreshCtes schema.tables) := by
  refine ⟨snd_randomTraced schema.tables o.query, ?_⟩
  have range := (Options.check_eq_ok_iff.1 checked).1
  refine (randomTraced_ensures range schema.tables).mono ?_
  rintro run (⟨value, constant, rfl⟩ | ⟨table, mem, c, permitted, rfl⟩)
  · refine ⟨List.nodup_nil, ?_, fun _ => constant_readsFrom constant, ?_⟩
    · intro cte hc
      exact nomatch hc
    · intro _ cte hc
      exact nomatch hc
  · have ctes : c.statement.clauses.ctes = c.origin.ctes.map CteSource.cte := c.ctes_clauses
    have numbered := permitted.origin.exists_index
    dsimp only [Option.elim]
    rw [← ctes] at numbered
    refine ⟨ctes ▸ permitted.origin.nodup_names_ctes, numbered, permitted.readsFrom mem, ?_⟩
    intro unnumbered cte hc t ht same
    obtain ⟨i, hi, name⟩ := numbered cte hc
    exact unnumbered t ht i hi (same.symm.trans name)

theorem assorted_generation_reads_drawn_sources :
    Options.broad.check = .ok () ∧
      (randomTraced Schema.assorted.tables Options.broad.query).Ensures False fun run =>
        run.2.ReadsFrom Schema.assorted.tables (run.1.elim [] Origin.read) := by
  refine ⟨Options.check_broad, Building.Ensures.relax ?_ Options.not_hasNaN_broad.1⟩
  refine (generation_reads_drawn_sources Options.check_broad Schema.assorted).2.mono ?_
  rintro run ⟨-, -, reads, fresh⟩
  refine reads (fresh ?_)
  unfold Schema.assorted
  decide +kernel

/-- A table with the name of the first common table expression. -/
def namesake : Table :=
  { name := "cte0", columns := [{ name := "a", type := .int }, { name := "b", type := .int }] }

/-- Plain statements with one common table expression. -/
def plainWith : Options where
  query :=
    { withChance := .ofNat 1, maxCtes := 1, joinChance := .ofNat 0, filterChance := .ofNat 0,
      distinctChance := .ofNat 0, groupByChance := .ofNat 0, lockingChance := .ofNat 0,
      windowChance := .ofNat 0, orderByChance := .ofNat 0, limitChance := .ofNat 0,
      setOperationChance := .ofNat 0 }

/-- The drawn sources and the text. -/
def readSummary (run : Option Origin × Select) : List Source × String :=
  (run.1.elim [] Origin.read, run.2.sql)

/-- The table is drawn, but its name reads the common table expression. -/
theorem namesake_not_read :
    plainWith.check = .ok () ∧
      ((randomTraced [namesake] plainWith.query).run.run Scripted.source
        ⟨[], 1⟩).1.toOption.map readSummary = some ([.ofTable namesake],
          "WITH cte0(a0, a1) AS (SELECT cte0.a, cte0.b FROM cte0) SELECT cte0.a, cte0.b FROM cte0") ∧
      ¬ (Select.random [namesake] plainWith.query).Ensures plainWith.query.HasNaN
        (FreshCtes [namesake]) ∧
      ¬ (randomTraced [namesake] plainWith.query).Ensures plainWith.query.HasNaN fun run =>
        run.2.ReadsFrom [namesake] (run.1.elim [] Origin.read) := by
  have text : ((randomTraced [namesake] plainWith.query).run.run Scripted.source
      ⟨[], 1⟩).1.toOption.map readSummary = some ([.ofTable namesake],
        "WITH cte0(a0, a1) AS (SELECT cte0.a, cte0.b FROM cte0) " ++
          "SELECT cte0.a, cte0.b FROM cte0") := by
    decide +kernel
  have names : ((Select.random [namesake] plainWith.query).run.run Scripted.source
      ⟨[], 1⟩).1.toOption.map (fun s => s.clauses.ctes.map Cte.name) = some ["cte0"] := by
    decide +kernel
  have drawn : ((randomTraced [namesake] plainWith.query).run.run Scripted.source
      ⟨[], 1⟩).1.toOption.map (fun run => (run.1.elim [] Origin.read,
        run.2.clauses.ctes.map Cte.name)) = some ([.ofTable namesake], ["cte0"]) := by
    decide +kernel
  have mem {ctes : List (Cte Select)} (h : ctes.map Cte.name = ["cte0"]) :
      ∃ cte ∈ ctes, cte.name = namesake.name :=
    List.mem_map.1 (h ▸ List.mem_singleton_self _)
  refine ⟨by decide +kernel, text, ?_, ?_⟩
  · intro fresh
    obtain ⟨s, same, hs⟩ := Building.Ensures.exists_of_run fresh names
    obtain ⟨cte, hc, name⟩ := mem same
    exact hs cte hc namesake (List.mem_singleton_self _) name
  · intro reads
    obtain ⟨traced, same, hs⟩ := Building.Ensures.exists_of_run reads drawn
    obtain ⟨sources, ctes⟩ := Prod.mk.inj same
    obtain ⟨cte, hc, name⟩ := mem ctes
    exact hs.unshadowed (sources ▸ List.mem_singleton_self _) rfl cte hc name

end Select
end QueryForge
