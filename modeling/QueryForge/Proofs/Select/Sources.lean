import QueryForge.Proofs.Options
import QueryForge.Proofs.Predicate
import QueryForge.Proofs.Select.Validation
import QueryForge.Select.Random

/-!
# What the sources of a random statement are

The drawn common table expressions, the first source and the join of a statement, described by
the choices behind them.
-/

namespace QueryForge

open Draw

variable {tables : List Table} {o : QueryOptions} {nan : Prop}

theorem QueryOptions.randomFilter_ensures (h : o.InRange nan) (scope : List ScopeColumn) :
    (o.randomFilter scope).Ensures nan fun filter =>
      ∀ e, filter = some e → Predicate.Over scope o.predicateDepth e :=
  sometimes_ensures h.filterChance (Predicate.random_ensures scope _)

/-- A FROM item that reads a source under its own name. -/
def Source.ReadBy (s : Source) (item : FromItem Select) : Prop :=
  ∃ only, (s.isCte → only = false) ∧ item = .table s.name only none

theorem Source.randomItem_ensures (s : Source) : s.randomItem.Ensures nan s.ReadBy := by
  unfold randomItem
  split
  · exact .pure ⟨false, fun _ => rfl, rfl⟩
  · next h =>
    exact (chance_ensures (.inl (by decide +kernel))).bind fun only _ =>
      .pure ⟨only, fun hc => absurd hc h, rfl⟩

/-- Columns of a scope are no stars. -/
theorem Clauses.columnCount_of_ofScope {c : Clauses Select} {shown : List ScopeColumn}
    (h : c.columns = shown.map .ofScope) :
    c.columnCount = some (shown.length + c.windowFunctions.length) := by
  have starless : (shown.map ResultColumn.ofScope).any ResultColumn.isStar = false := by
    rw [List.any_map, List.any_eq_false]
    exact fun _ _ => Bool.false_ne_true
  unfold columnCount
  rw [h, starless, List.length_map]
  rfl

namespace CteSource

def defaultAliases (count : Nat) : List String := (List.range count).map fun i => "a" ++ i.repr

/-- The expression `cte<index>` that reads some columns of a table. -/
def reading (table : Table) (index : Nat) (columns : List Column) (filter : Option Expr)
    (aliases : List String) : CteSource where
  cte :=
    { name := "cte" ++ index.repr
      columnAliases := aliases
      query := .node
        { columns := columns.map fun c => .ofScope ⟨table.name, c⟩
          fromItems := [.ofTable table.name]
          filter }
      columns }
  source := ⟨"cte" ++ index.repr, exposed columns aliases, true⟩

/-- What a drawn common table expression with a number can be. -/
inductive Drawn (tables : List Table) (o : QueryOptions) (index : Nat) : CteSource → Prop
  | reading {table : Table} {columns : List Column} {filter : Option Expr} {aliases : List String}
      (read : table ∈ tables) (kept : columns.Sublist table.columns) (shown : columns ≠ [])
      (filtered : ∀ e, filter = some e →
        Predicate.Over (Source.ofTable table).scope o.predicateDepth e)
      (named : aliases = [] ∨ aliases = defaultAliases columns.length) :
      Drawn tables o index (.reading table index columns filter aliases)

theorem Drawn.isCte_source {index : Nat} {d : CteSource} (h : Drawn tables o index d) :
    d.source.isCte = true := by
  cases h
  rfl

theorem Drawn.nested_query {index : Nat} {d : CteSource} (h : Drawn tables o index d) :
    d.cte.query.clauses.nested = [] := by
  cases h
  rfl

theorem reading_validate (table : Table) (index : Nat) (columns : List Column)
    (filter : Option Expr) (aliases : List String) :
    (reading table index columns filter aliases).cte.query.validate = .ok () :=
  Select.validate_node_eq_ok_iff.2 ⟨rfl, fun _ h => (nomatch h)⟩

theorem build_reading (table : Table) (index : Nat) (columns : List Column) (filter : Option Expr)
    (aliases : List String) :
    CteDraft.build
      { name := some ("cte" ++ index.repr)
        columnAliases := aliases
        query := some (reading table index columns filter aliases).cte.query
        columns } = .ok (reading table index columns filter aliases).cte := by
  have name : ("cte" ++ index.repr).isEmpty = false := by simp
  unfold CteDraft.build Cte.build
  dsimp only [Option.getD_some]
  rw [name, reading_validate]
  rfl

theorem random_ensures (h : o.InRange nan) (tables : List Table) (index : Nat) :
    (random tables o index).Ensures nan fun drawn =>
      ∀ c, drawn = some c → Drawn tables o index c := by
  refine .bindLift (pickMaybe_ensures tables) fun picked hp => ?_
  obtain ⟨rfl, rfl⟩ | ⟨table, read, rfl⟩ := hp
  · exact .pure fun c hc => (nomatch hc)
  refine .bindLift (nonemptySubset_ensures table.columns) fun columns kept => ?_
  dsimp only
  split
  · exact .pure fun c hc => (nomatch hc)
  · next shown =>
    refine .bindLift (o.randomFilter_ensures h _) fun filter filtered => ?_
    refine .bindLift (chance_ensures even_isChance) fun aliased _ => ?_
    have named : (if aliased then defaultAliases columns.length else []) = [] ∨
        (if aliased then defaultAliases columns.length else []) =
          defaultAliases columns.length := by
      cases aliased with
      | true => exact .inr rfl
      | false => exact .inl rfl
    refine .bindOk (build_reading table index columns filter _) ?_
    refine .pure fun c hc => ?_
    rw [← Option.some.inj hc]
    exact .reading read kept.1 (mt List.isEmpty_iff.2 shown) filtered named

/-- Those of the attempted numbers that yield something do so in order. -/
theorem randomList_ensures (h : o.InRange nan) (tables : List Table) (count index : Nat) :
    (randomList tables o count index).Ensures nan fun drawn =>
      ∃ indices, indices.Sublist (List.range' index count) ∧
        List.Forall₂ (Drawn tables o) indices drawn := by
  induction count generalizing index with
  | zero => exact .pure ⟨[], .slnil, .nil⟩
  | succ count ih =>
    refine .bind (random_ensures h tables index) fun first hf => ?_
    refine .bind (ih (index + 1)) fun rest ⟨indices, hs, hr⟩ => ?_
    rw [List.range'_succ]
    cases first with
    | none => exact .pure ⟨indices, hs.cons index, hr⟩
    | some c => exact .pure ⟨index :: indices, hs.cons_cons index, .cons (hf c rfl) hr⟩

end CteSource

namespace DrawnJoin

/-- What a drawn join can be: its condition sees the columns of both sides, and a cross join has
none. -/
structure Drawn (o : QueryOptions) (scope : List ScopeColumn) (others : List Source)
    (j : DrawnJoin) : Prop where
  source : j.source ∈ others
  item : j.source.ReadBy j.join.item
  cross : j.join.kind = .cross → j.join.on = none
  on : j.join.kind ≠ .cross → ∃ e, j.join.on = some e ∧
    Predicate.Over (scope ++ j.source.scope) o.predicateDepth e

theorem random_ensures (h : o.InRange nan) (scope : List ScopeColumn) (others : List Source) :
    (random o scope others).Ensures nan fun drawn =>
      ∀ j, drawn = some j → Drawn o scope others j := by
  refine (pickMaybe_ensures others).bind fun other ho => ?_
  refine (chance_ensures h.joinChance).bind fun wanted _ => ?_
  obtain ⟨rfl, rfl⟩ | ⟨source, mem, rfl⟩ := ho
  · exact .pure fun j hj => (nomatch hj)
  cases wanted with
  | false => exact .pure fun j hj => (nomatch hj)
  | true =>
    refine (pick_ensures _).bind fun kind _ => ?_
    dsimp only
    split
    · next cross =>
      refine source.randomItem_ensures.bind fun item hi => .pure fun j hj => ?_
      rw [← Option.some.inj hj]
      exact ⟨mem, hi, fun _ => rfl, fun hk => absurd cross hk⟩
    · next cross =>
      have condition :
          (some <$> Predicate.random (scope ++ source.scope) o.predicateDepth).Ensures nan fun on =>
            ∃ e, on = some e ∧ Predicate.Over (scope ++ source.scope) o.predicateDepth e :=
        (Predicate.random_ensures _ _).map fun e he => ⟨e, rfl, he⟩
      refine condition.bind fun on hon => ?_
      refine source.randomItem_ensures.bind fun item hi => .pure fun j hj => ?_
      rw [← Option.some.inj hj]
      exact ⟨mem, hi, fun hk => absurd hk cross, fun _ => hon⟩

end DrawnJoin

namespace Select

def Origin.sources (tables : List Table) (g : Origin) : List Source :=
  tables.map Source.ofTable ++ g.ctes.map CteSource.source

/-- What a drawn origin that starts at a table can be. -/
structure Origin.Drawn (tables : List Table) (o : QueryOptions) (table : Table) (g : Origin) :
    Prop where
  ctes : ∃ indices, indices.Sublist (List.range o.maxCtes.toNat) ∧
    List.Forall₂ (CteSource.Drawn tables o) indices g.ctes
  base : g.base = .ofTable table ∨ ∃ last, g.ctes.getLast? = some last ∧ g.base = last.source
  item : g.base.ReadBy g.item
  join : ∀ j, g.join = some j →
    j.Drawn o g.base.scope ((g.sources tables).filter fun s => s.name != g.base.name)

theorem randomCtes_ensures (h : o.InRange nan) (tables : List Table) :
    (randomCtes tables o).Ensures nan fun ctes =>
      ∃ indices, indices.Sublist (List.range o.maxCtes.toNat) ∧
        List.Forall₂ (CteSource.Drawn tables o) indices ctes := by
  refine .bindLift (chance_ensures h.withChance) fun wanted _ => ?_
  cases wanted with
  | false => exact .pure ⟨[], List.nil_sublist _, .nil⟩
  | true =>
    have := h.maxCtes
    refine .bindLift (smallNumber_ensures (by omega)) fun extra he => ?_
    have count : NumberType.unsigned64.Holds (1 + extra) := by
      unfold NumberType.Holds
      omega
    refine .bindLift (fits_ensures count) fun _ _ => ?_
    refine (CteSource.randomList_ensures h tables (1 + extra) 0).mono fun ctes hc => ?_
    obtain ⟨indices, hs, hd⟩ := hc
    rw [← List.range_eq_range'] at hs
    exact ⟨indices, hs.trans (List.range_sublist.2 (by omega)), hd⟩

theorem randomBase_ensures (table : Table) (ctes : List CteSource) :
    (randomBase table ctes).Ensures nan fun base =>
      base = .ofTable table ∨ ∃ last, ctes.getLast? = some last ∧ base = last.source := by
  unfold randomBase
  split
  · exact .pure (.inl rfl)
  · next last h =>
    refine (chance_ensures even_isChance).bind fun again _ => ?_
    cases again with
    | true => exact .pure (.inr ⟨last, h, rfl⟩)
    | false => exact .pure (.inl rfl)

theorem randomOrigin_ensures (h : o.InRange nan) (tables : List Table) (table : Table) :
    (randomOrigin tables o table).Ensures nan (Origin.Drawn tables o table) := by
  refine .bind (randomCtes_ensures h tables) fun ctes hc => ?_
  refine .bindLift (randomBase_ensures table ctes) fun base hb => ?_
  refine .bindLift (chance_ensures h.setOperationChance) fun setOperation _ => ?_
  refine .bindLift base.randomItem_ensures fun item hi => ?_
  exact .bindLift (DrawnJoin.random_ensures h _ _) fun join hj => .pure ⟨hc, hb, hi, hj⟩

namespace Origin

variable {g : Origin} {table : Table}

def items (g : Origin) : List (FromItem Select) := g.item :: g.joins.map Join.item

/-- The sources that the items read, one for each. -/
def read (g : Origin) : List Source := g.base :: g.join.toList.map DrawnJoin.source

theorem scope_eq (g : Origin) : g.scope = g.read.flatMap Source.scope := by
  unfold scope read
  cases g.join <;> simp

theorem Drawn.items_read (h : g.Drawn tables o table) :
    List.Forall₂ Source.ReadBy g.read g.items := by
  unfold items read joins
  cases hj : g.join with
  | none => exact .cons h.item .nil
  | some j => exact .cons h.item (.cons (h.join j hj).item .nil)

theorem Drawn.exists_index_drawn (h : g.Drawn tables o table) {d : CteSource} (hd : d ∈ g.ctes) :
    ∃ index, CteSource.Drawn tables o index d := by
  obtain ⟨indices, -, drawn⟩ := h.ctes
  obtain ⟨index, -, hdrawn⟩ := Draw.exists_of_forall₂ drawn d hd
  exact ⟨index, hdrawn⟩

/-- A source is a table of the catalog or a drawn common table expression. -/
theorem Drawn.sources_cases (h : g.Drawn tables o table) {s : Source} (hs : s ∈ g.sources tables) :
    (∃ t ∈ tables, s = .ofTable t) ∨
      ∃ d ∈ g.ctes, ∃ index, CteSource.Drawn tables o index d ∧ s = d.source := by
  rcases List.mem_append.1 hs with hs | hs
  · obtain ⟨t, mem, rfl⟩ := List.mem_map.1 hs
    exact .inl ⟨t, mem, rfl⟩
  · obtain ⟨d, hd, rfl⟩ := List.mem_map.1 hs
    obtain ⟨index, drawn⟩ := h.exists_index_drawn hd
    exact .inr ⟨d, hd, index, drawn, rfl⟩

theorem Drawn.mem_sources (h : g.Drawn tables o table) (ht : table ∈ tables) :
    ∀ s ∈ g.read, s ∈ g.sources tables := by
  intro s hs
  rcases List.mem_cons.1 hs with rfl | hs
  · rcases h.base with hb | ⟨last, hl, hb⟩
    · exact List.mem_append_left _ (hb ▸ List.mem_map_of_mem ht)
    · exact List.mem_append_right _ (hb ▸ List.mem_map_of_mem (List.mem_of_getLast? hl))
  · obtain ⟨j, hj, rfl⟩ := List.mem_map.1 hs
    exact (List.mem_filter.1 (h.join j (Option.mem_toList.1 hj)).source).1

/-- What is read without being a common table expression is a table of the catalog. -/
theorem Drawn.exists_table (h : g.Drawn tables o table) (ht : table ∈ tables) {s : Source}
    (hs : s ∈ g.read) (plain : s.isCte = false) : ∃ t ∈ tables, s = .ofTable t := by
  rcases h.sources_cases (h.mem_sources ht s hs) with table | ⟨d, -, index, drawn, rfl⟩
  · exact table
  · rw [drawn.isCte_source] at plain
    exact nomatch plain

end Origin
end Select
end QueryForge
