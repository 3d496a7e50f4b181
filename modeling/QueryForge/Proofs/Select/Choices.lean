import QueryForge.Proofs.Select.ClauseFields
import QueryForge.Proofs.Select.Sources
import QueryForge.Proofs.Select.Windows

/-!
# The choices behind a random statement

A random statement is determined by a few choices, and the constraints between them say which
clauses can occur together. The generator ensures that its result is the statement of permitted
choices, so that any property of random statements is one of permitted choices.
-/

namespace QueryForge

open Draw

variable {nan : Prop}

/-- A statement lists columns, groups its rows, or adds window functions. -/
inductive SelectShape where
  | plain
  | grouped (having : Option Expr)
  | windowed (named : Bool) (drawn : List DrawnWindow)

namespace SelectShape

def isGrouped : SelectShape → Bool
  | .grouped _ => true
  | .plain | .windowed .. => false

def groupBy (projected : List ScopeColumn) : SelectShape → List Expr
  | .grouped _ => projected.map ScopeColumn.expr
  | .plain | .windowed .. => []

def having : SelectShape → Option Expr
  | .grouped having => having
  | .plain | .windowed .. => none

def windowFunctions : SelectShape → List (WindowFunction Expr)
  | .windowed _ drawn => drawn.map DrawnWindow.function
  | .plain | .grouped _ => []

def windows : SelectShape → NamedWindows
  | .windowed true drawn => NamedWindows.empty.putAll (drawn.map DrawnWindow.entry)
  | .windowed false _ | .plain | .grouped _ => .empty

/-- A HAVING predicate sees the shown columns, windows see all columns in scope. -/
inductive Permitted (o : QueryOptions) (scope projected : List ScopeColumn) : SelectShape → Prop
  | plain : Permitted o scope projected .plain
  | grouped {having : Option Expr}
      (h : ∀ e, having = some e → Predicate.Over projected o.predicateDepth e) :
      Permitted o scope projected (.grouped having)
  | windowed {named : Bool} {drawn : List DrawnWindow} {count : Nat}
      (amount : 1 ≤ count ∧ count ≤ 2)
      (h : List.Forall₂ (DrawnWindow.Drawn scope named) (List.range count) drawn) :
      Permitted o scope projected (.windowed named drawn)

end SelectShape

structure SelectChoices where
  origin : Select.Origin
  projected : List ScopeColumn
  filter : Option Expr
  /-- For a DISTINCT statement, the column of its DISTINCT ON if it has one. -/
  distinct : Option (Option ScopeColumn) := none
  shape : SelectShape := .plain
  orderBy : List (OrderTerm Expr) := []
  limit : Option UInt64 := none
  offset : Option UInt64 := none
  lock : Option LockingClause := none
  /-- The operator in front of a second arm and the filter of that arm. -/
  arm : Option (SetOperator × Option Expr) := none

namespace SelectChoices

def modifier (c : SelectChoices) : SelectModifier :=
  match c.distinct, c.lock with
  | some on, _ => .distinct (on.map ScopeColumn.expr)
  | none, some clause => .locked clause
  | none, none => .all

def armClauses (c : SelectChoices) (filter : Option Expr) : Clauses Select where
  columns := c.projected.map .ofScope
  windowFunctions := c.shape.windowFunctions
  fromItems := [c.origin.item]
  joins := c.origin.joins
  filter := filter
  windows := c.shape.windows

def clauses (c : SelectChoices) : Clauses Select where
  withClause :=
    if c.origin.ctes.isEmpty then none else some ⟨c.origin.ctes.map CteSource.cte⟩
  modifier := c.modifier
  columns := c.projected.map .ofScope
  windowFunctions := c.shape.windowFunctions
  fromItems := [c.origin.item]
  joins := c.origin.joins
  filter := c.filter
  groupBy := c.shape.groupBy c.projected
  having := c.shape.having
  windows := c.shape.windows
  orderBy := c.orderBy
  limit := c.limit
  offset := c.offset
  setOperation := c.arm.map fun a => ⟨a.1, .node (c.armClauses a.2)⟩

def statement (c : SelectChoices) : Select := .node c.clauses

/-- The rows of the statement can be locked. -/
structure Lockable (c : SelectChoices) : Prop where
  distinct : c.distinct = none
  groupBy : c.shape.groupBy c.projected = []
  windowFunctions : c.shape.windowFunctions = []
  join : c.origin.hasOuterJoin = false
  setOperation : c.origin.setOperation = false
  source : c.origin.readsCte = false

/-- The terms start with the column of a DISTINCT ON, and the others are shown columns. -/
def Ordered (c : SelectChoices) : Prop :=
  ∃ more, c.orderBy = (c.distinct.join.toList.map fun d => OrderTerm.ofExpr d.expr) ++ more ∧
    ∀ t ∈ more, ∃ d ∈ c.projected, d.isOrderable ∧ t.expr = d.expr

structure Limited (o : QueryOptions) (c : SelectChoices) : Prop where
  limit : ∀ n, c.limit = some n → n ≤ o.maxLimit
  offset : ∀ n, c.offset = some n → c.limit.isSome ∧ n ≤ o.maxLimit

/-- The constraints on the choices of a statement that starts at a table. -/
structure Permitted (tables : List Table) (o : QueryOptions) (table : Table)
    (c : SelectChoices) : Prop where
  origin : c.origin.Drawn tables o table
  projected : c.projected.Sublist c.origin.scope
  shown : c.origin.scope ≠ [] → c.projected ≠ []
  filter : ∀ e, c.filter = some e → Predicate.Over c.origin.scope o.predicateDepth e
  distinctOn : ∀ d, c.distinct = some (some d) → d ∈ c.projected ∧ d.isOrderable
  shape : c.shape.Permitted o c.origin.scope c.projected
  grouped : c.shape.isGrouped → c.distinct = none
  ordered : c.origin.setOperation = false → c.Ordered ∧ c.Limited o
  unordered : c.origin.setOperation = true → c.orderBy = [] ∧ c.limit = none ∧ c.offset = none
  lock : ∀ clause, c.lock = some clause → c.Lockable
  arm : c.arm.isSome = c.origin.setOperation
  armFilter : ∀ operator e, c.arm = some (operator, some e) →
    Predicate.Over c.origin.scope o.predicateDepth e

end SelectChoices

namespace Select

variable {o : QueryOptions}

theorem ofOrigin_ensures (g : Origin) (projected : List ScopeColumn) (filter : Option Expr) :
    (ofOrigin g projected filter).Ensures nan fun s =>
      s = SelectChoices.statement { origin := g, projected, filter } := by
  unfold ofOrigin SelectChoices.statement SelectChoices.clauses
  dsimp only
  split
  · exact .pure rfl
  · next some =>
    have build : WithClause.build (g.ctes.map CteSource.cte) = .ok ⟨g.ctes.map CteSource.cte⟩ := by
      unfold WithClause.build
      rw [if_neg]
      rwa [List.isEmpty_map]
    refine .bindOk build ?_
    exact .pure rfl

theorem addRandomDistinct_ensures (h : o.InRange nan) {c : SelectChoices} (hd : c.distinct = none)
    (hl : c.lock = none) :
    (c.statement.addRandomDistinct o c.projected).Ensures nan fun r =>
      ∃ distinct, (∀ d, distinct = some (some d) → d ∈ c.projected ∧ d.isOrderable) ∧
        r = ({ c with distinct }.statement, distinct.join) := by
  -- The setters compute on a record whose fields are in sight.
  obtain ⟨origin, projected, filter, distinct, shape, orderBy, limit, offset, lock, arm⟩ := c
  subst hd hl
  refine .bindLift (chance_ensures h.distinctChance) fun wanted _ => ?_
  cases wanted with
  | false => exact .pure ⟨none, fun d hd => (nomatch hd), rfl⟩
  | true =>
    refine .bindOk rfl ?_
    refine .bindLift (pickMaybe_ensures _) fun column hc => ?_
    refine .bindLift (chance_ensures h.distinctOnChance) fun on _ => ?_
    obtain ⟨rfl, -⟩ | ⟨d, mem, rfl⟩ := hc
    · exact .pure ⟨some none, fun d hd => (nomatch hd), rfl⟩
    cases on with
    | false => exact .pure ⟨some none, fun d hd => (nomatch hd), rfl⟩
    | true =>
      refine .bindOk rfl ?_
      refine .pure ⟨some (some d), fun e he => ?_, rfl⟩
      obtain rfl : d = e := Option.some.inj (Option.some.inj he)
      exact List.mem_filter.1 mem

theorem addRandomWindows_ensures (h : o.InRange nan) {c : SelectChoices} (hs : c.shape = .plain)
    (ha : c.arm = none) (scope : List ScopeColumn) :
    (c.statement.addRandomWindows scope o.namedWindowChance).Ensures nan fun s =>
      ∃ shape, shape.Permitted o scope c.projected ∧ shape.isGrouped = false ∧
        s = { c with shape }.statement := by
  obtain ⟨origin, projected, filter, distinct, shape, orderBy, limit, offset, lock, arm⟩ := c
  subst hs ha
  refine (smallNumber_ensures (by decide)).bind fun extra he => ?_
  have count : NumberType.unsigned64.Holds (1 + extra) := by
    unfold NumberType.Holds
    omega
  refine (fits_ensures count).bind fun _ _ => ?_
  refine (chance_ensures h.namedWindowChance).bind fun named _ => ?_
  refine (each_ensures fun i _ => DrawnWindow.random_ensures scope named i).bind fun drawn hd => ?_
  refine .pure ⟨.windowed named drawn, .windowed (by omega) hd, rfl, ?_⟩
  cases named with
  | true =>
    have put := foldl_addWindowDefinition (SelectChoices.statement ⟨origin, projected, filter,
      distinct, .plain, orderBy, limit, offset, lock, none⟩) (drawn.map DrawnWindow.entry)
    rw [List.foldl_map] at put
    exact congrArg (setWindowFunctions · (drawn.map DrawnWindow.function)) put
  | false => rfl

theorem setGroupBy_eq_ok {s : Select} {groupBy : List Expr}
    (h : checkLocking s.clauses.modifier groupBy = .ok ()) :
    s.setGroupBy groupBy = .ok (s.update ({ · with groupBy })) := by
  unfold setGroupBy Setter.result
  rw [outcome_groupBy h]
  rfl

theorem addRandomGrouping_ensures {c : SelectChoices} (hs : c.shape = .plain) (hl : c.lock = none)
    {P : Option Expr → Prop}
    (hh : (sometimes o.havingChance
      (Predicate.random c.projected o.predicateDepth)).Ensures nan P) :
    (c.statement.addRandomGrouping o c.projected).Ensures nan fun s =>
      ∃ having, P having ∧ s = { c with shape := .grouped having }.statement := by
  have free : checkLocking c.modifier (c.projected.map ScopeColumn.expr) = .ok () := by
    unfold SelectChoices.modifier
    rw [hl]
    cases c.distinct <;> rfl
  refine .bindOk (setGroupBy_eq_ok free) ?_
  refine .bindLift hh fun having hp => ?_
  obtain ⟨origin, projected, filter, distinct, shape, orderBy, limit, offset, lock, arm⟩ := c
  subst hs
  cases having with
  | none => exact .pure ⟨none, hp, rfl⟩
  | some e => exact .pure ⟨some e, hp, rfl⟩

theorem ofNat_toNat_le {max : UInt64} {i : Int} (hi : 0 ≤ i ∧ i ≤ max.toNat) :
    UInt64.ofNat i.toNat ≤ max := by
  have := max.toNat_lt
  have small : i.toNat < UInt64.size := by
    rw [UInt64.size]
    omega
  rw [UInt64.le_iff_toNat_le, UInt64.toNat_ofNat_of_lt' small]
  omega

theorem addRandomLimit_ensures (h : o.InRange nan) {c : SelectChoices} (hl : c.limit = none)
    (ho : c.offset = none) :
    (c.statement.addRandomLimit o).Ensures nan fun s =>
      ∃ limit offset, { c with limit, offset }.Limited o ∧
        s = { c with limit, offset }.statement := by
  have range : (0 : Int) ≤ o.maxLimit.toNat := Int.natCast_nonneg _
  obtain ⟨origin, projected, filter, distinct, shape, orderBy, limit, offset, lock, arm⟩ := c
  subst hl ho
  refine (chance_ensures h.limitChance).bind fun limited _ => ?_
  cases limited with
  | false => exact .pure ⟨none, none, ⟨fun n hn => (nomatch hn), fun n hn => (nomatch hn)⟩, rfl⟩
  | true =>
    refine (withinWide_ensures range).bind fun limit hl => ?_
    refine (chance_ensures even_isChance).bind fun later _ => ?_
    cases later with
    | false =>
      refine .pure ⟨some _, none, ⟨fun n hn => ?_, fun n hn => (nomatch hn)⟩, rfl⟩
      exact Option.some.inj hn ▸ ofNat_toNat_le hl
    | true =>
      refine (withinWide_ensures range).bind fun offset ho => ?_
      refine .pure ⟨some _, some _, ⟨fun n hn => ?_, fun n hn => ⟨rfl, ?_⟩⟩, rfl⟩
      · exact Option.some.inj hn ▸ ofNat_toNat_le hl
      · exact Option.some.inj hn ▸ ofNat_toNat_le ho

theorem randomTerms_ensures (orderable : List ScopeColumn) (count : Nat) :
    (OrderTerm.randomList orderable count).Ensures nan fun terms =>
      ∀ t ∈ terms, ∃ d ∈ orderable, t.expr = d.expr := by
  induction count with
  | zero => exact .pure fun t ht => (nomatch ht)
  | succ count ih =>
    refine (pickMaybe_ensures orderable).bind fun column hc => ?_
    obtain ⟨rfl, -⟩ | ⟨d, mem, rfl⟩ := hc
    · exact .pure fun t ht => (nomatch ht)
    have term : (OrderTerm.random d).Ensures nan fun t => t.expr = d.expr :=
      (sometimes_ensures even_isChance (pick_ensures _)).bind fun order _ =>
        (sometimes_ensures (.inl (by decide +kernel)) (pick_ensures _)).bind
          fun nulls _ => .pure rfl
    refine term.bind fun t ht => ih.bind fun rest hr => .pure ?_
    exact List.forall_mem_cons.2 ⟨⟨d, mem, ht⟩, hr⟩

theorem selectOption_eq_all_iff {c : SelectChoices} :
    c.statement.selectOption = .all ↔ c.distinct = none := by
  change c.modifier.option = .all ↔ _
  unfold SelectChoices.modifier
  cases c.distinct with
  | some on => exact ⟨fun h => (nomatch h), fun h => (nomatch h)⟩
  | none => cases c.lock <;> exact ⟨fun _ => rfl, fun _ => rfl⟩

theorem addRandomShape_ensures (h : o.InRange nan) {c : SelectChoices} (hs : c.shape = .plain)
    (hl : c.lock = none) (ha : c.arm = none) (scope : List ScopeColumn) :
    (c.statement.addRandomShape o scope c.projected).Ensures nan fun s =>
      ∃ shape, shape.Permitted o scope c.projected ∧ (shape.isGrouped → c.distinct = none) ∧
        s = { c with shape }.statement := by
  have coin : (if c.statement.selectOption = .all then liftM (chance o.groupByChance)
      else pure false : Building Bool).Ensures nan fun grouped => grouped → c.distinct = none := by
    split
    · next all =>
      exact .lift ((chance_ensures h.groupByChance).mono fun _ _ _ =>
        selectOption_eq_all_iff.1 all)
    · exact .pure fun hf => (nomatch hf)
  unfold addRandomShape
  refine .branch coin fun grouped hg => ?_
  cases grouped with
  | true =>
    refine (addRandomGrouping_ensures hs hl (sometimes_ensures h.havingChance
      (Predicate.random_ensures _ _))).mono fun s ⟨having, hh, same⟩ => ?_
    exact ⟨.grouped having, .grouped hh, fun _ => hg rfl, same⟩
  | false =>
    refine .bindLift (chance_ensures h.windowChance) fun windowed _ => ?_
    cases windowed with
    | true =>
      refine .lift ((addRandomWindows_ensures h hs ha scope).mono fun s ⟨shape, hp, hf, same⟩ => ?_)
      exact ⟨shape, hp, fun ht => absurd (hf.symm.trans ht) (by decide), same⟩
    | false => exact .pure ⟨.plain, .plain, fun hf => (nomatch hf), by rw [← hs]⟩

theorem addRandomOrder_ensures (h : o.InRange nan) {c : SelectChoices} (hl : c.limit = none)
    (ho : c.offset = none) :
    (c.statement.addRandomOrder o c.projected c.distinct.join).Ensures nan fun s =>
      ∃ orderBy limit offset, { c with orderBy, limit, offset }.Ordered ∧
        { c with orderBy, limit, offset }.Limited o ∧
        s = { c with orderBy, limit, offset }.statement := by
  let first := c.distinct.join.toList.map fun d => OrderTerm.ofExpr d.expr
  have coin : (if c.distinct.join.isSome then pure true
      else chance o.orderByChance).Ensures nan fun _ => True := by
    split
    · exact .pure trivial
    · exact chance_ensures h.orderByChance
  refine (smallNumber_ensures (by decide)).bind fun extra _ => ?_
  refine .branch coin fun ordered _ => ?_
  have terms : (if ordered then
      OrderTerm.randomList (c.projected.filter ScopeColumn.isOrderable) extra
      else pure []).Ensures nan fun more =>
        ∀ t ∈ more, ∃ d ∈ c.projected, d.isOrderable ∧ t.expr = d.expr := by
    split
    · refine (randomTerms_ensures _ extra).mono fun more hm t ht => ?_
      obtain ⟨d, mem, same⟩ := hm t ht
      exact ⟨d, (List.mem_filter.1 mem).1, (List.mem_filter.1 mem).2, same⟩
    · exact .pure fun t ht => (nomatch ht)
  refine .branch terms fun more hm => ?_
  refine (addRandomLimit_ensures h (c := { c with orderBy := first ++ more }) hl ho).mono ?_
  rintro s ⟨limit, offset, limited, same⟩
  exact ⟨first ++ more, limit, offset, ⟨more, rfl, hm⟩, limited, same⟩

theorem lockable_of_isLockable {c : SelectChoices} (h : c.statement.isLockable c.origin) :
    c.Lockable := by
  unfold isLockable at h
  simp only [Bool.and_eq_true, beq_iff_eq, List.isEmpty_iff, Bool.not_eq_true'] at h
  obtain ⟨⟨⟨⟨⟨all, groupBy⟩, windows⟩, join⟩, setOperation⟩, source⟩ := h
  exact ⟨selectOption_eq_all_iff.1 all, groupBy, windows, join, setOperation, source⟩

theorem setLockingClause_statement {c : SelectChoices} (h : c.Lockable) (hl : c.lock = none)
    (clause : LockingClause) :
    c.statement.setLockingClause (some clause) = .ok { c with lock := some clause }.statement := by
  have all : c.statement.selectOption = .all := selectOption_eq_all_iff.2 h.distinct
  have ungrouped : c.statement.groupBy = [] := h.groupBy
  unfold setLockingClause Setter.result
  rw [outcome_lockingClause all ungrouped]
  obtain ⟨origin, projected, filter, distinct, shape, orderBy, limit, offset, lock, arm⟩ := c
  obtain rfl : distinct = none := h.distinct
  subst hl
  rfl

theorem addRandomLock_ensures (h : o.InRange nan) {c : SelectChoices} (hl : c.lock = none) :
    (c.statement.addRandomLock o c.origin).Ensures nan fun s =>
      ∃ lock, (∀ clause, lock = some clause → c.Lockable) ∧ s = { c with lock }.statement := by
  have coin : (if c.statement.isLockable c.origin then liftM (chance o.lockingChance)
      else pure false : Building Bool).Ensures nan fun locked => locked → c.Lockable := by
    split
    · next lockable =>
      exact .lift ((chance_ensures h.lockingChance).mono fun _ _ _ =>
        lockable_of_isLockable lockable)
    · exact .pure fun hf => (nomatch hf)
  unfold addRandomLock
  refine .branch coin fun locked hlock => ?_
  cases locked with
  | false => exact .pure ⟨none, fun clause hc => (nomatch hc), by rw [← hl]⟩
  | true =>
    have lockable := hlock rfl
    refine .bindLift (pick_ensures _) fun clause _ => ?_
    exact .ofOk (setLockingClause_statement lockable hl clause)
      ⟨some clause, fun _ _ => lockable, rfl⟩

theorem similar_statement (c : SelectChoices) (filter : Option Expr) :
    c.statement.similar filter = .node (c.armClauses filter) := by
  unfold similar
  dsimp only
  rw [foldl_addWindowDefinition]
  have windows : NamedWindows.empty.putAll c.shape.windows.entries = c.shape.windows :=
    NamedWindows.putAll_entries _
  unfold SelectChoices.armClauses
  rw [← windows]
  rfl

theorem addRandomArm_ensures (h : o.InRange nan) {c : SelectChoices} (ha : c.arm = none) :
    (c.statement.addRandomArm o c.origin.scope).Ensures nan fun s =>
      ∃ arm : SetOperator × Option Expr,
        (∀ e, arm.2 = some e → Predicate.Over c.origin.scope o.predicateDepth e) ∧
        s = { c with arm := some arm }.statement := by
  refine (o.randomFilter_ensures h c.origin.scope).bind fun filter hf => ?_
  refine (pick_ensures _).bind fun operator _ => .pure ⟨(operator, filter), hf, ?_⟩
  rw [similar_statement]
  obtain ⟨origin, projected, own, distinct, shape, orderBy, limit, offset, lock, arm⟩ := c
  subst ha
  rfl

/-- A statement is ordered and limited unless another arm follows. -/
theorem orderStep_ensures (h : o.InRange nan) {c : SelectChoices} (hb : c.orderBy = [])
    (hl : c.limit = none) (ho : c.offset = none) :
    (if c.origin.setOperation then pure c.statement
      else liftM (c.statement.addRandomOrder o c.projected c.distinct.join) :
      Building Select).Ensures nan fun s => ∃ orderBy limit offset,
        (c.origin.setOperation = false →
          { c with orderBy, limit, offset }.Ordered ∧ { c with orderBy, limit, offset }.Limited o) ∧
        (c.origin.setOperation = true → orderBy = [] ∧ limit = none ∧ offset = none) ∧
        s = { c with orderBy, limit, offset }.statement := by
  split
  · next arm =>
    exact .pure ⟨c.orderBy, c.limit, c.offset, fun hf => absurd (arm.symm.trans hf) (by decide),
      fun _ => ⟨hb, hl, ho⟩, rfl⟩
  · next arm =>
    refine .lift ((addRandomOrder_ensures h hl ho).mono ?_)
    rintro s ⟨orderBy, limit, offset, ordered, limited, same⟩
    exact ⟨orderBy, limit, offset, fun _ => ⟨ordered, limited⟩, fun ht => absurd ht arm, same⟩

theorem armStep_ensures (h : o.InRange nan) {c : SelectChoices} (ha : c.arm = none) :
    (if c.origin.setOperation then liftM (c.statement.addRandomArm o c.origin.scope)
      else pure c.statement : Building Select).Ensures nan fun s => ∃ arm,
        arm.isSome = c.origin.setOperation ∧
        (∀ operator e, arm = some (operator, some e) →
          Predicate.Over c.origin.scope o.predicateDepth e) ∧
        s = { c with arm }.statement := by
  split
  · next set =>
    refine .lift ((addRandomArm_ensures h ha).mono fun s ⟨arm, hf, same⟩ => ?_)
    refine ⟨some arm, set.symm, fun operator e he => hf e ?_, same⟩
    rw [Option.some.inj he]
  · next set =>
    have set : c.origin.setOperation = false := by simpa using set
    exact .pure ⟨none, set.symm, fun _ _ he => (nomatch he), by rw [← ha]⟩

/-- The choices behind a statement start with the origin that it was drawn over. -/
theorem randomOver_ensures (h : o.InRange nan) {tables : List Table} {table : Table} {g : Origin}
    (origin : g.Drawn tables o table) :
    (randomOver o g).Ensures nan fun s =>
      ∃ c : SelectChoices, c.Permitted tables o table ∧ c.origin = g ∧ s = c.statement := by
  refine .bindLift (nonemptySubset_ensures g.scope) fun projected ⟨kept, shown⟩ => ?_
  refine .bindLift (o.randomFilter_ensures h g.scope) fun filter hf => ?_
  refine .bind (ofOrigin_ensures g projected filter) ?_
  rintro _ rfl
  refine .bind (addRandomDistinct_ensures h rfl rfl) ?_
  rintro _ ⟨distinct, distinctOn, rfl⟩
  refine .bind (addRandomShape_ensures h rfl rfl rfl g.scope) ?_
  rintro _ ⟨shape, hs, grouped, rfl⟩
  refine .branch (orderStep_ensures h
    (c := { origin := g, projected, filter, distinct, shape }) rfl rfl rfl) ?_
  rintro _ ⟨orderBy, limit, offset, ordered, unordered, rfl⟩
  refine .bind (addRandomLock_ensures h rfl) ?_
  rintro _ ⟨lock, lockable, rfl⟩
  refine (armStep_ensures h (c := ⟨g, projected, filter, distinct, shape, orderBy, limit, offset,
    lock, none⟩) rfl).mono ?_
  rintro _ ⟨arm, ha, armFilter, rfl⟩
  refine ⟨_, ⟨origin, kept, shown, hf, distinctOn, hs, grouped, fun hn => ?_, unordered,
    fun clause hc => ?_, ha, armFilter⟩, rfl, rfl⟩
  · obtain ⟨terms, limited⟩ := ordered hn
    exact ⟨terms, limited.limit, limited.offset⟩
  · have l := lockable clause hc
    exact ⟨l.distinct, l.groupBy, l.windowFunctions, l.join, l.setOperation, l.source⟩

theorem randomFrom_ensures (h : o.InRange nan) (tables : List Table) (table : Table) :
    (randomFrom tables o table).Ensures nan fun s =>
      ∃ c : SelectChoices, c.Permitted tables o table ∧ s = c.statement := by
  refine .bind (randomOrigin_ensures h tables table) fun g origin => ?_
  refine (randomOver_ensures h origin).mono ?_
  rintro s ⟨c, permitted, -, same⟩
  exact ⟨c, permitted, same⟩

/-- A catalog without tables leaves a constant to select. -/
theorem random_ensures (h : o.InRange nan) (tables : List Table) :
    (random tables o).Ensures nan fun s =>
      (tables = [] ∧ ∃ value, Predicate.Over [] o.predicateDepth value ∧
        s = .node { columns := [.expr value none] }) ∨
      ∃ table ∈ tables, ∃ c : SelectChoices, c.Permitted tables o table ∧ s = c.statement := by
  refine .bindLift (pickMaybe_ensures tables) fun picked hp => ?_
  obtain ⟨rfl, rfl⟩ | ⟨table, mem, rfl⟩ := hp
  · exact .bindLift (Predicate.random_ensures [] _) fun value hv =>
      .pure (.inl ⟨rfl, value, hv, rfl⟩)
  · exact (randomFrom_ensures h tables table).mono fun s hs => .inr ⟨table, mem, hs⟩

end Select
end QueryForge
