import QueryForge.Proofs.Select.ClauseFields
import QueryForge.Proofs.Select.Nesting
import QueryForge.Select.With

/-!
# Statements built by the public operations

A statement is built if it comes from a constructor by calls of the mutators, refused ones
included, and everything put into it is built as well. Nothing checks a statement that is put into
FROM, a join or a set operation; it is enough that it was built under the same rules.
-/

namespace QueryForge

/-- A call of a public mutator. -/
inductive SelectCall where
  | guarded (call : ClauseCall)
  | withClause (w : Option (WithClause Select))
  | columns (columns : List ResultColumn)
  | windowFunctions (functions : List (WindowFunction Expr))
  | windowDefinition (name : String) (definition : WindowDefinition Expr)
  | fromItems (items : List (FromItem Select))
  | joins (joins : List (Join Select))
  | filter (filter : Option Expr)
  | having (having : Option Expr)
  | orderBy (terms : List (OrderTerm Expr))
  | limit (limit : Option UInt64)
  | offset (offset : Option UInt64)
  | attach (operator : SetOperator) (next : Select)

namespace SelectCall

/-- The statements that the call puts into FROM, a join or a set operation. -/
def statements : SelectCall → List Select
  | .fromItems items => items.flatMap FromItem.nested
  | .joins added => added.flatMap fun j => j.item.nested
  | .attach _ next => [next]
  | _ => []

def withClause? : SelectCall → Option (WithClause Select)
  | .withClause w => w
  | _ => none

end SelectCall

namespace Select

/-- The statement that a call leaves behind; its error, if it refuses, is ignored. -/
def afterCall (s : Select) : SelectCall → Select
  | .guarded call => (s.attempt call).2
  | .withClause w => s.setWithClause w
  | .columns columns => s.setColumns columns
  | .windowFunctions functions => s.setWindowFunctions functions
  | .windowDefinition name definition => s.addWindowDefinition name definition
  | .fromItems items => s.setFromItems items
  | .joins joins => s.setJoins joins
  | .filter filter => s.setFilter filter
  | .having having => s.setHaving having
  | .orderBy terms => s.setOrderBy terms
  | .limit limit => s.setLimit limit
  | .offset offset => s.setOffset offset
  | .attach operator next => s.attach operator next

end Select

mutual

inductive Select.Built : Select → Prop
  | empty : Select.Built .empty
  | simple (table : String) (columns : List ResultColumn) : Select.Built (.simple table columns)
  | call {s : Select} {c : SelectCall} (start : Select.Built s)
      (statements : ∀ q ∈ c.statements, Select.Built q)
      (withClause : ∀ w, c.withClause? = some w → WithClause.Built w) :
      Select.Built (s.afterCall c)

inductive Cte.Built : Cte Select → Prop
  | build {name : String} {columnAliases : List String} {query : Select} {columns : List Column}
      {cte : Cte Select} (built : Select.Built query)
      (ok : Cte.build name columnAliases query columns = .ok cte) : Cte.Built cte
  | draft {d : CteDraft} {cte : Cte Select} (built : CteDraft.Built d) (ok : d.build = .ok cte) :
      Cte.Built cte

inductive CteDraft.Built : CteDraft → Prop
  | empty : CteDraft.Built {}
  | setName {d : CteDraft} (name : String) (start : CteDraft.Built d) :
      CteDraft.Built (d.setName name)
  | setColumnAliases {d : CteDraft} (aliases : List String) (start : CteDraft.Built d) :
      CteDraft.Built (d.setColumnAliases aliases)
  | addColumnAlias {d : CteDraft} (asName : String) (start : CteDraft.Built d) :
      CteDraft.Built (d.addColumnAlias asName)
  | setQuery {d : CteDraft} {query : Select} (start : CteDraft.Built d)
      (built : Select.Built query) : CteDraft.Built (d.setQuery query)
  | setColumns {d : CteDraft} (columns : List Column) (start : CteDraft.Built d) :
      CteDraft.Built (d.setColumns columns)

inductive WithClause.Built : WithClause Select → Prop
  | build {ctes : List (Cte Select)} {w : WithClause Select} (built : ∀ cte ∈ ctes, Cte.Built cte)
      (ok : WithClause.build ctes = .ok w) : WithClause.Built w
  | draft {d : WithDraft} {w : WithClause Select} (built : WithDraft.Built d)
      (ok : d.build = .ok w) : WithClause.Built w

inductive WithDraft.Built : WithDraft → Prop
  | empty : WithDraft.Built {}
  | addCte {d : WithDraft} {cte : Cte Select} (start : WithDraft.Built d) (built : Cte.Built cte) :
      WithDraft.Built (d.addCte cte)
  | setCtes {d : WithDraft} {ctes : List (Cte Select)} (start : WithDraft.Built d)
      (built : ∀ cte ∈ ctes, Cte.Built cte) : WithDraft.Built (d.setCtes ctes)

end

/-- What holds of new statements and after every call holds of built ones. -/
@[elab_as_elim]
theorem Select.Built.induction {P : Select → Prop} (empty : P .empty)
    (simple : ∀ table columns, P (.simple table columns))
    (call : ∀ (s : Select) (c : SelectCall), P s → P (s.afterCall c)) {s : Select} : s.Built → P s
  | .empty => empty
  | .simple table columns => simple table columns
  | .call start _ _ => call _ _ (start.induction empty simple call)

/-- One statement keeps the rules of building: no row lock on a grouped statement, and a WITH
clause has at least one member and only members with a name. -/
structure Clauses.Legal (c : Clauses Select) : Prop where
  locking : Select.checkLocking c.modifier c.groupBy = .ok ()
  nonempty : ∀ w, c.withClause = some w → w.ctes ≠ []
  named : ∀ cte ∈ c.ctes, cte.name ≠ ""

/-- Every statement inside keeps the rules. -/
def Select.Sound (s : Select) : Prop := ∀ t, s.Contains t → t.clauses.Legal

structure Cte.Sound (cte : Cte Select) : Prop where
  named : cte.name ≠ ""
  query : cte.query.Sound

structure WithClause.Sound (w : WithClause Select) : Prop where
  nonempty : w.ctes ≠ []
  ctes : ∀ cte ∈ w.ctes, cte.Sound

namespace Select

theorem sound_node {c : Clauses Select} :
    (node c).Sound ↔ c.Legal ∧ ∀ q ∈ c.nested, q.Sound :=
  forall_contains_node

theorem Sound.validate {s : Select} (h : s.Sound) : s.validate = .ok () :=
  validate_eq_ok_iff.2 fun t ht => (h t ht).locking

theorem checkLocking_eq_ok_iff (s : Select) :
    checkLocking s.clauses.modifier s.clauses.groupBy = .ok () ↔
      (s.lockingClause ≠ none → s.groupBy = []) := by
  cases hm : s.clauses.modifier <;>
    simp [checkLocking, lockingClause, groupBy, hm, SelectModifier.lockingClause]

theorem Sound.legal {s : Select} (h : s.Sound) : s.clauses.Legal := h s (.self s)

/-- A statement is sound if its own clauses are legal and it contains nothing new but sound
statements. -/
theorem Sound.changed {s t : Select} (h : s.Sound) (legal : t.clauses.Legal)
    (nested : ∀ q ∈ t.clauses.nested, q ∈ s.clauses.nested ∨ q.Sound) : t.Sound := by
  obtain ⟨c⟩ := s
  obtain ⟨d⟩ := t
  refine sound_node.2 ⟨legal, ?_⟩
  intro q hq
  rcases nested q hq with hq | sound
  · exact (sound_node.1 h).2 q hq
  · exact sound

theorem Sound.attempt {s : Select} (h : s.Sound) (call : ClauseCall) :
    (s.attempt call).2.Sound := by
  have grouped := (checkLocking_eq_ok_iff s).1 h.legal.locking
  have exclusive := exclusive_attempt ((exclusive_fields_iff s).2 grouped) call
  have locking := (checkLocking_eq_ok_iff (s.attempt call).2).2 exclusive.grouped
  obtain ⟨modifier, groupBy, same⟩ := s.attempt_writes call
  rw [same] at locking ⊢
  exact h.changed ⟨locking, h.legal.nonempty, h.legal.named⟩ fun q hq => .inl hq

theorem Sound.setWithClause {s : Select} (h : s.Sound) {w : Option (WithClause Select)}
    (sound : ∀ v, w = some v → v.Sound) : (s.setWithClause w).Sound := by
  have ctes : ∀ cte ∈ ({ s.clauses with withClause := w } : Clauses Select).ctes, cte.Sound := by
    intro cte hc
    obtain ⟨v, hv, mem⟩ := Clauses.mem_ctes.1 hc
    exact (sound v hv).ctes cte mem
  refine h.changed ⟨h.legal.locking, fun v hv => (sound v hv).nonempty, fun cte hc =>
    (ctes cte hc).named⟩ ?_
  intro q hq
  rcases Clauses.mem_nested.1 hq with ⟨cte, hc, rfl⟩ | rest
  · exact .inr (ctes cte hc).query
  · exact .inl (Clauses.mem_nested.2 (.inr rest))

theorem Sound.setFromItems {s : Select} (h : s.Sound) {items : List (FromItem Select)}
    (sound : ∀ i ∈ items, ∀ q ∈ i.nested, q.Sound) : (s.setFromItems items).Sound := by
  refine h.changed ⟨h.legal.locking, h.legal.nonempty, h.legal.named⟩ ?_
  intro q hq
  rcases Clauses.mem_nested.1 hq with cte | ⟨i, hi, hq⟩ | rest
  · exact .inl (Clauses.mem_nested.2 (.inl cte))
  · exact .inr (sound i hi q hq)
  · exact .inl (Clauses.mem_nested.2 (.inr (.inr rest)))

theorem Sound.setJoins {s : Select} (h : s.Sound) {joins : List (Join Select)}
    (sound : ∀ j ∈ joins, ∀ q ∈ j.item.nested, q.Sound) : (s.setJoins joins).Sound := by
  refine h.changed ⟨h.legal.locking, h.legal.nonempty, h.legal.named⟩ ?_
  intro q hq
  rcases Clauses.mem_nested.1 hq with cte | item | ⟨j, hj, hq⟩ | arm
  · exact .inl (Clauses.mem_nested.2 (.inl cte))
  · exact .inl (Clauses.mem_nested.2 (.inr (.inl item)))
  · exact .inr (sound j hj q hq)
  · exact .inl (Clauses.mem_nested.2 (.inr (.inr (.inr arm))))

theorem Sound.setArm {c : Clauses Select} (h : (node c).Sound) {arm : SetOperation Select}
    (sound : arm.query.Sound) : (node { c with setOperation := some arm }).Sound := by
  obtain ⟨legal, nested⟩ := sound_node.1 h
  refine sound_node.2 ⟨⟨legal.locking, legal.nonempty, legal.named⟩, ?_⟩
  intro q hq
  rcases Clauses.mem_nested.1 hq with cte | item | join | ⟨a, ha, rfl⟩
  · exact nested q (Clauses.mem_nested.2 (.inl cte))
  · exact nested q (Clauses.mem_nested.2 (.inr (.inl item)))
  · exact nested q (Clauses.mem_nested.2 (.inr (.inr (.inl join))))
  · cases ha
    exact sound

/-- A statement attached behind the last arm is reached through sound arms only. -/
theorem Sound.attach {s next : Select} (h : s.Sound) (operator : SetOperator) (sound : next.Sound) :
    (s.attach operator next).Sound := by
  induction s using Select.induction with
  | step c ih =>
    cases hc : c.setOperation with
    | none =>
      rw [attach_of_eq_none hc]
      exact h.setArm sound
    | some arm =>
      obtain ⟨first, arm⟩ := arm
      have mem : arm ∈ c.nested := Clauses.mem_nested.2 (.inr (.inr (.inr ⟨_, hc, rfl⟩)))
      rw [attach_of_eq_some hc]
      exact h.setArm (ih arm mem ((sound_node.1 h).2 arm mem))

theorem Sound.afterCall {s : Select} (h : s.Sound) {c : SelectCall}
    (statements : ∀ q ∈ c.statements, q.Sound)
    (withClause : ∀ w, c.withClause? = some w → w.Sound) : (s.afterCall c).Sound := by
  have legal := h.legal
  cases c with
  | guarded call => exact h.attempt call
  | withClause w => exact h.setWithClause withClause
  | fromItems items =>
    refine h.setFromItems fun i hi q hq => statements q ?_
    exact List.mem_flatMap.2 ⟨i, hi, hq⟩
  | joins joins =>
    refine h.setJoins fun j hj q hq => statements q ?_
    exact List.mem_flatMap.2 ⟨j, hj, hq⟩
  | attach operator next => exact h.attach operator (statements next List.mem_cons_self)
  | columns | windowFunctions | windowDefinition | filter | having | orderBy | limit | offset =>
    exact h.changed ⟨legal.locking, legal.nonempty, legal.named⟩ fun q hq => .inl hq

theorem sound_empty : empty.Sound :=
  sound_node.2 ⟨⟨rfl, by simp, by simp [Clauses.ctes]⟩, by simp [Clauses.nested, Clauses.ctes]⟩

theorem sound_simple (table : String) (columns : List ResultColumn) :
    (simple table columns).Sound := by
  refine sound_node.2 ⟨⟨rfl, by simp, by simp [Clauses.ctes]⟩, ?_⟩
  simp [Clauses.nested, Clauses.ctes, FromItem.ofTable, FromItem.nested]

end Select

theorem Cte.sound_of_build {name : String} {columnAliases : List String} {query : Select}
    {columns : List Column} {cte : Cte Select} (sound : query.Sound)
    (ok : Cte.build name columnAliases query columns = .ok cte) : cte.Sound := by
  unfold Cte.build at ok
  rw [sound.validate] at ok
  split at ok
  · cases ok
  · next named =>
    cases ok
    exact ⟨fun nameless => named (by simpa using nameless), sound⟩

theorem CteDraft.sound_of_build {d : CteDraft} {cte : Cte Select}
    (sound : ∀ q, d.query = some q → q.Sound) (ok : d.build = .ok cte) : cte.Sound := by
  unfold CteDraft.build at ok
  dsimp only at ok
  split at ok
  · cases ok
  · split at ok
    · cases ok
    · next query hq => exact Cte.sound_of_build (sound query hq) ok

theorem WithClause.sound_of_build {ctes : List (Cte Select)} {w : WithClause Select}
    (sound : ∀ cte ∈ ctes, cte.Sound) (ok : WithClause.build ctes = .ok w) : w.Sound := by
  unfold WithClause.build at ok
  split at ok
  · cases ok
  · next nonempty =>
    cases ok
    exact ⟨fun empty => nonempty (List.isEmpty_iff.2 empty), sound⟩

mutual

theorem Select.Built.sound {s : Select} : s.Built → s.Sound
  | .empty => Select.sound_empty
  | .simple table columns => Select.sound_simple table columns
  | .call start statements withClause =>
    start.sound.afterCall (fun q hq => (statements q hq).sound) fun w hw => (withClause w hw).sound

theorem Cte.Built.sound {cte : Cte Select} : cte.Built → cte.Sound
  | .build built ok => Cte.sound_of_build built.sound ok
  | .draft built ok => CteDraft.sound_of_build built.query_sound ok

theorem CteDraft.Built.query_sound {d : CteDraft} : d.Built → ∀ q, d.query = some q → q.Sound
  | .empty => fun _ hq => nomatch hq
  | .setName _ start => start.query_sound
  | .setColumnAliases _ start => start.query_sound
  | .addColumnAlias _ start => start.query_sound
  | .setQuery _ built => fun _ hq => Option.some.inj hq ▸ built.sound
  | .setColumns _ start => start.query_sound

theorem WithClause.Built.sound {w : WithClause Select} : w.Built → w.Sound
  | .build built ok => WithClause.sound_of_build (fun cte hc => (built cte hc).sound) ok
  | .draft built ok => WithClause.sound_of_build built.ctes_sound ok

theorem WithDraft.Built.ctes_sound {d : WithDraft} : d.Built → ∀ cte ∈ d.ctes, cte.Sound
  | .empty => fun _ hc => nomatch hc
  | .addCte start built => fun cte hc => by
    rcases List.mem_append.1 hc with hc | hc
    · exact start.ctes_sound cte hc
    · exact List.mem_singleton.1 hc ▸ built.sound
  | .setCtes _ built => fun cte hc => (built cte hc).sound

end

namespace Select

/-- A built statement is valid, and every WITH clause in it has a member and no nameless one. -/
theorem built_valid {s : Select} (h : s.Built) :
    s.validate = .ok () ∧
      ∀ t, s.Contains t → ∀ w, t.clauses.withClause = some w →
        w.ctes ≠ [] ∧ ∀ cte ∈ w.ctes, cte.name ≠ "" := by
  have sound := h.sound
  refine ⟨sound.validate, ?_⟩
  intro t ht w hw
  refine ⟨(sound t ht).nonempty w hw, ?_⟩
  intro cte hc
  exact (sound t ht).named cte (Clauses.mem_ctes.2 ⟨w, hw, hc⟩)

/-- A locked statement that refuses to be grouped and then gets a WITH clause, a subquery and a
second arm. -/
def layered (w : WithClause Select) (base : Select) : Select :=
  ((((empty.afterCall (.guarded (.lock (some .share)))).afterCall
    (.guarded (.groupBy [.truth]))).afterCall (.withClause (some w))).afterCall
    (.fromItems [.subquery base "q"])).afterCall (.attach .union base)

theorem Built.layered {w : WithClause Select} {base : Select} (hw : w.Built) (hb : base.Built) :
    (layered w base).Built := by
  have locked := Built.call (c := .guarded (.lock (some .share))) .empty
    (by simp [SelectCall.statements]) (by simp [SelectCall.withClause?])
  have refused := Built.call (c := .guarded (.groupBy [.truth])) locked
    (by simp [SelectCall.statements]) (by simp [SelectCall.withClause?])
  have named := Built.call (c := .withClause (some w)) refused
    (by simp [SelectCall.statements]) (by simpa [SelectCall.withClause?] using hw)
  have filled := Built.call (c := .fromItems [.subquery base "q"]) named
    (by simpa [SelectCall.statements, FromItem.nested] using hb) (by simp [SelectCall.withClause?])
  exact Built.call (c := .attach .union base) filled
    (by simpa [SelectCall.statements] using hb) (by simp [SelectCall.withClause?])

theorem layered_valid :
    ∃ (w : WithClause Select) (base : Select), (layered w base).Built ∧
      (layered w base).validate = .ok () ∧ w.ctes ≠ [] ∧
      (layered w base).lockingClause = some .share ∧ (layered w base).groupBy = [] ∧
      (layered w base).clauses.nested = [base, base, base] := by
  let base := simple "t" [.star]
  have hb : base.Built := .simple "t" [.star]
  let cte : Cte Select := ⟨"c", ["x"], base, []⟩
  have hc : cte.Built :=
    .draft (.addColumnAlias "x" (.setQuery (.setName "c" .empty) hb)) rfl
  have hw : WithClause.Built ⟨[cte]⟩ := .draft (.addCte .empty hc) rfl
  have built := Built.layered hw hb
  have valid := built_valid built
  have nonempty := (valid.2 _ (.self _) _ rfl).1
  exact ⟨⟨[cte]⟩, base, built, valid.1, nonempty, rfl, rfl, rfl⟩

end Select
end QueryForge
