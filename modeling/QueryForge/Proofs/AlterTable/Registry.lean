import Mathlib.Data.List.Nodup
import QueryForge.Proofs.AlterTable.Drawn

/-!
# The errors registered for a random ALTER TABLE statement

The errors of every kept kind are registered, in order and with those of its action if it yielded
one. So every error that a fragment can raise is expected.
-/

namespace QueryForge

variable {nan : Prop}

/-- The action of a kind, if the statement has one. -/
def AlterTable.action? (a : AlterTable) (k : ActionKind) : Option AlterAction :=
  (a.fragments.find? fun f => f.action.kind == k).map AlterFragment.action

def AlterFragment.possibleErrors (f : AlterFragment) : List String :=
  f.action.kind.expectedErrors ++ f.action.expectedErrors

namespace AlterTableQuery

/-- The texts to register for a statement of kept kinds: those of any statement, then for each
kind its own and those of its action. -/
def registered (kept : List ActionKind) (a : AlterTable) : List String :=
  ErrorRegistry.expressionErrors ++ ErrorRegistry.writeErrors ++ ErrorRegistry.tableErrors ++
    ErrorRegistry.alterTableErrors ++
    kept.flatMap fun k => k.expectedErrors ++ (a.action? k).elim [] AlterAction.expectedErrors

/-- The registry of a statement fits the kinds that were kept for it. -/
structure RegistryComplete (kept : List ActionKind) (q : AlterTableQuery) : Prop where
  distinct : kept.Nodup
  kinds : (q.alterTable.fragments.map fun f => f.action.kind).Sublist kept
  entries : q.expectedErrors.entries = (registered kept q.alterTable).eraseDups
  possible : ∀ f ∈ q.alterTable.fragments, ∀ e ∈ f.possibleErrors, e ∈ q.expectedErrors.entries
  expected : ∀ f ∈ q.alterTable.fragments, ∀ e ∈ f.possibleErrors, ∀ before after,
    q.statement.isExpectedError (before ++ e ++ after) = true

variable {t : Table} {kept : List ActionKind} {actions : List DrawnAction}

theorem entries_addAll_baseErrors (texts : List String) :
    (baseErrors.addAll texts).entries =
      (ErrorRegistry.expressionErrors ++ ErrorRegistry.writeErrors ++ ErrorRegistry.tableErrors ++
        ErrorRegistry.alterTableErrors ++ texts).eraseDups := by
  unfold baseErrors ErrorRegistry.addTableErrors ErrorRegistry.addWriteErrors
    ErrorRegistry.addExpressionErrors
  simp only [ErrorRegistry.addAll_addAll]
  exact ErrorRegistry.entries_addAll _ _

theorem kind_fragment (h : List.Forall₂ (DrawnAction.Drawn t) kept actions) {d : DrawnAction}
    (hd : d ∈ actions) {f : AlterFragment} (hf : d.fragment = some f) : f.action.kind = d.kind := by
  obtain ⟨k, -, drawn⟩ := Draw.exists_of_forall₂ h d hd
  exact (drawn.fragment f hf).2.1.trans drawn.kind.symm

theorem map_kind (h : List.Forall₂ (DrawnAction.Drawn t) kept actions) :
    actions.map DrawnAction.kind = kept := by
  induction h with
  | nil => rfl
  | cons hd _ ih => rw [List.map_cons, hd.kind, ih]

/-- As the kinds are different, the fragment of a kind is the one that it yielded. -/
theorem action?_kind (hk : kept.Nodup) (h : List.Forall₂ (DrawnAction.Drawn t) kept actions)
    {d : DrawnAction} (hd : d ∈ actions) :
    AlterTable.action? ⟨actions.filterMap DrawnAction.fragment⟩ d.kind =
      d.fragment.map AlterFragment.action := by
  have unique {f : AlterFragment} (hf : f ∈ actions.filterMap DrawnAction.fragment)
      (same : f.action.kind = d.kind) : d.fragment = some f := by
    obtain ⟨e, he, yielded⟩ := List.mem_filterMap.1 hf
    have kinds : e.kind = d.kind := (kind_fragment h he yielded).symm.trans same
    rw [← List.inj_on_of_nodup_map ((map_kind h).symm ▸ hk) he hd kinds]
    exact yielded
  unfold AlterTable.action?
  cases found : (actions.filterMap DrawnAction.fragment).find? fun f => f.action.kind == d.kind with
  | some f =>
    have same := List.find?_some found
    rw [unique (List.mem_of_find?_eq_some found) (beq_iff_eq.1 same)]
  | none =>
    cases hf : d.fragment with
    | none => rfl
    | some f =>
      have mem := List.mem_filterMap.2 ⟨d, hd, hf⟩
      have missing := List.find?_eq_none.1 found f mem
      exact absurd (beq_iff_eq.2 (kind_fragment h hd hf)) missing

theorem registryComplete_of_drawn (hk : kept.Nodup)
    (h : List.Forall₂ (DrawnAction.Drawn t) kept actions) {q : AlterTableQuery}
    (hq : ofDrawn actions = some q) : RegistryComplete kept q := by
  obtain ⟨-, rfl⟩ := eq_some_of_ofDrawn hq
  have texts : actions.flatMap DrawnAction.expectedErrors = kept.flatMap fun k =>
      k.expectedErrors ++ (AlterTable.action? ⟨actions.filterMap DrawnAction.fragment⟩ k).elim []
        AlterAction.expectedErrors := by
    rw [← map_kind h, List.flatMap_map]
    refine List.flatMap_congr fun d hd => ?_
    rw [action?_kind hk h hd, DrawnAction.expectedErrors]
    cases d.fragment <;> rfl
  have entries : (baseErrors.addAll (actions.flatMap DrawnAction.expectedErrors)).entries =
      (registered kept ⟨actions.filterMap DrawnAction.fragment⟩).eraseDups := by
    rw [entries_addAll_baseErrors, texts]
    rfl
  have possible : ∀ f ∈ actions.filterMap DrawnAction.fragment, ∀ e ∈ f.possibleErrors,
      e ∈ (baseErrors.addAll (actions.flatMap DrawnAction.expectedErrors)).entries := by
    intro f hf e he
    obtain ⟨d, hd, yielded⟩ := List.mem_filterMap.1 hf
    rw [entries_addAll_baseErrors, List.mem_eraseDups]
    refine List.mem_append_right _ (List.mem_flatMap.2 ⟨d, hd, ?_⟩)
    rw [DrawnAction.expectedErrors, yielded, ← kind_fragment h hd yielded]
    exact he
  exact ⟨hk, DrawnAction.sublist_kinds h, entries, possible,
    fun f hf e he before after => ErrorRegistry.isExpected_of_mem (possible f hf e he) before after⟩

/-- With checked options, the registry of a generated statement is complete for the kinds that the
generator kept. -/
theorem generation_registers_errors {o : Options} (checked : o.check = .ok ()) (t : Table) :
    Prod.snd <$> randomTraced t o.alterTable = AlterTableQuery.random t o.alterTable ∧
      (randomTraced t o.alterTable).Ensures o.alterTable.HasNaN fun run =>
        ∀ q, run.2 = some q → RegistryComplete run.1 q := by
  refine ⟨snd_randomTraced t o.alterTable, ?_⟩
  refine (randomTraced_ensures (Options.check_eq_ok_iff.1 checked).2 t).mono ?_
  rintro run ⟨nodup, actions, drawn, same⟩ q hq
  exact registryComplete_of_drawn nodup drawn (same.symm.trans hq)

theorem assorted_generation_registers_errors :
    Options.broad.check = .ok () ∧ ∀ t ∈ Schema.assorted.tables,
      (randomTraced t Options.broad.alterTable).Ensures False fun run =>
        ∀ q, run.2 = some q → RegistryComplete run.1 q :=
  ⟨Options.check_broad, fun t _ =>
    (generation_registers_errors Options.check_broad t).2.relax Options.not_hasNaN_broad.2⟩

end AlterTableQuery
end QueryForge
