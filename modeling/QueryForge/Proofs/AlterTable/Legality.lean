import QueryForge.Proofs.AlterTable.Drawn

/-!
# Random ALTER TABLE statements are legal

A generated statement has fragments of different kinds, all on its table, and each of them targets
what the table has.
-/

namespace QueryForge

variable {nan : Prop}

structure AlterTable.LegalFor (t : Table) (a : AlterTable) : Prop where
  fragments : a.fragments ≠ []
  table : ∀ f ∈ a.fragments, f.table = t.name
  kinds : (a.fragments.map fun f => f.action.kind).Nodup
  actions : ∀ f ∈ a.fragments, f.action.LegalFor t

namespace AlterTableQuery

theorem legalFor_of_drawn {t : Table} {kept : List ActionKind} (hk : kept.Nodup)
    {actions : List DrawnAction} (h : List.Forall₂ (DrawnAction.Drawn t) kept actions)
    {q : AlterTableQuery} (hq : ofDrawn actions = some q) : q.alterTable.LegalFor t := by
  obtain ⟨shown, rfl⟩ := eq_some_of_ofDrawn hq
  have each : ∀ f ∈ actions.filterMap DrawnAction.fragment,
      f.table = t.name ∧ f.action.LegalFor t := by
    intro f hf
    obtain ⟨d, hd, yielded⟩ := List.mem_filterMap.1 hf
    obtain ⟨k, -, drawn⟩ := Draw.exists_of_forall₂ h d hd
    obtain ⟨table, -, legal⟩ := drawn.fragment f yielded
    exact ⟨table, legal⟩
  exact ⟨shown, fun f hf => (each f hf).1, hk.sublist (DrawnAction.sublist_kinds h),
    fun f hf => (each f hf).2⟩

/-- With checked options, whatever is generated for a table is legal for it. -/
theorem generation_legal {o : Options} (checked : o.check = .ok ()) (t : Table) :
    (AlterTableQuery.random t o.alterTable).Ensures o.alterTable.HasNaN fun r =>
      ∀ q, r = some q → q.alterTable.LegalFor t := by
  rw [← snd_randomTraced, Draw.ensures_map]
  refine (randomTraced_ensures (Options.check_eq_ok_iff.1 checked).2 t).mono ?_
  rintro run ⟨nodup, actions, drawn, same⟩ q hq
  exact legalFor_of_drawn nodup drawn (same.symm.trans hq)

theorem assorted_generation_legal :
    Options.broad.check = .ok () ∧ ∀ t ∈ Schema.assorted.tables,
      (AlterTableQuery.random t Options.broad.alterTable).Ensures False fun r =>
        ∀ q, r = some q → q.alterTable.LegalFor t :=
  ⟨Options.check_broad, fun t _ =>
    (generation_legal Options.check_broad t).relax Options.not_hasNaN_broad.2⟩

end AlterTableQuery
end QueryForge
