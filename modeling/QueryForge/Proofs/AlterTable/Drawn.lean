import QueryForge.Proofs.AlterTable.Actions
import QueryForge.Proofs.ErrorRegistry

/-!
# Random ALTER TABLE statements as lists of actions

The generator goes through the kept kinds and threads a registry and the fragments. As registering
asks for no draw, all actions may as well be drawn first, and the statement be made of them at the
end.
-/

namespace QueryForge

open Draw

variable {nan : Prop}

/-- A kept kind and the fragment that it yielded, if any. -/
structure DrawnAction where
  kind : ActionKind
  fragment : Option AlterFragment
deriving DecidableEq, Repr

namespace DrawnAction

def random (t : Table) (o : AlterOptions) (kind : ActionKind) : Draw DrawnAction :=
  if kind.yieldsAction then do
    let only ← chance o.onlyChance
    let action ← AlterAction.random t kind
    return ⟨kind, action.map fun a => ⟨t.name, only, a⟩⟩
  else return ⟨kind, none⟩

/-- The errors of the kind, then those of the action. -/
def expectedErrors (d : DrawnAction) : List String :=
  d.kind.expectedErrors ++ d.fragment.elim [] fun f => f.action.expectedErrors

end DrawnAction

namespace AlterDraft

variable (t : Table) (o : AlterOptions)

def extend (d : AlterDraft) (actions : List DrawnAction) : AlterDraft where
  expectedErrors := d.expectedErrors.addAll (actions.flatMap DrawnAction.expectedErrors)
  fragments := d.fragments ++ actions.filterMap DrawnAction.fragment

theorem extend_nil (d : AlterDraft) : d.extend [] = d := by
  unfold extend
  rw [List.filterMap_nil, List.append_nil]
  rfl

theorem extend_extend (d : AlterDraft) (actions more : List DrawnAction) :
    (d.extend actions).extend more = d.extend (actions ++ more) := by
  unfold extend
  rw [ErrorRegistry.addAll_addAll, List.flatMap_append, List.filterMap_append, List.append_assoc]

/-- Both early exits, for a kind without an action and for a table without a target, leave a draft
that only the registered errors have changed. -/
theorem addRandom_eq (d : AlterDraft) (kind : ActionKind) :
    d.addRandom t o kind = (fun a => d.extend [a]) <$> DrawnAction.random t o kind := by
  have skipped : d.extend [⟨kind, none⟩] =
      { d with expectedErrors := d.expectedErrors.addAll kind.expectedErrors } := by
    simp [extend, DrawnAction.expectedErrors]
  have yielded (only : Bool) (action : AlterAction) :
      d.extend [⟨kind, some ⟨t.name, only, action⟩⟩] =
        { expectedErrors := (d.expectedErrors.addAll kind.expectedErrors).addAll
            action.expectedErrors
          fragments := d.fragments ++ [⟨t.name, only, action⟩] } := by
    simp [extend, DrawnAction.expectedErrors, ErrorRegistry.addAll_addAll]
  unfold addRandom DrawnAction.random
  split
  · rw [map_bind]
    apply bind_congr
    intro only
    rw [map_bind]
    apply bind_congr
    intro action
    cases action with
    | none => exact congrArg Pure.pure skipped.symm
    | some action => exact congrArg Pure.pure (yielded only action).symm
  · exact congrArg Pure.pure skipped.symm

/-- By induction on the kinds that are left, for every draft that the others have led to. -/
theorem foldlM_addRandom (kept : List ActionKind) (d : AlterDraft) :
    kept.foldlM (addRandom t o) d = d.extend <$> each (DrawnAction.random t o) kept := by
  induction kept generalizing d with
  | nil => exact congrArg Pure.pure d.extend_nil.symm
  | cons kind rest ih =>
    rw [List.foldlM_cons, addRandom_eq, bind_map_left]
    unfold each
    rw [map_bind]
    apply bind_congr
    intro a
    rw [ih, map_bind, map_eq_pure_bind]
    apply bind_congr
    intro more
    exact congrArg Pure.pure (d.extend_extend [a] more)

end AlterDraft

namespace AlterTableQuery

/-- The statement of drawn actions, or nothing if none of them yielded a fragment. -/
def ofDrawn (drawn : List DrawnAction) : Option AlterTableQuery :=
  let fragments := drawn.filterMap DrawnAction.fragment
  if fragments.isEmpty then none
  else some ⟨⟨fragments⟩, baseErrors.addAll (drawn.flatMap DrawnAction.expectedErrors)⟩

theorem randomOf_eq (t : Table) (o : AlterOptions) (kept : List ActionKind) :
    randomOf t o kept = ofDrawn <$> each (DrawnAction.random t o) kept := by
  unfold randomOf
  split
  · next none =>
    rw [List.isEmpty_iff.1 none]
    rfl
  · rw [AlterDraft.foldlM_addRandom, bind_map_left, map_eq_pure_bind]
    apply bind_congr
    intro actions
    unfold ofDrawn AlterDraft.extend
    dsimp only
    rw [List.nil_append]
    split <;> rfl

end AlterTableQuery

/-- What a kind yields: nothing, or a fragment of that kind which is legal for the table. -/
structure DrawnAction.Drawn (t : Table) (k : ActionKind) (d : DrawnAction) : Prop where
  kind : d.kind = k
  fragment : ∀ f, d.fragment = some f →
    f.table = t.name ∧ f.action.kind = k ∧ f.action.LegalFor t

theorem DrawnAction.random_ensures {o : AlterOptions} (h : o.InRange nan) {t : Table}
    {k : ActionKind} (hk : k.isApplicable t) :
    (DrawnAction.random t o k).Ensures nan (DrawnAction.Drawn t k) := by
  unfold DrawnAction.random
  split
  · refine (chance_ensures h.onlyChance).bind fun only _ => ?_
    refine (AlterAction.random_ensures hk).bind fun action ha => .pure ⟨rfl, fun f hf => ?_⟩
    obtain ⟨a, drawn, rfl⟩ := Option.map_eq_some_iff.1 hf
    exact ⟨rfl, ha a drawn⟩
  · exact .pure ⟨rfl, fun f hf => (nomatch hf)⟩

theorem DrawnAction.sublist_kinds {t : Table} {kept : List ActionKind} {actions : List DrawnAction}
    (h : List.Forall₂ (DrawnAction.Drawn t) kept actions) :
    ((actions.filterMap DrawnAction.fragment).map fun f => f.action.kind).Sublist kept := by
  induction h with
  | nil => exact .slnil
  | @cons k d kept actions hd _ ih =>
    cases hf : d.fragment with
    | none =>
      rw [List.filterMap_cons_none hf]
      exact ih.cons k
    | some f =>
      rw [List.filterMap_cons_some hf, List.map_cons, (hd.fragment f hf).2.1]
      exact ih.cons_cons k

namespace AlterTableQuery

/-- The generator together with the kinds that it keeps. -/
def randomTraced (t : Table) (o : AlterOptions) :
    Draw (List ActionKind × Option AlterTableQuery) := do
  let kept ← ActionKind.randomKept t o
  let q ← randomOf t o kept
  return (kept, q)

theorem snd_randomTraced (t : Table) (o : AlterOptions) :
    Prod.snd <$> randomTraced t o = random t o := by
  unfold randomTraced random ActionKind.randomKept
  simp only [map_bind, map_pure, bind_assoc, pure_bind, bind_pure]

theorem randomOf_ensures {t : Table} {o : AlterOptions} {kept : List ActionKind}
    {P : Option AlterTableQuery → Prop}
    (h : (each (DrawnAction.random t o) kept).Ensures nan fun actions => P (ofDrawn actions)) :
    (randomOf t o kept).Ensures nan P := by
  rw [randomOf_eq, ensures_map]
  exact h

/-- What the kept kinds and the statement of one run are. -/
theorem randomTraced_ensures {o : AlterOptions} (h : o.InRange nan) (t : Table) :
    (randomTraced t o).Ensures nan fun run => run.1.Nodup ∧ ∃ actions,
      List.Forall₂ (DrawnAction.Drawn t) run.1 actions ∧ run.2 = ofDrawn actions := by
  refine (ActionKind.randomKept_ensures h t).bind fun kept ⟨nodup, applicable⟩ => ?_
  have drawn : (randomOf t o kept).Ensures nan fun q => ∃ actions,
      List.Forall₂ (DrawnAction.Drawn t) kept actions ∧ q = ofDrawn actions :=
    randomOf_ensures ((each_ensures fun k hk => DrawnAction.random_ensures h (applicable k hk)).mono
      fun actions drawn => ⟨actions, drawn, rfl⟩)
  exact drawn.bind fun q hq => .pure ⟨nodup, hq⟩

theorem eq_some_of_ofDrawn {actions : List DrawnAction} {q : AlterTableQuery}
    (h : ofDrawn actions = some q) :
    actions.filterMap DrawnAction.fragment ≠ [] ∧
      q = ⟨⟨actions.filterMap DrawnAction.fragment⟩,
        baseErrors.addAll (actions.flatMap DrawnAction.expectedErrors)⟩ := by
  unfold ofDrawn at h
  dsimp only at h
  split at h
  · exact nomatch h
  · next shown => exact ⟨mt List.isEmpty_iff.2 shown, (Option.some.inj h).symm⟩

end AlterTableQuery
end QueryForge
