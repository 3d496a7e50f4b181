import QueryForge.Proofs.Select.Built
import QueryForge.Proofs.Select.NamedWindows
import QueryForge.Proofs.Select.Verdict

/-!
# Which statements can be built

Every statement that keeps the rules of building at every depth is the result of one run of calls
that sets its clauses one after the other. So the built statements are exactly the sound ones, and
what they have over valid ones are the two rules of WITH clauses.
-/

namespace QueryForge

namespace SelectCall

/-- The call puts in no statement. -/
structure Flat (call : SelectCall) : Prop where
  statements : call.statements = []
  withClause : call.withClause? = none

@[simp] theorem flat_guarded (call : ClauseCall) : (guarded call).Flat := ⟨rfl, rfl⟩

theorem statements_of_flat {calls : List SelectCall} (h : ∀ call ∈ calls, call.Flat) :
    calls.flatMap statements = [] :=
  List.flatMap_eq_nil_iff.2 fun call mem => (h call mem).statements

theorem withClauses_of_flat {calls : List SelectCall} (h : ∀ call ∈ calls, call.Flat) :
    calls.filterMap withClause? = [] :=
  List.filterMap_eq_nil_iff.2 fun call mem => (h call mem).withClause

end SelectCall

namespace SelectModifier

def calls : SelectModifier → List SelectCall
  | .all => []
  | .distinct none => [.guarded (.option .distinct)]
  | .distinct (some on) => [.guarded (.option .distinct), .guarded (.distinctOn on)]
  | .locked clause => [.guarded (.lock (some clause))]

end SelectModifier

namespace Clauses

def windowCalls (entries : List (String × WindowDefinition Expr)) : List SelectCall :=
  entries.map fun entry => .windowDefinition entry.1 entry.2

def armCalls (arm : Option (SetOperation Select)) : List SelectCall :=
  arm.toList.map fun arm => .attach arm.operator arm.query

/-- The clauses that exclude nothing and hold no statement. -/
def freeCalls (c : Clauses Select) : List SelectCall :=
  [.columns c.columns, .windowFunctions c.windowFunctions, .filter c.filter, .having c.having,
    .orderBy c.orderBy, .limit c.limit, .offset c.offset]

/-- The lock is set before there are groups, and an arm when all else is in place. -/
def calls (c : Clauses Select) : List SelectCall :=
  c.modifier.calls ++ [.guarded (.groupBy c.groupBy)] ++ c.freeCalls ++
    windowCalls c.windows.entries ++
    [.withClause c.withClause, .fromItems c.fromItems, .joins c.joins] ++ armCalls c.setOperation

end Clauses

namespace Select

variable {s : Select} {c : Clauses Select}

def run (s : Select) (calls : List SelectCall) : Select := calls.foldl afterCall s

theorem run_append (s : Select) (calls more : List SelectCall) :
    s.run (calls ++ more) = (s.run calls).run more := List.foldl_append

theorem run_modifierCalls (m : SelectModifier) :
    empty.run m.calls = .node { modifier := m } := by
  cases m with
  | all => rfl
  | distinct on => cases on <;> rfl
  | locked clause => rfl

theorem run_groupBy (legal : checkLocking c.modifier c.groupBy = .ok ()) :
    (node { modifier := c.modifier }).run [.guarded (.groupBy c.groupBy)] =
      .node { modifier := c.modifier, groupBy := c.groupBy } :=
  congrArg Prod.snd (outcome_groupBy (s := node { modifier := c.modifier }) legal)

theorem run_windowCalls (c : Clauses Select) (entries : List (String × WindowDefinition Expr)) :
    (node c).run (Clauses.windowCalls entries) =
      .node { c with windows := c.windows.putAll entries } := by
  induction entries generalizing c with
  | nil => rfl
  | cons entry rest ih => exact ih { c with windows := c.windows.put entry.1 entry.2 }

theorem run_armCalls (c : Clauses Select) (arm : Option (SetOperation Select)) :
    (node { c with setOperation := none }).run (Clauses.armCalls arm) =
      .node { c with setOperation := arm } := by
  cases arm <;> rfl

/-- The calls set the clauses that they are made from. -/
theorem run_calls (legal : checkLocking c.modifier c.groupBy = .ok ()) :
    empty.run c.calls = .node c := by
  let ungrouped : Clauses Select := { modifier := c.modifier, groupBy := c.groupBy }
  let filled : Clauses Select :=
    { c with windows := .empty, withClause := none, fromItems := [], joins := [],
             setOperation := none }
  let windowed : Clauses Select :=
    { filled with windows := filled.windows.putAll c.windows.entries }
  have free : (node ungrouped).run c.freeCalls = .node filled := rfl
  have nested : (node windowed).run [.withClause c.withClause, .fromItems c.fromItems,
      .joins c.joins] = .node { c with setOperation := none } := by
    have windows : filled.windows.putAll c.windows.entries = c.windows :=
      NamedWindows.putAll_entries c.windows
    change node { c with windows := filled.windows.putAll c.windows.entries, setOperation := none }
      = _
    rw [windows]
  unfold Clauses.calls
  rw [run_append, run_append, run_append, run_append, run_append, run_modifierCalls,
    run_groupBy legal, free, run_windowCalls, nested, run_armCalls]

theorem flat_modifierCalls (m : SelectModifier) : ∀ call ∈ m.calls, call.Flat := by
  cases m with
  | all => simp [SelectModifier.calls]
  | distinct on => cases on <;> simp [SelectModifier.calls]
  | locked clause => simp [SelectModifier.calls]

theorem flat_windowCalls (entries : List (String × WindowDefinition Expr)) :
    ∀ call ∈ Clauses.windowCalls entries, call.Flat :=
  List.forall_mem_map.2 fun _ _ => ⟨rfl, rfl⟩

/-- Besides the queries of the WITH clause, a statement nests what its calls put in. -/
theorem nested_eq_calls (c : Clauses Select) :
    c.nested = c.ctes.map Cte.query ++ c.calls.flatMap SelectCall.statements := by
  have modifier := SelectCall.statements_of_flat (flat_modifierCalls c.modifier)
  have windows := SelectCall.statements_of_flat (flat_windowCalls c.windows.entries)
  have arm : (Clauses.armCalls c.setOperation).flatMap SelectCall.statements =
      c.setOperation.toList.map SetOperation.query := by
    cases c.setOperation <;> rfl
  simp only [Clauses.nested, Clauses.calls, List.flatMap_append, modifier, windows, arm]
  simp [SelectCall.statements, Clauses.freeCalls]

theorem withClauses_calls (c : Clauses Select) :
    c.calls.filterMap SelectCall.withClause? = c.withClause.toList := by
  have modifier := SelectCall.withClauses_of_flat (flat_modifierCalls c.modifier)
  have windows := SelectCall.withClauses_of_flat (flat_windowCalls c.windows.entries)
  have arm : (Clauses.armCalls c.setOperation).filterMap SelectCall.withClause? = [] := by
    cases c.setOperation <;> rfl
  simp only [Clauses.calls, List.filterMap_append, modifier, windows, arm]
  cases c.withClause <;> rfl

theorem Built.run (start : s.Built) {calls : List SelectCall}
    (statements : ∀ call ∈ calls, ∀ q ∈ call.statements, q.Built)
    (withClauses : ∀ call ∈ calls, ∀ w, call.withClause? = some w → w.Built) :
    (s.run calls).Built := by
  induction calls generalizing s with
  | nil => exact start
  | cons call rest ih =>
    obtain ⟨here, later⟩ := List.forall_mem_cons.1 statements
    obtain ⟨withHere, withLater⟩ := List.forall_mem_cons.1 withClauses
    exact ih (.call start here withHere) later withLater

theorem built_of_build {w : WithClause Select} (nonempty : w.ctes ≠ [])
    (built : ∀ cte ∈ w.ctes, cte.Built) : w.Built :=
  .build built (if_neg (mt List.isEmpty_iff.1 nonempty))

/-- The nested statements are built first, then the calls that put them in. -/
theorem Sound.built (h : s.Sound) : s.Built := by
  induction s using Select.induction with
  | step c ih =>
    obtain ⟨legal, sound⟩ := sound_node.1 h
    have built : ∀ q ∈ c.nested, q.Built := fun q hq => ih q hq (sound q hq)
    rw [← run_calls legal.locking]
    refine Built.empty.run ?_ ?_
    · intro call mem q hq
      have put : q ∈ c.calls.flatMap SelectCall.statements := List.mem_flatMap.2 ⟨call, mem, hq⟩
      exact built q (nested_eq_calls c ▸ List.mem_append_right _ put)
    · intro call mem w hw
      have put : w ∈ c.calls.filterMap SelectCall.withClause? :=
        List.mem_filterMap.2 ⟨call, mem, hw⟩
      rw [withClauses_calls, Option.mem_toList] at put
      refine built_of_build (legal.nonempty w put) fun cte hc => ?_
      have member : cte ∈ c.ctes := Clauses.mem_ctes.2 ⟨w, put, hc⟩
      have inside : cte.query ∈ c.nested := Clauses.mem_nested.2 (.inl ⟨cte, member, rfl⟩)
      have ok : Cte.build cte.name cte.columnAliases cte.query cte.columns = .ok cte := by
        rw [Cte.build_of_named (legal.named cte member), (sound _ inside).validate]
        rfl
      exact .build (built _ inside) ok

theorem built_iff_sound : s.Built ↔ s.Sound := ⟨Built.sound, Sound.built⟩

/-- Every WITH clause inside has a member, and no member is nameless. -/
def KeepsWithRules (s : Select) : Prop :=
  ∀ t, s.Contains t → ∀ w, t.clauses.withClause = some w →
    w.ctes ≠ [] ∧ ∀ cte ∈ w.ctes, cte.name ≠ ""

/-- Validation covers the rules of building but those of WITH clauses. -/
theorem built_iff : s.Built ↔ s.validate = .ok () ∧ s.KeepsWithRules := by
  rw [built_iff_sound]
  constructor
  · intro sound
    refine ⟨sound.validate, fun t ht w hw => ⟨(sound t ht).nonempty w hw, fun cte hc => ?_⟩⟩
    exact (sound t ht).named cte (Clauses.mem_ctes.2 ⟨w, hw, hc⟩)
  · rintro ⟨valid, kept⟩ t ht
    refine ⟨validate_eq_ok_iff.1 valid t ht, fun w hw => (kept t ht w hw).1, fun cte hc => ?_⟩
    obtain ⟨w, hw, mem⟩ := Clauses.mem_ctes.1 hc
    exact (kept t ht w hw).2 cte mem

end Select
end QueryForge
