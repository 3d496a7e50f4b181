import QueryForge.Select.Build

/-!
# Clauses that exclude each other, field by field

A statement keeps DISTINCT, its ON expression and the row lock in one slot. The machine below keeps
each of them, and the grouping, in a field of its own and guards every write. Whatever the setters
are asked, a statement and the machine show the same fields and give the same results.
-/

namespace QueryForge

/-- The clauses that exclude each other, as they are seen from outside. -/
structure ClauseFields where
  option : SelectOption
  on : Option Expr
  lock : Option LockingClause
  groupBy : List Expr

/-- A call of one of the setters that may refuse. -/
inductive ClauseCall where
  | option (option : SelectOption)
  | distinctOn (on : Expr)
  | lock (clause : Option LockingClause)
  | groupBy (groupBy : List Expr)

namespace ClauseCall

section Outcomes

variable {σ : Type} (attempt : σ → ClauseCall → Except BuildError Unit × σ)

/-- The verdict on each of the calls and the state that it leaves to the next. -/
def outcomes : σ → List ClauseCall → List (Except BuildError Unit × σ)
  | _, [] => []
  | s, c :: rest => attempt s c :: outcomes (attempt s c).2 rest

variable {attempt}

/-- A view that commutes with every call commutes with every run. -/
theorem outcomes_map {τ : Type} {attempt' : τ → ClauseCall → Except BuildError Unit × τ}
    {view : σ → τ} (square : ∀ s c, (attempt s c).map id view = attempt' (view s) c) (s : σ)
    (calls : List ClauseCall) :
    (outcomes attempt s calls).map (Prod.map id view) = outcomes attempt' (view s) calls := by
  induction calls generalizing s with
  | nil => rfl
  | cons c rest ih =>
    have state : view (attempt s c).2 = (attempt' (view s) c).2 := congrArg Prod.snd (square s c)
    simp only [outcomes, List.map_cons, square, ih, state]

/-- What every call keeps, every run keeps. -/
theorem forall_mem_outcomes {P : σ → Prop} (kept : ∀ s c, P s → P (attempt s c).2) {s : σ}
    (start : P s) (calls : List ClauseCall) : ∀ o ∈ outcomes attempt s calls, P o.2 := by
  induction calls generalizing s with
  | nil => simp [outcomes]
  | cons c rest ih =>
    intro o ho
    rcases List.mem_cons.1 ho with rfl | ho
    · exact kept s c start
    · exact ih (kept s c start) o ho

end Outcomes
end ClauseCall

namespace ClauseFields

/-- A row lock refuses DISTINCT, and ALL drops the ON expression. -/
def setOption (f : ClauseFields) : SelectOption → Except BuildError ClauseFields
  | .distinct =>
    match f.lock with
    | some clause => .error (.lockingWithDistinct clause)
    | none => .ok { f with option := .distinct }
  | .all => .ok { f with option := .all, on := none }

def setDistinctOn (f : ClauseFields) (on : Expr) : Except BuildError ClauseFields :=
  if f.option = .distinct then .ok { f with on := some on } else .error .distinctOnWithoutDistinct

/-- DISTINCT refuses a row lock before grouping does, and removing the lock always succeeds. -/
def setLock (f : ClauseFields) : Option LockingClause → Except BuildError ClauseFields
  | none => .ok { f with lock := none }
  | some clause =>
    if f.option = .distinct then .error (.lockingWithDistinct clause)
    else if f.groupBy = [] then .ok { f with lock := some clause }
    else .error (.lockingWithGroupBy clause)

def setGroupBy (f : ClauseFields) (groupBy : List Expr) : Except BuildError ClauseFields :=
  match f.lock with
  | none => .ok { f with groupBy }
  | some clause =>
    if groupBy = [] then .ok { f with groupBy } else .error (.lockingWithGroupBy clause)

def apply (f : ClauseFields) : ClauseCall → Except BuildError ClauseFields
  | .option option => f.setOption option
  | .distinctOn on => f.setDistinctOn on
  | .lock clause => f.setLock clause
  | .groupBy groupBy => f.setGroupBy groupBy

/-- A refused call leaves all fields as they were. -/
def attempt (f : ClauseFields) (c : ClauseCall) : Except BuildError Unit × ClauseFields :=
  match f.apply c with
  | .ok next => (.ok (), next)
  | .error e => (.error e, f)

/-- A row lock goes neither with DISTINCT nor with grouping, and ON goes with DISTINCT only. -/
structure Exclusive (f : ClauseFields) : Prop where
  distinct : f.option = .distinct → f.lock = none
  grouped : f.lock ≠ none → f.groupBy = []
  on : f.on ≠ none → f.option = .distinct

theorem Exclusive.setOption {f g : ClauseFields} (h : f.Exclusive) {option : SelectOption}
    (ok : f.setOption option = .ok g) : g.Exclusive := by
  cases option with
  | distinct =>
    cases hl : f.lock with
    | some clause => simp [ClauseFields.setOption, hl] at ok
    | none =>
      simp only [ClauseFields.setOption, hl, Except.ok.injEq] at ok
      subst ok
      exact ⟨fun _ => rfl, fun locked => absurd rfl locked, fun _ => rfl⟩
  | all =>
    simp only [ClauseFields.setOption, Except.ok.injEq] at ok
    subst ok
    exact ⟨by simp, h.grouped, by simp⟩

theorem Exclusive.setDistinctOn {f g : ClauseFields} (h : f.Exclusive) {on : Expr}
    (ok : f.setDistinctOn on = .ok g) : g.Exclusive := by
  by_cases distinct : f.option = .distinct
  · rw [ClauseFields.setDistinctOn, if_pos distinct, Except.ok.injEq] at ok
    subst ok
    exact ⟨h.distinct, h.grouped, fun _ => distinct⟩
  · simp [ClauseFields.setDistinctOn, distinct] at ok

theorem Exclusive.setLock {f g : ClauseFields} (h : f.Exclusive) {clause : Option LockingClause}
    (ok : f.setLock clause = .ok g) : g.Exclusive := by
  cases clause with
  | none =>
    simp only [ClauseFields.setLock, Except.ok.injEq] at ok
    subst ok
    exact ⟨fun _ => rfl, by simp, h.on⟩
  | some clause =>
    by_cases distinct : f.option = .distinct
    · simp [ClauseFields.setLock, distinct] at ok
    · by_cases ungrouped : f.groupBy = []
      · rw [ClauseFields.setLock, if_neg distinct, if_pos ungrouped, Except.ok.injEq] at ok
        subst ok
        exact ⟨fun d => absurd d distinct, fun _ => ungrouped, h.on⟩
      · simp [ClauseFields.setLock, distinct, ungrouped] at ok

theorem Exclusive.setGroupBy {f g : ClauseFields} (h : f.Exclusive) {groupBy : List Expr}
    (ok : f.setGroupBy groupBy = .ok g) : g.Exclusive := by
  cases hl : f.lock with
  | none =>
    simp only [ClauseFields.setGroupBy, hl, Except.ok.injEq] at ok
    subst ok
    exact ⟨fun _ => rfl, fun locked => absurd rfl locked, h.on⟩
  | some clause =>
    by_cases empty : groupBy = []
    · simp only [ClauseFields.setGroupBy, hl, if_pos empty, Except.ok.injEq] at ok
      subst ok
      exact ⟨fun d => hl ▸ h.distinct d, fun _ => empty, h.on⟩
    · simp [ClauseFields.setGroupBy, hl, empty] at ok

theorem Exclusive.apply {f g : ClauseFields} (h : f.Exclusive) {c : ClauseCall}
    (ok : f.apply c = .ok g) : g.Exclusive := by
  cases c with
  | option option => exact h.setOption ok
  | distinctOn on => exact h.setDistinctOn ok
  | lock clause => exact h.setLock ok
  | groupBy groupBy => exact h.setGroupBy ok

theorem Exclusive.attempt {f : ClauseFields} (h : f.Exclusive) (c : ClauseCall) :
    (f.attempt c).2.Exclusive := by
  unfold ClauseFields.attempt
  split
  · next ok => exact h.apply ok
  · exact h

/-- Without a lock there is one only after a call for it that is not refused. -/
theorem lock_after {f : ClauseFields} (unlocked : f.lock = none) (c : ClauseCall) :
    (f.attempt c).2.lock = none ↔
      ∀ clause, c = .lock (some clause) → f.option = .distinct ∨ f.groupBy ≠ [] := by
  cases c with
  | option option => cases option <;> simp [attempt, apply, setOption, unlocked]
  | distinctOn on =>
    by_cases distinct : f.option = .distinct <;>
      simp [attempt, apply, setDistinctOn, distinct, unlocked]
  | groupBy groupBy => simp [attempt, apply, setGroupBy, unlocked]
  | lock clause =>
    cases clause with
    | none => simp [attempt, apply, setLock]
    | some clause =>
      by_cases distinct : f.option = .distinct <;> by_cases ungrouped : f.groupBy = [] <;>
        simp [attempt, apply, setLock, distinct, ungrouped, unlocked]

/-- Every error of the machine reports two clauses that exclude each other. -/
theorem isInvariantViolation_of_attempt {f : ClauseFields} {c : ClauseCall} {e : BuildError}
    (h : (f.attempt c).1 = .error e) : e.isInvariantViolation = true := by
  replace h : f.apply c = .error e := by
    unfold attempt at h
    split at h
    · cases h
    · next refused => rw [refused, Except.error.inj h]
  cases c with
  | option option =>
    cases option with
    | all => cases h
    | distinct =>
      simp only [ClauseFields.apply, ClauseFields.setOption] at h
      split at h <;> cases h
      rfl
  | distinctOn on =>
    simp only [ClauseFields.apply, ClauseFields.setDistinctOn] at h
    split at h <;> cases h
    rfl
  | lock clause =>
    cases clause with
    | none => cases h
    | some clause =>
      simp only [ClauseFields.apply, ClauseFields.setLock] at h
      split at h
      · cases h
        rfl
      · split at h <;> cases h
        rfl
  | groupBy groupBy =>
    simp only [ClauseFields.apply, ClauseFields.setGroupBy] at h
    split at h
    · cases h
    · split at h <;> cases h
      rfl

end ClauseFields

namespace Select

def fields (s : Select) : ClauseFields := ⟨s.selectOption, s.distinctOn, s.lockingClause, s.groupBy⟩

/-- The setter that is called. -/
def setter : ClauseCall → Setter
  | .option option => .selectOption option
  | .distinctOn on => .distinctOn on
  | .lock clause => .lockingClause clause
  | .groupBy groupBy => .groupBy groupBy

def attempt (s : Select) (c : ClauseCall) : Except BuildError Unit × Select := (setter c).outcome s

theorem fields_eq {s : Select} {m : SelectModifier} (h : s.clauses.modifier = m) :
    s.fields = ⟨m.option, m.distinctOn, m.lockingClause, s.groupBy⟩ := by
  subst h
  rfl

/-- All that a call can do: refuse before it writes anything, or write the slot that DISTINCT and
the row lock share, or write the grouping. -/
theorem attempt_cases (s : Select) (c : ClauseCall) :
    (∃ e, s.attempt c = (.error e, s)) ∨ (∃ m, s.attempt c = (.ok (), s.setModifier m)) ∨
      ∃ groupBy, s.attempt c = (.ok (), s.update ({ · with groupBy })) := by
  obtain ⟨w, m, columns, functions, items, joins, filter, grouping⟩ := s
  cases c with
  | option wanted =>
    cases wanted with
    | all => cases m <;> exact .inr (.inl ⟨_, rfl⟩)
    | distinct =>
      cases m with
      | all => exact .inr (.inl ⟨_, rfl⟩)
      | distinct on => exact .inr (.inl ⟨_, rfl⟩)
      | locked clause => exact .inl ⟨_, rfl⟩
  | distinctOn on =>
    cases m with
    | all => exact .inl ⟨_, rfl⟩
    | distinct old => exact .inr (.inl ⟨_, rfl⟩)
    | locked clause => exact .inl ⟨_, rfl⟩
  | lock wanted =>
    cases wanted with
    | none => cases m <;> exact .inr (.inl ⟨_, rfl⟩)
    | some clause =>
      cases m with
      | distinct on => exact .inl ⟨_, rfl⟩
      | all | locked old =>
        cases grouping with
        | nil => exact .inr (.inl ⟨_, rfl⟩)
        | cons e more => exact .inl ⟨_, rfl⟩
  | groupBy wanted =>
    cases m with
    | all => exact .inr (.inr ⟨_, rfl⟩)
    | distinct on => exact .inr (.inr ⟨_, rfl⟩)
    | locked clause =>
      cases wanted with
      | nil => exact .inr (.inr ⟨_, rfl⟩)
      | cons e more => exact .inl ⟨_, rfl⟩

theorem outcome_groupBy {s : Select} {groupBy : List Expr}
    (h : checkLocking s.clauses.modifier groupBy = .ok ()) :
    (Setter.groupBy groupBy).outcome s = (.ok (), s.update ({ · with groupBy })) := by
  obtain ⟨w, m, rest⟩ := s
  cases m with
  | all | distinct on => rfl
  | locked clause =>
    cases groupBy with
    | nil => rfl
    | cons e more => cases h

theorem outcome_lockingClause {s : Select} (all : s.selectOption = .all)
    (ungrouped : s.groupBy = []) (clause : LockingClause) :
    (Setter.lockingClause (some clause)).outcome s = (.ok (), s.setModifier (.locked clause)) := by
  obtain ⟨w, m, columns, functions, items, joins, filter, grouping⟩ := s
  obtain rfl : grouping = [] := ungrouped
  cases m with
  | all | locked old => rfl
  | distinct on => cases all

/-- A refused call leaves the whole statement as it was. -/
theorem attempt_refused {s : Select} {c : ClauseCall} {e : BuildError}
    (h : (s.attempt c).1 = .error e) : (s.attempt c).2 = s := by
  rcases s.attempt_cases c with ⟨_, same⟩ | ⟨_, same⟩ | ⟨_, same⟩
  · rw [same]
  · rw [same] at h
    cases h
  · rw [same] at h
    cases h

/-- Refused or not, a call writes at most the clauses that exclude each other. -/
theorem attempt_writes (s : Select) (c : ClauseCall) :
    ∃ modifier groupBy, (s.attempt c).2 = s.update ({ · with modifier, groupBy }) := by
  rcases s.attempt_cases c with ⟨_, same⟩ | ⟨modifier, same⟩ | ⟨groupBy, same⟩
  · rw [same]
    cases s
    exact ⟨_, _, rfl⟩
  · rw [same]
    exact ⟨modifier, s.groupBy, rfl⟩
  · rw [same]
    exact ⟨s.clauses.modifier, groupBy, rfl⟩

/-- One call, seen through the fields, is the call of the machine. -/
theorem fields_attempt (s : Select) (c : ClauseCall) :
    (s.attempt c).map id fields = s.fields.attempt c := by
  obtain ⟨w, m, columns, functions, items, joins, filter, grouping⟩ := s
  cases c with
  | option wanted => cases wanted <;> cases m <;> rfl
  | distinctOn on => cases m <;> rfl
  | lock wanted => cases wanted <;> cases m <;> cases grouping <;> rfl
  | groupBy wanted => cases m <;> cases wanted <;> rfl

theorem isInvariantViolation_of_attempt {s : Select} {c : ClauseCall} {e : BuildError}
    (h : (s.attempt c).1 = .error e) : e.isInvariantViolation = true := by
  refine ClauseFields.isInvariantViolation_of_attempt (f := s.fields) (c := c) ?_
  rw [← fields_attempt]
  exact h

/-- The slot that DISTINCT and the row lock share leaves only the grouping to be excluded. -/
theorem exclusive_fields_iff (s : Select) :
    s.fields.Exclusive ↔ (s.lockingClause ≠ none → s.groupBy = []) := by
  constructor
  · exact fun h => h.grouped
  · intro grouped
    refine ⟨?_, grouped, ?_⟩ <;> cases hm : s.clauses.modifier <;>
      simp [fields_eq hm, SelectModifier.option, SelectModifier.distinctOn,
        SelectModifier.lockingClause]

theorem exclusive_attempt {s : Select} (h : s.fields.Exclusive) (c : ClauseCall) :
    (s.attempt c).2.fields.Exclusive := by
  have seen : (s.attempt c).2.fields = (s.fields.attempt c).2 :=
    congrArg Prod.snd (s.fields_attempt c)
  rw [seen]
  exact h.attempt c

/-- The setters give the results of the machine over separate fields and show its state after every
call. A refused call changes nothing and reports a violated invariant; and from a statement whose
lock excludes grouping, none of the three rules is ever broken. -/
theorem setters_simulate_fields (s : Select) (calls : List ClauseCall) :
    (ClauseCall.outcomes attempt s calls).map (Prod.map id fields) =
        ClauseCall.outcomes ClauseFields.attempt s.fields calls ∧
      (∀ (t : Select) (c : ClauseCall) (e : BuildError), (t.attempt c).1 = .error e →
        (t.attempt c).2 = t ∧ e.isInvariantViolation = true) ∧
      ((s.lockingClause ≠ none → s.groupBy = []) →
        ∀ o ∈ ClauseCall.outcomes attempt s calls, o.2.fields.Exclusive) := by
  refine ⟨ClauseCall.outcomes_map fields_attempt s calls, ?_, ?_⟩
  · intro t c e refused
    exact ⟨attempt_refused refused, isInvariantViolation_of_attempt refused⟩
  · intro grouped
    exact ClauseCall.forall_mem_outcomes (P := fun t : Select => t.fields.Exclusive)
      (fun t c exclusive => exclusive_attempt exclusive c) (s.exclusive_fields_iff.2 grouped) calls

/-- Three refused calls between others; DISTINCT asked for again keeps its ON expression. -/
def mixedCalls : List ClauseCall :=
  [.lock (some .update), .option .distinct, .groupBy [.truth], .option .all, .lock none,
    .option .distinct, .distinctOn .truth, .option .distinct, .lock (some .share)]

theorem mixedCalls_simulate_fields :
    (empty.lockingClause ≠ none → empty.groupBy = []) ∧
      (ClauseCall.outcomes attempt empty mixedCalls).map Prod.fst =
        [.ok (), .error (.lockingWithDistinct .update), .error (.lockingWithGroupBy .update),
          .ok (), .ok (), .ok (), .ok (), .ok (), .error (.lockingWithDistinct .share)] ∧
      ∀ o ∈ ClauseCall.outcomes attempt empty mixedCalls, o.2.fields.Exclusive := by
  have ungrouped : empty.lockingClause ≠ none → empty.groupBy = [] := fun _ => rfl
  exact ⟨ungrouped, rfl, (setters_simulate_fields empty mixedCalls).2.2 ungrouped⟩

end Select
end QueryForge
