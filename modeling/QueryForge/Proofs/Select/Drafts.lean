import QueryForge.Proofs.LastWrite
import QueryForge.Proofs.Select.Verdict

/-!
# Drafts of WITH clauses

A draft is filled by calls in any order and number, and what it holds in between need not be valid.
Building looks at the last name, the last query and the last columns, and at the lists with all that
was added to them, and it never yields a nameless expression, an invalid query or an empty clause.
-/

namespace QueryForge

namespace CteDraft

inductive Call where
  | setName (name : String)
  | setColumnAliases (aliases : List String)
  | addColumnAlias (asName : String)
  | setQuery (query : Select)
  | setColumns (columns : List Column)

namespace Call

def apply (d : CteDraft) : Call → CteDraft
  | .setName name => d.setName name
  | .setColumnAliases aliases => d.setColumnAliases aliases
  | .addColumnAlias asName => d.addColumnAlias asName
  | .setQuery query => d.setQuery query
  | .setColumns columns => d.setColumns columns

def name? : Call → Option String
  | .setName name => some name
  | _ => none

def columnAliases? : Call → Option (List String)
  | .setColumnAliases aliases => some aliases
  | _ => none

def addedAlias? : Call → Option String
  | .addColumnAlias asName => some asName
  | _ => none

def query? : Call → Option Select
  | .setQuery query => some query
  | _ => none

def columns? : Call → Option (List Column)
  | .setColumns columns => some columns
  | _ => none

end Call

/-- The draft after a sequence of calls. -/
def run (calls : List Call) : CteDraft := calls.foldl Call.apply {}

theorem name_run (calls : List Call) : (run calls).name = lastWrite? Call.name? calls := by
  have writes (d : CteDraft) (c : Call) : (Call.apply d c).name = c.name?.or d.name := by
    cases c <;> rfl
  have last := foldl_eq_lastWrite CteDraft.name Call.name? writes {} calls
  rwa [Option.or_none] at last

theorem query_run (calls : List Call) : (run calls).query = lastWrite? Call.query? calls := by
  have writes (d : CteDraft) (c : Call) : (Call.apply d c).query = c.query?.or d.query := by
    cases c <;> rfl
  have last := foldl_eq_lastWrite CteDraft.query Call.query? writes {} calls
  rwa [Option.or_none] at last

theorem columns_run (calls : List Call) :
    (run calls).columns = (lastWrite? Call.columns? calls).getD [] := by
  have writes (d : CteDraft) (c : Call) :
      some (Call.apply d c).columns = c.columns?.or (some d.columns) := by
    cases c <;> rfl
  have last := foldl_eq_lastWrite (fun d : CteDraft => some d.columns) Call.columns? writes {} calls
  rw [← Option.some_inj]
  refine last.trans ?_
  cases lastWrite? Call.columns? calls <;> rfl

theorem columnAliases_run (calls : List Call) :
    (run calls).columnAliases = collected Call.columnAliases? Call.addedAlias? calls := by
  refine foldl_eq_collected CteDraft.columnAliases ?_ ?_ rfl calls
  · intro d c items h
    cases c with
    | setColumnAliases aliases => exact Option.some.inj h
    | _ => cases h
  · intro d c h
    cases c with
    | setColumnAliases aliases => cases h
    | addColumnAlias asName => rfl
    | _ => exact (List.append_nil _).symm

section Build

variable {d : CteDraft} {name : String}

theorem build_of_nameless (h : d.name.getD "" = "") : d.build = .error .emptyCteName := by
  unfold build
  rw [h]
  rfl

theorem build_of_queryless (hn : d.name = some name) (named : name ≠ "") (hq : d.query = none) :
    d.build = .error (.missingCteQuery name) := by
  have present : ¬ (name.isEmpty = true) := by simpa using named
  unfold build
  rw [hn, hq]
  exact if_neg present

theorem build_of_query {query : Select} (hn : d.name = some name) (named : name ≠ "")
    (hq : d.query = some query) :
    d.build = query.validate.map fun _ => ⟨name, d.columnAliases, query, d.columns⟩ := by
  have present : ¬ (name.isEmpty = true) := by simpa using named
  rw [← Cte.build_of_named named]
  unfold build
  rw [hn, hq]
  exact if_neg present

end Build

/-- What comes of building after a sequence of calls, cause by cause in their precedence. -/
structure BuildsLastWrites (calls : List Call) : Prop where
  nameless : lastWrite? Call.name? calls = none ∨ lastWrite? Call.name? calls = some "" →
    (run calls).build = .error .emptyCteName
  queryless : ∀ name, lastWrite? Call.name? calls = some name → name ≠ "" →
    lastWrite? Call.query? calls = none → (run calls).build = .error (.missingCteQuery name)
  invalid : ∀ name query e, lastWrite? Call.name? calls = some name → name ≠ "" →
    lastWrite? Call.query? calls = some query → query.validate = .error e →
    (run calls).build = .error e
  built : ∀ name query, lastWrite? Call.name? calls = some name → name ≠ "" →
    lastWrite? Call.query? calls = some query → query.validate = .ok () →
    (run calls).build = .ok
      { name, query, columns := (lastWrite? Call.columns? calls).getD [],
        columnAliases := collected Call.columnAliases? Call.addedAlias? calls }
  sound : ∀ cte, (run calls).build = .ok cte → cte.name ≠ "" ∧ cte.query.validate = .ok ()

theorem buildsLastWrites (calls : List Call) : BuildsLastWrites calls := by
  have nameless : lastWrite? Call.name? calls = none ∨ lastWrite? Call.name? calls = some "" →
      (run calls).build = .error .emptyCteName := by
    intro h
    apply build_of_nameless
    rw [name_run]
    rcases h with h | h <;> rw [h] <;> rfl
  have queryless : ∀ name, lastWrite? Call.name? calls = some name → name ≠ "" →
      lastWrite? Call.query? calls = none → (run calls).build = .error (.missingCteQuery name) := by
    intro name hn named hq
    exact build_of_queryless ((name_run calls).trans hn) named ((query_run calls).trans hq)
  have filled : ∀ name query, lastWrite? Call.name? calls = some name → name ≠ "" →
      lastWrite? Call.query? calls = some query →
      (run calls).build = query.validate.map fun _ =>
        { name, query, columns := (lastWrite? Call.columns? calls).getD [],
          columnAliases := collected Call.columnAliases? Call.addedAlias? calls } := by
    intro name query hn named hq
    rw [build_of_query ((name_run calls).trans hn) named ((query_run calls).trans hq),
      columns_run, columnAliases_run]
  refine ⟨nameless, queryless, ?_, ?_, ?_⟩
  · intro name query e hn named hq failed
    rw [filled name query hn named hq, failed]
    rfl
  · intro name query hn named hq valid
    rw [filled name query hn named hq, valid]
    rfl
  · intro cte ok
    cases hn : lastWrite? Call.name? calls with
    | none => cases ok.symm.trans (nameless (.inl hn))
    | some name =>
      by_cases named : name = ""
      · subst named
        cases ok.symm.trans (nameless (.inr hn))
      · cases hq : lastWrite? Call.query? calls with
        | none => cases ok.symm.trans (queryless name hn named hq)
        | some query =>
          have built := ok.symm.trans (filled name query hn named hq)
          cases hv : query.validate with
          | error e =>
            rw [hv] at built
            cases built
          | ok =>
            rw [hv] at built
            cases built
            exact ⟨named, hv⟩

end CteDraft

namespace WithDraft

inductive Call where
  | addCte (cte : Cte Select)
  | setCtes (ctes : List (Cte Select))

namespace Call

def apply (d : WithDraft) : Call → WithDraft
  | .addCte cte => d.addCte cte
  | .setCtes ctes => d.setCtes ctes

def ctes? : Call → Option (List (Cte Select))
  | .setCtes ctes => some ctes
  | .addCte _ => none

def addedCte? : Call → Option (Cte Select)
  | .addCte cte => some cte
  | .setCtes _ => none

end Call

def run (calls : List Call) : WithDraft := calls.foldl Call.apply {}

theorem ctes_run (calls : List Call) :
    (run calls).ctes = collected Call.ctes? Call.addedCte? calls := by
  refine foldl_eq_collected WithDraft.ctes ?_ ?_ rfl calls
  · intro d c items h
    cases c with
    | addCte cte => cases h
    | setCtes ctes => exact Option.some.inj h
  · intro d c h
    cases c with
    | addCte cte => rfl
    | setCtes ctes => cases h

structure BuildsLastWrites (calls : List Call) : Prop where
  refused_iff : (run calls).build = .error .emptyCteList ↔
    collected Call.ctes? Call.addedCte? calls = []
  built : collected Call.ctes? Call.addedCte? calls ≠ [] →
    (run calls).build = .ok ⟨collected Call.ctes? Call.addedCte? calls⟩
  sound : ∀ w, (run calls).build = .ok w → w.ctes ≠ []

theorem buildsLastWrites (calls : List Call) : BuildsLastWrites calls := by
  have same : (run calls).build =
      WithClause.build (collected Call.ctes? Call.addedCte? calls) := by
    rw [← ctes_run]
    rfl
  unfold WithClause.build at same
  by_cases empty : collected Call.ctes? Call.addedCte? calls = []
  · have refused : (run calls).build = .error .emptyCteList := by
      rw [same, empty]
      rfl
    refine ⟨iff_of_true refused empty, fun nonempty => absurd empty nonempty, ?_⟩
    intro w ok
    cases refused.symm.trans ok
  · have built : (run calls).build = .ok ⟨collected Call.ctes? Call.addedCte? calls⟩ := by
      rw [same, if_neg (mt List.isEmpty_iff.1 empty)]
    refine ⟨iff_of_false ?_ empty, fun _ => built, ?_⟩
    · intro refused
      cases built.symm.trans refused
    · intro w ok
      cases built.symm.trans ok
      exact empty

end WithDraft

/-- Building depends on the last writes and on the collected lists alone, for every sequence of
calls. -/
theorem drafts_build_last_writes :
    (∀ calls, CteDraft.BuildsLastWrites calls) ∧ ∀ calls, WithDraft.BuildsLastWrites calls :=
  ⟨CteDraft.buildsLastWrites, WithDraft.buildsLastWrites⟩

/-- A replacing call drops what was added before it, and the last name counts. -/
example :
    let calls : List CteDraft.Call :=
      [.addColumnAlias "x", .setName "c", .setColumnAliases ["a"], .setName "", .addColumnAlias "b",
        .setName "d"]
    (CteDraft.run calls).build = .error (.missingCteQuery "d") ∧
      (CteDraft.run calls).columnAliases = ["a", "b"] :=
  ⟨rfl, rfl⟩

end QueryForge
