import Mathlib.Data.Finset.Card
import Mathlib.Data.Finset.Dedup
import QueryForge.Proofs.Documents.Statement

/-!
# Growing registries

A registry is an ordered set that only grows. Any sequence of calls appends the texts that are new
to it, so what is registered or expected once stays so. A document with a list of strings is read
as if they were added one after another.
-/

namespace QueryForge.ErrorRegistry

open Json (Origin Reading Decoder Fields ofStrings decode? textLevels)

/-- The calls that change a registry. -/
inductive Call where
  | add (text : String)
  | addAll (texts : List String)
  | addExpressionErrors
  | addWriteErrors
  | addTableErrors
deriving DecidableEq, Repr

namespace Call

def apply (r : ErrorRegistry) : Call → ErrorRegistry
  | .add text => r.add text
  | .addAll texts => r.addAll texts
  | .addExpressionErrors => r.addExpressionErrors
  | .addWriteErrors => r.addWriteErrors
  | .addTableErrors => r.addTableErrors

/-- What a call adds, known or not. -/
def texts : Call → List String
  | .add text => [text]
  | .addAll texts => texts
  | .addExpressionErrors => expressionErrors
  | .addWriteErrors => writeErrors
  | .addTableErrors => tableErrors

theorem apply_eq_addAll (r : ErrorRegistry) (c : Call) : c.apply r = r.addAll c.texts := by
  cases c <;> rfl

end Call

def run (r : ErrorRegistry) (calls : List Call) : ErrorRegistry := calls.foldl Call.apply r

variable {r : ErrorRegistry}

/-- By induction on the calls: each one adds its texts behind those of the calls before it. -/
theorem run_eq_addAll (r : ErrorRegistry) (calls : List Call) :
    r.run calls = r.addAll (calls.flatMap Call.texts) := by
  induction calls generalizing r with
  | nil => rfl
  | cons c rest ih =>
    have step : r.run (c :: rest) = (c.apply r).run rest := rfl
    rw [step, ih, Call.apply_eq_addAll, addAll_addAll, List.flatMap_cons]

theorem entries_run (r : ErrorRegistry) (calls : List Call) :
    (r.run calls).entries = (r.entries ++ calls.flatMap Call.texts).eraseDups := by
  rw [run_eq_addAll, entries_addAll]

theorem run_append (r : ErrorRegistry) (earlier later : List Call) :
    r.run (earlier ++ later) = (r.run earlier).run later :=
  List.foldl_append

theorem prefix_run (r : ErrorRegistry) (calls : List Call) :
    r.entries <+: (r.run calls).entries := by
  rw [entries_run, List.eraseDups_append, eraseDups_of_nodup r.nodup]
  exact List.prefix_append _ _

/-- The size of a registry is the number of different texts that were added to it. -/
theorem size_run (r : ErrorRegistry) (calls : List Call) :
    (r.run calls).size = (r.entries ++ calls.flatMap Call.texts).toFinset.card := by
  have same : (r.run calls).entries.toFinset =
      (r.entries ++ calls.flatMap Call.texts).toFinset := by
    ext text
    rw [List.mem_toFinset, List.mem_toFinset, entries_run, List.mem_eraseDups]
  rw [← same, List.toFinset_card_of_nodup (r.run calls).nodup]
  rfl

theorem contains_iff {text : String} : r.contains text ↔ text ∈ r.entries := by
  rw [contains, List.contains_iff_mem]

theorem contains_run {text : String} (h : r.contains text) (calls : List Call) :
    (r.run calls).contains text :=
  contains_iff.2 ((prefix_run r calls).subset (contains_iff.1 h))

/-- A message is expected exactly if it has an entry in it. -/
theorem isExpected_iff {message : String} :
    r.isExpected message ↔ ∃ e ∈ r.entries, ∃ before after, message = before ++ e ++ after := by
  rw [isExpected, List.any_eq_true]
  constructor
  · rintro ⟨e, mem, occurs⟩
    obtain ⟨before, after, same⟩ := occursIn_iff.1 occurs
    refine ⟨e, mem, .ofList before, .ofList after, String.toList_injective ?_⟩
    simpa using same.symm
  · rintro ⟨e, mem, before, after, rfl⟩
    exact ⟨e, mem, occursIn_iff.2 ⟨before.toList, after.toList, by simp⟩⟩

theorem isExpected_run {message : String} (h : r.isExpected message) (calls : List Call) :
    (r.run calls).isExpected message := by
  obtain ⟨e, mem, within⟩ := isExpected_iff.1 h
  exact isExpected_iff.2 ⟨e, (prefix_run r calls).subset mem, within⟩

/-- The document lists these strings, under the name of the field or at its place. A field must not
be repeated in a text. -/
inductive Lists (o : Origin) : Json → List String → Prop
  | named {members : List (String × Json)} {texts : List String}
    (once : o = .text → (members.filter fun member => member.1 == "errors").length ≤ 1)
    (found : members.lookup "errors" = some (ofStrings texts)) : Lists o (.object members) texts
  | placed {texts : List String} : Lists o (.array [ofStrings texts]) texts

theorem string_eq_some_iff {reading : Reading} {j : Json} {text : String} :
    Decoder.string reading j = some text ↔ j = .string text := by
  cases j <;> simp [Decoder.string]

theorem mapM_string_eq_some_iff {reading : Reading} {items : List Json} {texts : List String} :
    items.mapM (Decoder.string reading) = some texts ↔ items = texts.map .string := by
  induction items generalizing texts with
  | nil => cases texts <;> simp
  | cons item rest ih =>
    rw [List.mapM_cons]
    simp only [Option.bind_eq_bind, Option.bind_eq_some_iff, string_eq_some_iff, ih]
    cases texts <;> simp

theorem list_string_eq_some_iff {reading : Reading} {j : Json} {texts : List String} :
    Decoder.list Decoder.string reading j = some texts ↔
      1 ≤ reading.levels ∧ j = ofStrings texts := by
  obtain ⟨origin, levels⟩ := reading
  cases j with
  | array items =>
    cases levels <;> simp [Decoder.list, Reading.enter, mapM_string_eq_some_iff, ofStrings]
  | _ => simp [Decoder.list, ofStrings]

/-- The one field of the record, read one level further in. -/
theorem ofRecord_eq_some_iff {reading inner : Reading} {j : Json} {texts : List String} :
    Fields.ofRecord fieldNames reading j = some ⟨inner, [some (ofStrings texts)]⟩ ↔
      reading.enter = some inner ∧ Lists reading.origin j texts := by
  constructor
  · intro read
    cases j with
    | object members =>
      obtain ⟨entered, enter, read⟩ := Option.bind_eq_some_iff.1 read
      simp only [fieldNames, Fields.unrepeated, List.all_cons, List.all_nil, Bool.and_true,
        decide_eq_true_eq, Option.ite_none_left_eq_some, Option.some.injEq, Fields.mk.injEq,
        List.map_cons, List.map_nil, List.cons.injEq, and_true, not_and, not_not] at read
      obtain ⟨once, rfl, found⟩ := read
      exact ⟨enter, .named once found⟩
    | array items =>
      obtain ⟨entered, enter, read⟩ := Option.bind_eq_some_iff.1 read
      simp only [Option.ite_none_right_eq_some, Option.some.injEq, Fields.mk.injEq] at read
      obtain ⟨-, rfl, single⟩ := read
      obtain ⟨listed, rfl, same⟩ := List.map_eq_singleton_iff.1 single
      obtain rfl := Option.some.inj same
      exact ⟨enter, .placed⟩
    | _ => cases read
  · rintro ⟨enter, ⟨once, found⟩ | _⟩
    · refine Option.bind_eq_some_iff.2 ⟨inner, enter, ?_⟩
      simpa [fieldNames, Fields.unrepeated, found] using once
    · exact Option.bind_eq_some_iff.2 ⟨inner, enter, rfl⟩

theorem two_le_levels_iff {reading : Reading} :
    2 ≤ reading.levels ↔ ∃ inner, reading.enter = some inner ∧ 1 ≤ inner.levels := by
  obtain ⟨origin, levels⟩ := reading
  cases levels <;> simp [Reading.enter]

/-- A document is read as a registry exactly if it lists strings, and these are added in order. -/
theorem replay_eq_some_iff {reading : Reading} {j : Json} :
    replay reading j = some r ↔
      2 ≤ reading.levels ∧ ∃ texts, Lists reading.origin j texts ∧ r = empty.addAll texts := by
  rw [two_le_levels_iff]
  constructor
  · intro h
    obtain ⟨⟨inner, slots⟩, record, rest⟩ := Option.bind_eq_some_iff.1 h
    dsimp only at rest
    split at rest
    · next errors =>
      obtain ⟨texts, read, same⟩ := Option.bind_eq_some_iff.1 rest
      obtain ⟨listed, rfl, read⟩ := Option.bind_eq_some_iff.1 read
      obtain ⟨level, rfl⟩ := list_string_eq_some_iff.1 read
      obtain ⟨enter, lists⟩ := ofRecord_eq_some_iff.1 record
      exact ⟨⟨inner, enter, level⟩, texts, lists, (Option.some.inj same).symm⟩
    · cases rest
  · rintro ⟨⟨inner, enter, level⟩, texts, lists, rfl⟩
    refine Option.bind_eq_some_iff.2 ⟨_, ofRecord_eq_some_iff.2 ⟨enter, lists⟩, ?_⟩
    refine Option.bind_eq_some_iff.2 ⟨texts, ?_, rfl⟩
    exact list_string_eq_some_iff.2 ⟨level, rfl⟩

theorem decode?_strings (texts : List String) :
    decode? replay (Json.object [("errors", ofStrings texts)]).text =
      some (empty.addAll texts) := by
  have writable : (Json.object [("errors", ofStrings texts)]).Writable := by
    refine .object fun member hm => ?_
    rw [List.mem_singleton.1 hm]
    exact (Json.stands_ofStrings (o := .text) (n := 0) texts).writable
  rw [decode?, Json.ofText?_text writable, Option.bind_some]
  exact replay_eq_some_iff.2 ⟨by decide, texts, .named (fun _ => Nat.le_refl 1) rfl, rfl⟩

/-- What a sequence of calls makes of a registry, and what later calls leave as it is. -/
structure GrowsInOrder (r : ErrorRegistry) (calls : List Call) : Prop where
  entries : (r.run calls).entries = (r.entries ++ calls.flatMap Call.texts).eraseDups
  size : (r.run calls).size = (r.entries ++ calls.flatMap Call.texts).toFinset.card
  kept : ∀ later, (r.run calls).entries <+: (r.run (calls ++ later)).entries
  expected_iff : ∀ s : Statement, s.expectedErrors = r.run calls → ∀ message,
    s.isExpectedError message ↔
      ∃ e ∈ (r.run calls).entries, ∃ before after, message = before ++ e ++ after
  stays_expected : ∀ message, (r.run calls).isExpected message →
    ∀ later, (r.run (calls ++ later)).isExpected message
  stays_contained : ∀ text, (r.run calls).contains text →
    ∀ later, (r.run (calls ++ later)).contains text
  contained_expected : ∀ text, (r.run calls).contains text →
    ∀ before after, (r.run calls).isExpected (before ++ text ++ after)

/-- A registry is a set in the order of first additions that only grows, with any message around
an entry expected. Reading a list of strings adds them in order to an empty registry. -/
theorem registry_grows_in_order :
    (∀ r calls, GrowsInOrder r calls) ∧
    (∀ reading j r, replay reading j = some r ↔
      2 ≤ reading.levels ∧ ∃ texts, Lists reading.origin j texts ∧ r = empty.addAll texts) ∧
    ∀ texts, decode? replay (Json.object [("errors", ofStrings texts)]).text =
      some (empty.addAll texts) := by
  refine ⟨?_, fun _ _ _ => replay_eq_some_iff, decode?_strings⟩
  intro r calls
  constructor
  · exact entries_run r calls
  · exact size_run r calls
  · intro later
    rw [run_append]
    exact prefix_run _ later
  · intro s same message
    rw [← same]
    exact isExpected_iff
  · intro message h later
    rw [run_append]
    exact isExpected_run h later
  · intro text h later
    rw [run_append]
    exact contains_run h later
  · intro text h before after
    exact isExpected_of_mem (contains_iff.1 h) before after

example :
    (empty.run [.add "a", .addAll ["b", "a"], .add "b", .add "c"]).entries = ["a", "b", "c"] := by
  decide

end QueryForge.ErrorRegistry
