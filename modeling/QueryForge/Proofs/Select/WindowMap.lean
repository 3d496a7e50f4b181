import QueryForge.Proofs.Documents.Agreement
import QueryForge.Proofs.Documents.ListedWindows
import QueryForge.Proofs.Documents.Select
import QueryForge.Proofs.Select.SameValue

/-!
# Named windows on every way into a statement

Windows are registered by calls, listed in a text, or kept sorted in a request value. On each of
these ways the definition given last under a name wins. The first two keep the order of first
registration, and the third lists the same map in the order of the names.
-/

namespace QueryForge

open Json (Decoder Fields Reading)

namespace Clauses

/-- The text of a statement up to its WINDOW clause. -/
def sqlBeforeWindows (c : Clauses String) : String :=
  Sql.optional c.withClause (fun w => w.sql ++ " ") ++
    "SELECT" ++ c.modifier.distinctSql ++ c.projectionSql ++
    Sql.clause " FROM " (c.fromItems.map FromItem.sql) ++
    Sql.concat (c.joins.map fun j => " " ++ j.sql) ++
    Sql.optional c.filter (fun e => " WHERE " ++ e.sql) ++
    Sql.clause " GROUP BY " (c.groupBy.map Expr.sql) ++
    Sql.optional c.having (fun e => " HAVING " ++ e.sql)

/-- The text of a statement behind its WINDOW clause. -/
def sqlBehindWindows (c : Clauses String) : String :=
  Sql.clause " ORDER BY " (c.orderBy.map OrderTerm.text) ++
    Sql.optional c.limit (fun n => " LIMIT " ++ n.toNat.repr) ++
    Sql.optional c.offset (fun n => " OFFSET " ++ n.toNat.repr) ++
    c.modifier.lockingSql ++
    Sql.optional c.setOperation SetOperation.sql

theorem sql_eq_around (c : Clauses String) :
    c.sql = c.sqlBeforeWindows ++ c.windows.sql ++ c.sqlBehindWindows := by
  simp only [sql, sqlBeforeWindows, sqlBehindWindows, String.append_assoc]

end Clauses

namespace Select

/-- The statement after definitions have been registered one after the other. -/
def register (s : Select) (calls : List (String × WindowDefinition Expr)) : Select :=
  calls.foldl (fun s call => s.addWindowDefinition call.1 call.2) s

/-- The names of the WINDOW clause in their order. -/
def windowNames (s : Select) : List String := s.clauses.windows.names

theorem register_eq (s : Select) (calls : List (String × WindowDefinition Expr)) :
    s.register calls = s.update fun c => { c with windows := c.windows.putAll calls } :=
  foldl_addWindowDefinition s calls

/-- What a statement shows of its windows after any calls: under each name the definition that was
registered last, each name once and in the order of first registration, and a WINDOW clause that
lists just these, at the same place of the text whatever the calls were. -/
structure LastWriterWins (s : Select) : Prop where
  found : ∀ calls name, (s.register calls).windowDefinition? name =
    (lastValue? name calls).or (s.windowDefinition? name)
  absent : ∀ calls name, (s.register calls).windowDefinition? name = none ↔
    name ∉ s.windowNames ∧ name ∉ calls.map Prod.fst
  once : ∀ calls, (s.register calls).windowNames.Nodup
  inOrder : ∀ calls, (s.register calls).windowNames =
    (s.windowNames ++ calls.map Prod.fst).eraseDups
  rendered : ∃ before after, ∀ calls, ∃ items,
    (s.register calls).sql = before ++ Sql.clause " WINDOW " items ++ after ∧
    List.Forall₂ (fun name item => ∃ definition,
      (s.register calls).windowDefinition? name = some definition ∧
        item = name ++ " AS (" ++ definition.text ++ ")") (s.register calls).windowNames items

/-- The WINDOW clause is a part of the text that depends on the windows alone. -/
theorem exists_sql_update_windows (s : Select) :
    ∃ before after, ∀ w : NamedWindows,
      (s.update ({ · with windows := w })).sql = before ++ w.sql ++ after := by
  obtain ⟨c⟩ := s
  refine ⟨(c.map sql).sqlBeforeWindows, (c.map sql).sqlBehindWindows, fun w => ?_⟩
  have here : ((node c).update ({ · with windows := w })).sql =
      { c.map sql with windows := w }.sql := fold_node ..
  rw [here, Clauses.sql_eq_around]
  rfl

theorem lastWriterWins (s : Select) : s.LastWriterWins where
  found calls name := by
    rw [register_eq]
    exact NamedWindows.find?_putAll
  absent calls name := by
    rw [register_eq]
    refine NamedWindows.find?_eq_none_iff.trans ?_
    rw [← not_or]
    exact not_congr NamedWindows.mem_names_putAll
  once calls := (s.register calls).clauses.windows.nodup
  inOrder calls := by
    rw [register_eq]
    exact NamedWindows.names_putAll
  rendered := by
    obtain ⟨before, after, text⟩ := s.exists_sql_update_windows
    refine ⟨before, after, fun calls => ?_⟩
    have windows : (s.register calls).clauses.windows = s.clauses.windows.putAll calls := by
      rw [register_eq]
      rfl
    refine ⟨(s.register calls).clauses.windows.entries.map NamedWindows.entrySql, ?_, ?_⟩
    · rw [windows, register_eq]
      exact text (s.clauses.windows.putAll calls)
    · refine List.forall₂_map_left_iff.2 (List.forall₂_map_right_iff.2 ?_)
      refine List.forall₂_same.2 fun entry he => ⟨entry.2, ?_, rfl⟩
      exact (lookup_eq_some_iff_mem (s.register calls).clauses.windows.nodup).2 he

/-- The statement is what a reader makes of the document without its windows, with the listed
windows registered one after the other in their order, also those of a repeated name. The document
and the list use up a level each. -/
def ReadByRegistering (n : Nat) (r : Reading) (j : Json) (s : Select) : Prop :=
  ∃ doc windows l bare entries, OpenAtWindows doc ∧ j = doc (.object windows) ∧ r.levels = l + 2 ∧
    replayNested n r (doc (.object [])) = some bare ∧ bare.windowNames = [] ∧
    EntriesRelated (fun j d => WindowDefinition.replay Expr.replay ⟨r.origin, l⟩ j = some d)
      windows entries ∧
    s = bare.register entries

theorem replayNested_eq_some_iff {n : Nat} {r : Reading} {j : Json} {s : Select} :
    replayNested n r j = some s ↔ ReadByRegistering n r j s := by
  cases n with
  | zero => exact iff_of_false nofun fun ⟨_, _, _, _, _, _, _, _, read, _⟩ => nomatch read
  | succ n =>
    refine Option.map_eq_some_iff.trans ?_
    constructor
    · rintro ⟨c, read, rfl⟩
      obtain ⟨doc, windows, l, bare, entries, opened, rfl, levels, readBare, empty, listed, rfl⟩ :=
        Clauses.replay_eq_some_iff.1 read
      refine ⟨doc, windows, l, .node bare, entries, opened, rfl, levels, ?_, ?_, listed, ?_⟩
      · exact Option.map_eq_some_iff.2 ⟨bare, readBare, rfl⟩
      · exact congrArg NamedWindows.names empty
      · rw [register_eq]
        rfl
    · rintro ⟨doc, windows, l, s₀, entries, opened, rfl, levels, read, -, listed, rfl⟩
      obtain ⟨bare, readBare, rfl⟩ := Option.map_eq_some_iff.1 read
      have empty := Clauses.windows_of_replay_open opened readBare
      refine ⟨_, Clauses.replay_eq_some_iff.2 ⟨doc, windows, l, bare, entries, opened, rfl, levels,
        readBare, empty, listed, rfl⟩, ?_⟩
      rw [register_eq]
      rfl

/-- The text with the windows of each statement inside arranged by a function. -/
def sqlArranged (arrange : NamedWindows → NamedWindows) : Select → String :=
  fold fun c => { c with windows := arrange c.windows }.sql

/-- The second statement is the first one with the windows of every statement inside sorted by
name: the same value, with the same definitions, whose text differs in the order inside the WINDOW
clauses alone. -/
structure SortedOf (s t : Select) : Prop where
  eq : t = s.windowsByName
  sameValue : s.sameValue t = true
  found : ∀ name, t.windowDefinition? name = s.windowDefinition? name
  inOrder : t.windowNames.Pairwise (· < ·)
  sql : s.sql = s.sqlArranged id ∧ t.sql = s.sqlArranged NamedWindows.byName

theorem sameValue_node (c d : Clauses Select) :
    (node c).sameValue (node d) = (c.map sameValue).sameBy (fun same s => same s) d := by
  unfold sameValue
  rw [fold_node]
  rfl

theorem sameValue_windowsByName {s : Select} (finite : s.IsFinite) :
    s.sameValue s.windowsByName = true := by
  induction s using Select.induction with
  | step c ih =>
    obtain ⟨own, parts⟩ := isFinite_node.1 finite
    let same : (Select → Bool) → Select → Bool := fun same s => same s
    have nested : ∀ q ∈ c.nested, same (sameValue q) (windowsByName q) = true := fun q hq =>
      ih q hq (parts q hq)
    obtain ⟨-, -, -, -, -, -, -, inWindows, -⟩ := Clauses.forall_expressions_iff.1 own
    rw [windowsByName_node, sameValue_node]
    exact Clauses.sameBy_map own nested (NamedWindows.sameValue_byName inWindows)

theorem sql_windowsByName (s : Select) :
    s.windowsByName.sql = s.sqlArranged NamedWindows.byName := by
  induction s using Select.induction with
  | step c ih =>
    have below : (c.map windowsByName).map sql = c.map (sqlArranged NamedWindows.byName) :=
      Clauses.map_map ih
    have left : (node (c.windowsByName windowsByName)).sql =
        { (c.map windowsByName).map sql with windows := c.windows.byName }.sql := fold_node ..
    have right : (node c).sqlArranged NamedWindows.byName =
        { c.map (sqlArranged NamedWindows.byName) with windows := c.windows.byName }.sql :=
      fold_node ..
    rw [windowsByName_node, left, right, below]

theorem sortedOf_windowsByName {s : Select} (finite : s.IsFinite) :
    s.SortedOf s.windowsByName where
  eq := rfl
  sameValue := sameValue_windowsByName finite
  found name := by
    cases s with
    | node c =>
      rw [windowsByName_node]
      exact NamedWindows.find?_byName
  inOrder := by
    cases s with
    | node c =>
      rw [windowsByName_node]
      exact c.windows.sorted_byName
  sql := ⟨rfl, s.sql_windowsByName⟩

/-- The windows of a statement are a map in which the last definition of a name wins, on every way
into it: by calls, in a document that is read, and in the sorted value of that document. -/
theorem windows_last_writer_wins :
    (∀ s : Select, s.LastWriterWins) ∧
    (∀ n r j s, replayNested n r j = some s ↔ ReadByRegistering n r j s) ∧
    ∀ l m j s t, replay ⟨.text, l⟩ j = some s → replay ⟨.request, m⟩ j.sorted = some t →
      s.SortedOf t := by
  refine ⟨lastWriterWins, fun _ _ _ _ => replayNested_eq_some_iff, ?_⟩
  intro l m j s t read readSorted
  obtain rfl := agrees l m j s t read readSorted
  exact sortedOf_windowsByName (decoded_finite _ j s read)

/-- A statement whose document lists `w1` twice, around `w0`. -/
def repeatedWindow : Json :=
  .array [.null, .string "All", .array [], .array [], .array [], .array [], .null, .array [], .null,
    .object [("w1", .array [.array [], .array [], .null]),
      ("w0", .array [.array [], .array [], .null]),
      ("w1", .array [.array [], .array [],
        .array [.string "Rows", .string "CurrentRow", .null, .null]])],
    .array [], .null, .null, .null]

theorem repeatedWindow_last_writer_wins :
    ∃ s t, replay Reading.ofText repeatedWindow = some s ∧
      replay (Reading.ofRequest repeatedWindow.sorted) repeatedWindow.sorted = some t ∧
      s.sql = "SELECT WINDOW w1 AS (ROWS CURRENT ROW), w0 AS ()" ∧
      t.sql = "SELECT WINDOW w0 AS (), w1 AS (ROWS CURRENT ROW)" ∧
      ReadByRegistering Json.textLevels Reading.ofText repeatedWindow s ∧ s.SortedOf t := by
  have text : replay Reading.ofText repeatedWindow = some ((node {}).register
      [("w1", ⟨[], [], none⟩), ("w0", ⟨[], [], none⟩),
        ("w1", ⟨[], [], some ⟨.rows, .currentRow, none, none⟩⟩)]) := rfl
  have value : replay (Reading.ofRequest repeatedWindow.sorted) repeatedWindow.sorted =
      some ((node {}).register [("w0", ⟨[], [], none⟩),
        ("w1", ⟨[], [], some ⟨.rows, .currentRow, none, none⟩⟩)]) := rfl
  refine ⟨_, _, text, value, by decide, by decide, ?_, ?_⟩
  · exact (windows_last_writer_wins.2.1 _ _ _ _).1 text
  · exact windows_last_writer_wins.2.2 _ _ _ _ _ text value

end Select
end QueryForge
