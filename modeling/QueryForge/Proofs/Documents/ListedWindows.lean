import QueryForge.Proofs.Json.Decoders
import QueryForge.Proofs.Lookup
import QueryForge.Select.Dump

/-!
# The windows of a document

The windows of a statement are read apart from everything else: a reader takes what it would take
without any windows, and then registers the listed ones in their order.
-/

namespace QueryForge

open Json (Decoder Fields Reading)

/-- A document of a statement that is open at the place of the windows: at the first member of that
name, or at the tenth field. -/
inductive OpenAtWindows : (Json → Json) → Prop
  | named {before after : List (String × Json)}
      (first : "window_definitions" ∉ before.map Prod.fst) :
      OpenAtWindows fun windows => .object (before ++ ("window_definitions", windows) :: after)
  | placed {before after : List Json} (tenth : before.length = 9) :
      OpenAtWindows fun windows => .array (before ++ windows :: after)

namespace OpenAtWindows

open Json.Fields

variable {doc : Json → Json}

theorem unrepeated_congr {names : List String} {members others : List (String × Json)}
    (same : members.map Prod.fst = others.map Prod.fst) :
    unrepeated names members = unrepeated names others := by
  unfold unrepeated
  simp only [length_filter_eq_count, same]

theorem lookup_open {before after : List (String × Json)} {name : String}
    (first : "window_definitions" ∉ before.map Prod.fst) (windows : Json) :
    (before ++ ("window_definitions", windows) :: after).lookup name =
      if name = "window_definitions" then some windows else (before ++ after).lookup name := by
  rw [List.lookup_append, List.lookup_append, lookup_cons_eq_ite]
  by_cases h : name = "window_definitions"
  · rw [if_pos h, if_pos h, h, lookup_eq_none_iff_notMem.2 first, Option.none_or]
  · rw [if_neg h, if_neg h]

/-- Whatever stands at the open place, the other fields are the same, and they are refused for the
same reasons. -/
theorem ofRecord_eq (h : OpenAtWindows doc) (r : Reading) :
    (∀ windows, ofRecord Clauses.fieldNames r (doc windows) = none) ∨
    ∃ inner front back, r.enter = some inner ∧ front.length = 9 ∧ back.length = 4 ∧
      ∀ windows, ofRecord Clauses.fieldNames r (doc windows) =
        some ⟨inner, front ++ some windows :: back⟩ := by
  cases enter : r.enter with
  | none =>
    refine .inl fun windows => ?_
    cases h with
    | named first => exact congrArg (Option.bind · _) enter
    | placed tenth => exact congrArg (Option.bind · _) enter
  | some inner =>
    cases h with
    | @named before after first =>
      have sameNames (windows : Json) :
          (before ++ ("window_definitions", windows) :: after).map Prod.fst =
            (before ++ ("window_definitions", .null) :: after).map Prod.fst := by
        rw [List.map_append, List.map_append, List.map_cons, List.map_cons]
      have read (windows : Json) :
          ofRecord Clauses.fieldNames r
              (.object (before ++ ("window_definitions", windows) :: after)) =
            if r.origin = .text ∧ ¬unrepeated Clauses.fieldNames
                (before ++ ("window_definitions", .null) :: after) = true then none
            else some ⟨inner, Clauses.fieldNames.map fun name =>
              (before ++ ("window_definitions", windows) :: after).lookup name⟩ := by
        rw [ofRecord, ofMembers, enter, Option.bind_eq_bind, Option.bind_some,
          unrepeated_congr (sameNames windows)]
      by_cases refused : r.origin = .text ∧ ¬unrepeated Clauses.fieldNames
          (before ++ ("window_definitions", .null) :: after) = true
      · exact .inl fun windows => (read windows).trans (if_pos refused)
      · refine .inr ⟨inner,
          (Clauses.fieldNames.take 9).map fun name => (before ++ after).lookup name,
          (Clauses.fieldNames.drop 10).map fun name => (before ++ after).lookup name, rfl, rfl, rfl,
          fun windows => ?_⟩
        rw [read, if_neg refused]
        simp only [lookup_open first]
        simp [Clauses.fieldNames]
    | @placed before after tenth =>
      have read (windows : Json) :
          ofRecord Clauses.fieldNames r (.array (before ++ windows :: after)) =
            if (before ++ windows :: after).length = 14 then
              some ⟨inner, (before ++ windows :: after).map some⟩
            else none := by
        rw [ofRecord, enter, Option.bind_eq_bind, Option.bind_some]
        rfl
      by_cases few : after.length = 4
      · refine .inr ⟨inner, before.map some, after.map some, rfl, ?_, ?_, fun windows => ?_⟩
        · rw [List.length_map, tenth]
        · rw [List.length_map, few]
        · rw [read, if_pos, List.map_append, List.map_cons]
          rw [List.length_append, List.length_cons, tenth, few]
      · refine .inl fun windows => ?_
        rw [read, if_neg]
        rw [List.length_append, List.length_cons, tenth]
        omega

end OpenAtWindows

namespace Clauses

variable {Q : Type} {nested : Decoder Q} {doc : Json → Json}

/-- The entries of an object of windows. -/
def definitions : Decoder (List (String × WindowDefinition Expr)) :=
  Decoder.entries (WindowDefinition.replay Expr.replay)

/-- The clauses of a document are those of the document without windows, and for windows the listed
ones registered one after the other. -/
theorem replay_open (h : OpenAtWindows doc) (r : Reading) (windows : List (String × Json)) :
    replay nested r (doc (.object windows)) = (do
      let inner ← r.enter
      let bare ← replay nested r (doc (.object []))
      let entries ← definitions inner (.object windows)
      some { bare with windows := .putAll .empty entries }) := by
  unfold replay
  rcases h.ofRecord_eq r with refused | ⟨inner, front, back, enter, hf, hb, read⟩
  · rw [refused, refused]
    cases r.enter <;> rfl
  · rw [read, read, enter]
    match front, hf, back, hb with
    | [withClause, modifier, columns, functions, items, joins, filter, groupBy, having], _,
        [orderBy, limit, offset, arm], _ =>
      dsimp only [Option.bind_eq_bind, Option.bind_some, List.cons_append, List.nil_append]
      -- the fields before the windows are read alike on both sides, then those behind them
      iterate 9 refine (Option.bind_congr fun _ _ => ?_).trans (Option.bind_assoc ..).symm
      obtain ⟨origin, levels⟩ := inner
      cases levels with
      | zero => rfl
      | succ n =>
        have bare (slots : List (Option Json)) :
            Fields.required ⟨⟨origin, n + 1⟩, slots⟩ NamedWindows.replay (some (.object [])) =
              some .empty := rfl
        have full (slots : List (Option Json)) :
            Fields.required ⟨⟨origin, n + 1⟩, slots⟩ NamedWindows.replay (some (.object windows)) =
              (definitions ⟨origin, n + 1⟩ (.object windows)).map NamedWindows.empty.putAll := rfl
        rw [bare, full, Option.bind_some]
        cases definitions ⟨origin, n + 1⟩ (.object windows) with
        | none => exact (Option.bind_fun_none _).symm
        | some entries =>
          rw [Option.map_some, Option.bind_some]
          iterate 4 refine (Option.bind_congr fun _ _ => ?_).trans (Option.bind_assoc ..).symm
          rfl

/-- The tenth slot of the fields of a document is at an open place of it. -/
theorem exists_open_of_ofRecord {r : Reading} {j windows : Json} {fs : Fields}
    (found : Fields.ofRecord fieldNames r j = some fs)
    (tenth : fs.slots[9]? = some (some windows)) :
    ∃ doc, OpenAtWindows doc ∧ j = doc windows := by
  cases j with
  | object members =>
    obtain ⟨inner, -, found⟩ := Option.bind_eq_some_iff.1 found
    split at found
    · cases found
    · obtain rfl := Option.some.inj found
      have held : members.lookup "window_definitions" = some windows := Option.some.inj tenth
      obtain ⟨before, after, rfl, first⟩ := List.lookup_eq_some_iff.1 held
      refine ⟨_, .named fun known => ?_, rfl⟩
      obtain ⟨member, hm, same⟩ := List.mem_map.1 known
      exact absurd same.symm (bne_iff_ne.1 (first member hm))
  | array items =>
    obtain ⟨inner, -, found⟩ := Option.bind_eq_some_iff.1 found
    split at found
    · next size =>
      obtain rfl := Option.some.inj found
      have place : 9 < items.length := by
        rw [size]
        decide
      have held : items[9] = windows := by
        rw [List.getElem?_map, List.getElem?_eq_getElem place] at tenth
        exact Option.some.inj (Option.some.inj tenth)
      have whole : items = items.take 9 ++ windows :: items.drop 10 := by
        rw [← held, ← List.drop_eq_getElem_cons place, List.take_append_drop]
      have front : (items.take 9).length = 9 := by
        rw [List.length_take]
        omega
      exact ⟨_, .placed front, congrArg Json.array whole⟩
    · cases found
  | _ => cases found

/-- Every document of a statement lists its windows in an object. -/
theorem exists_open {r : Reading} {j : Json} {c : Clauses Q} (h : replay nested r j = some c) :
    ∃ doc windows, OpenAtWindows doc ∧ j = doc (.object windows) := by
  obtain ⟨fs, found, rest⟩ := Option.bind_eq_some_iff.1 h
  split at rest
  · next windows _ _ _ _ slots =>
    iterate 9 obtain ⟨_, -, rest⟩ := Option.bind_eq_some_iff.1 rest
    obtain ⟨_, read, -⟩ := Option.bind_eq_some_iff.1 rest
    obtain ⟨content, rfl, read⟩ := Option.bind_eq_some_iff.1 read
    obtain ⟨entries, read, -⟩ := Option.map_eq_some_iff.1 read
    cases content with
    | object members =>
      obtain ⟨doc, opened, whole⟩ := exists_open_of_ofRecord found (by rw [slots]; rfl)
      exact ⟨doc, members, opened, whole⟩
    | _ => cases read
  · cases rest

/-- What a list of windows is read as, entry by entry. -/
theorem definitions_eq_some_iff {r : Reading} {windows : List (String × Json)}
    {entries : List (String × WindowDefinition Expr)} :
    definitions r (.object windows) = some entries ↔ ∃ l, r.levels = l + 1 ∧
      EntriesRelated (fun j d => WindowDefinition.replay Expr.replay ⟨r.origin, l⟩ j = some d)
        windows entries := by
  obtain ⟨origin, levels⟩ := r
  cases levels with
  | zero => exact iff_of_false nofun fun ⟨_, levels, _⟩ => nomatch levels
  | succ l =>
    constructor
    · intro listed
      exact ⟨l, rfl, mapM_entries_eq_some_iff.1 listed⟩
    · rintro ⟨m, levels, listed⟩
      obtain rfl := Nat.succ.inj levels
      exact mapM_entries_eq_some_iff.2 listed

theorem windows_of_replay_open (h : OpenAtWindows doc) {r : Reading} {bare : Clauses Q}
    (read : replay nested r (doc (.object [])) = some bare) : bare.windows = .empty := by
  obtain ⟨inner, -, rest⟩ := Option.bind_eq_some_iff.1 (replay_open h r [] ▸ read)
  obtain ⟨same, -, rest⟩ := Option.bind_eq_some_iff.1 rest
  obtain ⟨entries, listed, whole⟩ := Option.bind_eq_some_iff.1 rest
  obtain ⟨l, -, related⟩ := definitions_eq_some_iff.1 listed
  obtain rfl := List.forall₂_nil_left_iff.1 related
  obtain rfl := Option.some.inj whole
  rfl

/-- Clauses are read by reading a document without its windows and registering them. -/
theorem replay_eq_some_iff {r : Reading} {j : Json} {c : Clauses Q} :
    replay nested r j = some c ↔ ∃ doc windows l bare entries,
      OpenAtWindows doc ∧ j = doc (.object windows) ∧ r.levels = l + 2 ∧
      replay nested r (doc (.object [])) = some bare ∧ bare.windows = .empty ∧
      EntriesRelated (fun j d => WindowDefinition.replay Expr.replay ⟨r.origin, l⟩ j = some d)
        windows entries ∧
      c = { bare with windows := bare.windows.putAll entries } := by
  obtain ⟨origin, levels⟩ := r
  constructor
  · intro read
    obtain ⟨doc, windows, opened, rfl⟩ := exists_open read
    obtain ⟨inner, enter, rest⟩ := Option.bind_eq_some_iff.1 (replay_open opened .. ▸ read)
    obtain ⟨bare, readBare, rest⟩ := Option.bind_eq_some_iff.1 rest
    obtain ⟨entries, listed, whole⟩ := Option.bind_eq_some_iff.1 rest
    have empty := windows_of_replay_open opened readBare
    cases levels with
    | zero => cases enter
    | succ n =>
      obtain rfl := Option.some.inj enter
      obtain ⟨l, rfl, listed⟩ := definitions_eq_some_iff.1 listed
      refine ⟨doc, windows, l, bare, entries, opened, rfl, rfl, readBare, empty, listed, ?_⟩
      rw [empty]
      exact (Option.some.inj whole).symm
  · rintro ⟨doc, windows, l, bare, entries, opened, rfl, rfl, readBare, empty, listed, rfl⟩
    rw [empty]
    refine (replay_open opened ..).trans (Option.bind_eq_some_iff.2 ⟨⟨origin, l + 1⟩, rfl, ?_⟩)
    refine Option.bind_eq_some_iff.2 ⟨bare, readBare, ?_⟩
    exact Option.bind_eq_some_iff.2 ⟨entries, definitions_eq_some_iff.2 ⟨l, rfl, listed⟩, rfl⟩

end Clauses
end QueryForge
