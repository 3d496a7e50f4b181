import QueryForge.Catalog

/-!
# Splitting separated texts

Pieces with a separator between them are found again by splitting their text at the separator, if
no piece has the first character of the separator in it.
-/

namespace QueryForge.Sql

open String (Slice)
open String.Slice.Pattern.Model

section Positions

variable {separator : String} {d : Char} {s : Slice} {p q r : s.Pos} {front piece behind : String}

theorem ne_empty_of_first (first : separator.toList.head? = some d) : separator ≠ "" := by
  rintro rfl
  cases first

/-- Inside a piece no separator begins. -/
theorem not_matchesAt_of_notMem (first : separator.toList.head? = some d)
    (absent : d ∉ piece.toList) (start : p.Splits front (piece ++ behind))
    (stop : q.Splits (front ++ piece) behind) (le : p ≤ r) (lt : r < q) :
    ¬MatchesAt separator r := by
  intro found
  obtain ⟨before, after, here⟩ := ForwardStringSearcher.matchesAt_iff_splits.1 found
  obtain ⟨rest, nonempty, whole, text⟩ := (here.lt_iff_exists_eq_append stop).1 lt
  obtain ⟨skipped, rfl, -⟩ := (start.le_iff_exists_eq_append here).1 le
  have chars : piece.toList = skipped.toList ++ rest.toList := by
    have same := congrArg String.toList whole
    simpa using same
  obtain ⟨c, cs, begins⟩ := List.exists_cons_of_ne_nil (mt String.toList_eq_nil_iff.1 nonempty)
  obtain ⟨e, es, opens⟩ :=
    List.exists_cons_of_ne_nil (mt String.toList_eq_nil_iff.1 (ne_empty_of_first first))
  have same := congrArg String.toList text
  rw [String.toList_append, String.toList_append, begins, opens] at same
  rw [opens] at first
  apply absent
  rw [chars, begins, ← (List.cons.inj same).1, Option.some.inj first]
  exact List.mem_append_right _ List.mem_cons_self

theorem copy_subslice (start : p.Splits front (piece ++ behind))
    (stop : q.Splits (front ++ piece) behind) (le : p ≤ q) : (s.subslice p q le).copy = piece := by
  obtain ⟨_, same⟩ := Slice.copy_slice_eq_iff_splits.2 ⟨front, behind, start, stop⟩
  rw [Slice.Subslice.copy_eq, Function.comp_apply, Slice.toSlice_subslice, same]

/-- By induction on the pieces: splitting goes on behind the separator that follows a piece. -/
theorem map_copy_split_from (first : separator.toList.head? = some d)
    [StrictPatternModel separator] {parts : List String} (nonempty : parts ≠ [])
    (absent : ∀ part ∈ parts, d ∉ part.toList) (here : p.Splits front (separated separator parts)) :
    (String.Slice.Pattern.Model.split separator p p (Std.le_refl p)).map Slice.Subslice.copy =
      parts := by
  induction parts generalizing p front with
  | nil => exact absurd rfl nonempty
  | cons piece rest ih =>
    obtain ⟨free, absent⟩ := List.forall_mem_cons.1 absent
    cases rest with
    | nil =>
      have start : p.Splits front (piece ++ "") := by
        rw [String.append_empty]
        exact here
      have stop : s.endPos.Splits (front ++ piece) "" := by
        have ends := s.splits_endPos
        rwa [here.eq_append] at ends
      have le : p ≤ s.endPos := (start.le_iff_exists_eq_append stop).2 ⟨piece, rfl, rfl⟩
      have inside := fun r above below =>
        not_matchesAt_of_notMem (r := r) first free start stop above below
      rw [split_eq_of_not_matchesAt s.endPos le inside, split_endPos, List.map_singleton,
        copy_subslice start stop le]
    | cons next rest =>
      have start : p.Splits front (piece ++ (separator ++ separated separator (next :: rest))) := by
        rw [← String.append_assoc]
        exact here
      have text : s.copy =
          (front ++ piece) ++ (separator ++ separated separator (next :: rest)) := by
        rw [start.eq_append, String.append_assoc]
      have stop := Slice.Pos.splits_ofEqAppend text
      rw [← String.append_assoc] at text
      have onward := Slice.Pos.splits_ofEqAppend text
      have le := (start.le_iff_exists_eq_append stop).2 ⟨piece, rfl, rfl⟩
      have inside := fun r above below =>
        not_matchesAt_of_notMem (r := r) first free start stop above below
      have longest := ForwardStringSearcher.isLongestMatchAt_iff_splits.2 ⟨_, _, stop, onward⟩
      rw [split_eq_of_not_matchesAt _ le inside, split_eq_of_isLongestMatchAt longest,
        List.map_cons, copy_subslice start stop le, ih (List.cons_ne_nil _ _) absent onward]

end Positions

theorem notMem_separated {c : Char} {separator : String} (apart : c ∉ separator.toList)
    {parts : List String} (h : ∀ part ∈ parts, c ∉ part.toList) :
    c ∉ (separated separator parts).toList := by
  induction parts with
  | nil => exact List.not_mem_nil
  | cons part rest ih =>
    obtain ⟨free, others⟩ := List.forall_mem_cons.1 h
    cases rest with
    | nil => exact free
    | cons next rest =>
      rw [separated, String.toList_append, String.toList_append, List.mem_append, List.mem_append]
      rintro ((inPart | inSeparator) | behind)
      · exact free inPart
      · exact apart inSeparator
      · exact ih others behind

/-- The pieces of a text between occurrences of a separator. -/
def pieces (separator text : String) : List String :=
  (text.split separator).toList.map Slice.copy

/-- Separated pieces are found again if the first character of the separator occurs in none. -/
theorem pieces_separated {separator : String} {d : Char} (first : separator.toList.head? = some d)
    {parts : List String} (nonempty : parts ≠ []) (absent : ∀ part ∈ parts, d ∉ part.toList) :
    pieces separator (separated separator parts) = parts := by
  have strict := ForwardStringSearcher.strictPatternModel (ne_empty_of_first first)
  have lawful := ForwardStringSearcher.lawfulToForwardSearcherModel (ne_empty_of_first first)
  have here := (separated separator parts).toSlice.splits_startPos
  rw [String.copy_toSlice] at here
  rw [pieces, String.split_eq_split_toSlice, Slice.toList_split_eq_splitToSubslice,
    String.Slice.Pattern.toList_splitToSubslice_eq_modelSplit, List.map_map,
    ← Slice.Subslice.copy_eq, map_copy_split_from first nonempty absent here]

end QueryForge.Sql
