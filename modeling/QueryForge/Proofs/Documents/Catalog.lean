import QueryForge.ErrorRegistry
import QueryForge.Literal
import QueryForge.Proofs.ErrorRegistry
import QueryForge.Proofs.Json.Bounds
import QueryForge.Proofs.Json.Decoders
import QueryForge.Proofs.Numbers

/-!
# The catalog, literals and error registries as documents

Every document stands for its value, and the decoders stay within their levels.
-/

namespace QueryForge

open Json

variable {o : Origin} {n : Nat}

namespace ColumnType

theorem stands (t : ColumnType) : Stands replay o n t.dump t :=
  .oneOf (fun t => by cases t <;> rfl) t

theorem bounded : Bounded replay dump := .leaf fun _ => rfl

end ColumnType

namespace Column

theorem stands (c : Column) : Stands replay o n c.dump c := by
  have type := c.type.stands (o := o) (n := n)
  refine .of_succ (.record
    [.string c.name, c.type.dump, .boolean c.nullable, .boolean c.identity]
    (by decide) rfl ⟨.string _, type.writable, .boolean _, .boolean _⟩ ?_)
  rintro m below ⟨-, deep, -, -⟩
  simp [Fields.required, Decoder.string, Decoder.boolean, type.reads m below deep]

theorem bounded : Bounded replay dump := by
  refine .record fun fs c read => ?_
  split at read
  · simp only [Option.bind_eq_bind, Option.bind_eq_some_iff, Option.some.injEq] at read
    obtain ⟨name, -, type, -, nullable, -, identity, -, rfl⟩ := read
    simp [dump, ColumnType.dump]
  · cases read

end Column

namespace Index

theorem stands (i : Index) : Stands replay o n i.dump i := by
  have columns := stands_ofStrings (o := o) (n := n) i.columns
  refine .of_succ (.record
    [.string i.name, ofStrings i.columns, .boolean i.unique]
    (by decide) rfl ⟨.string _, columns.writable, .boolean _⟩ ?_)
  rintro m below ⟨-, deep, -⟩
  simp [Fields.required, Decoder.string, Decoder.boolean, columns.reads m below deep]

theorem bounded : Bounded replay dump := by
  refine .record fun fs i read => ?_
  split at read
  · simp only [Option.bind_eq_bind, Option.bind_eq_some_iff, Option.some.injEq] at read
    obtain ⟨name, -, columns, found, unique, -, rfl⟩ := read
    simp [dump, bounded_ofStrings.required found]
  · cases read

end Index

namespace Table

theorem stands (t : Table) : Stands replay o n t.dump t := by
  have columns : Stands _ o n _ t.columns := .list fun c _ => c.stands
  have indexes : Stands _ o n _ t.indexes := .list fun i _ => i.stands
  refine .of_succ (.record
    [.string t.name, .array (t.columns.map Column.dump),
      .array (t.indexes.map Index.dump)]
    (by decide) rfl ⟨.string _, columns.writable, indexes.writable⟩ ?_)
  rintro m below ⟨-, deep, deep'⟩
  simp [Fields.required, Decoder.string, columns.reads m below deep, indexes.reads m below deep']

theorem bounded : Bounded replay dump := by
  refine .record fun fs t read => ?_
  split at read
  · simp only [Option.bind_eq_bind, Option.bind_eq_some_iff, Option.some.injEq] at read
    obtain ⟨name, -, columns, found, indexes, found', rfl⟩ := read
    simp [dump, Column.bounded.list.required found, Index.bounded.list.required found']
  · cases read

end Table

namespace Schema

theorem stands (s : Schema) : Stands replay o n s.dump s := by
  have tables : Stands _ o n _ s.tables := .list fun t _ => t.stands
  refine .of_succ (.record [.array (s.tables.map Table.dump)]
    (by decide) rfl tables.writable ?_)
  intro m below deep
  simp [Fields.required, tables.reads m below deep]

theorem bounded : Bounded replay dump := by
  refine .record fun fs s read => ?_
  split at read
  · simp only [Option.bind_eq_bind, Option.bind_eq_some_iff, Option.some.injEq] at read
    obtain ⟨tables, found, rfl⟩ := read
    simp [dump, Table.bounded.list.required found]
  · cases read

end Schema

namespace ErrorRegistry

/-- Registering the entries of a registry anew yields the same registry. -/
theorem ofList_entries (r : ErrorRegistry) : ofList r.entries = r := by
  have same : (ofList r.entries).entries = r.entries :=
    (entries_addAll empty r.entries).trans (eraseDups_of_nodup r.nodup)
  obtain ⟨entries, nodup⟩ := r
  exact (ErrorRegistry.mk.injEq ..).mpr same

theorem stands (r : ErrorRegistry) : Stands replay o n r.dump r := by
  have errors := stands_ofStrings (o := o) (n := n) r.entries
  refine .of_succ (.record [ofStrings r.entries] (by decide) rfl errors.writable ?_)
  intro m below deep
  simp [Fields.required, errors.reads m below deep, ofList_entries]

theorem bounded : Bounded replay dump := by
  refine .record fun fs r read => ?_
  split at read
  · simp only [Option.bind_eq_bind, Option.bind_eq_some_iff, Option.some.injEq] at read
    obtain ⟨errors, found, rfl⟩ := read
    -- However many entries collapse, a list of strings is one level deep.
    have level := bounded_ofStrings.required found
    rw [depth_ofStrings] at level
    simp [dump, depth_ofStrings, level]
  · cases read

end ErrorRegistry

namespace Literal

theorem stands {v : Literal} (finite : v.IsFinite) :
    Stands replay o (n + 1) v.dump v := by
  cases v with
  | null => exact .bare (fun _ _ => rfl)
  | integer value => exact .single (fun _ _ => rfl) (stands_signed64 value)
  | boolean value => exact .single (fun _ _ => rfl) (stands_boolean value)
  | text value => exact .single (fun _ _ => rfl) (stands_string value)
  | number value =>
    exact .single (fun _ _ => rfl) (stands_double (finite value List.mem_cons_self))
  | typed literal type =>
    have ty := type.stands (o := o) (n := n)
    refine .fields ["literal", "ty"] [.string literal, type.dump]
      (fun _ _ => rfl) (by decide) rfl ⟨.string _, ty.writable⟩ ?_
    rintro m below ⟨-, deep⟩
    simp [Fields.required, Decoder.string, ty.reads m below deep]

theorem decoded_finite : Yields replay IsFinite := by
  refine .variant fun v a read => ?_
  split at read
  case h_1 =>
    obtain rfl := Variant.eq_of_bare read
    exact fun x hx => nomatch hx
  case h_2 | h_3 | h_4 =>
    obtain ⟨value, -, rfl⟩ := Option.map_eq_some_iff.1 read
    exact fun x hx => nomatch hx
  case h_5 =>
    obtain ⟨x, found, rfl⟩ := Option.map_eq_some_iff.1 read
    exact List.forall_mem_singleton.2 (decoded_double.single found)
  case h_6 =>
    obtain ⟨fs, -, read⟩ := Option.bind_eq_some_iff.1 read
    split at read
    · simp only [Option.bind_eq_bind, Option.bind_eq_some_iff, Option.some.injEq] at read
      obtain ⟨literal, -, type, -, rfl⟩ := read
      exact fun x hx => nomatch hx
    · cases read
  case h_7 => cases read

theorem bounded : Bounded replay dump := by
  refine .variant fun v a read => ?_
  split at read
  case h_1 => exact Variant.depth_le_of_bare rfl read
  case h_2 => exact Bounded.single (.leaf fun _ => rfl) (fun _ => rfl) read
  case h_3 => exact Bounded.single (.leaf fun _ => rfl) (fun _ => rfl) read
  case h_4 => exact Bounded.single (.leaf fun _ => rfl) (fun _ => rfl) read
  case h_5 => exact Bounded.single (.leaf depth_ofDouble) (fun _ => rfl) read
  case h_6 =>
    refine Variant.depth_le_of_fields (fun fs a read => ?_) read
    split at read
    · simp only [Option.bind_eq_bind, Option.bind_eq_some_iff, Option.some.injEq] at read
      obtain ⟨literal, -, type, -, rfl⟩ := read
      simp [dump, ColumnType.dump]
    · cases read
  case h_7 => cases read

end Literal
end QueryForge
