import QueryForge.AlterTable.Dump
import QueryForge.Proofs.Documents.Catalog

/-!
# ALTER TABLE statements as documents

Every document stands for its value, and the decoders stay within their levels.
-/

namespace QueryForge

open Json

variable {o : Origin} {n : Nat}

theorem DropBehavior.stands (b : DropBehavior) : Stands replay o n b.dump b :=
  .oneOf (fun b => by cases b <;> rfl) b

theorem StorageMode.stands (m : StorageMode) : Stands replay o n m.dump m :=
  .oneOf (fun m => by cases m <;> rfl) m

theorem ConstraintKind.stands (k : ConstraintKind) : Stands replay o n k.dump k :=
  .oneOf (fun k => by cases k <;> rfl) k

theorem RowSecurity.stands (s : RowSecurity) : Stands replay o n s.dump s :=
  .oneOf (fun s => by cases s <;> rfl) s

theorem OwnerRole.stands (r : OwnerRole) : Stands replay o n r.dump r :=
  .oneOf (fun r => by cases r <;> rfl) r

theorem ReplicaIdentity.stands (i : ReplicaIdentity) : Stands replay o n i.dump i :=
  .oneOf (fun i => by cases i <;> rfl) i

namespace AlterAction

theorem stands_named {k : Variant → Option AlterAction} {variant field : String}
    {wrap : String → AlterAction} (choose : ∀ content inner,
      k ⟨variant, content, inner⟩ = (replayName ⟨variant, content, inner⟩ field).map wrap)
    (name : String) :
    Stands (fun r j => do let v ← Variant.of? r j; k v) o (n + 1)
      (tagged variant (.object [(field, .string name)])) (wrap name) := by
  refine .tagged (.object (by simpa using Writable.string name)) fun m below deep => ?_
  obtain ⟨m, rfl, -⟩ := exists_levels_of_object (by simp) deep
  have read : Fields.ofVariant [field] ⟨o, m + 1⟩ (o.view (.object [(field, .string name)])) =
      some ⟨⟨o, m⟩, [some (o.view (.string name))]⟩ :=
    Fields.ofVariant_view (show [field].Nodup by simp)
      (show [field].length = [Json.string name].length from rfl) m
  simp [choose, replayName, Variant.fields, read, Fields.required, Decoder.string]

theorem stands {a : AlterAction} (finite : a.IsFinite) : Stands replay o n a.dump a := by
  refine .of_succ ?_
  cases a with
  | dropColumn ifExists column behavior =>
    have rule : ∀ b, behavior = some b → Stands _ o n b.dump b := fun b _ => b.stands
    refine .fields ["if_exists", "column", "behavior"]
      [.boolean ifExists, .string column, ofOption DropBehavior.dump behavior]
      (fun _ _ => rfl) (by decide) rfl ⟨.boolean _, .string _, writable_ofOption rule⟩ ?_
    rintro m below ⟨-, -, deep⟩
    simp [Fields.required, Fields.optional, Decoder.boolean, Decoder.string,
      Stands.nullable rule below deep]
  | alterColumnType column setData type =>
    have target := type.stands (o := o) (n := n)
    refine .fields ["column", "set_data", "data_type"]
      [.string column, .boolean setData, type.dump] (fun _ _ => rfl) (by decide) rfl
      ⟨.string _, .boolean _, target.writable⟩ ?_
    rintro m below ⟨-, -, deep⟩
    simp [Fields.required, Decoder.boolean, Decoder.string, target.reads m below deep]
  | columnDefault column value =>
    have default : ∀ v, value = some v → Stands _ o n (.integer v.toInt) v :=
      fun v _ => stands_signed64 v
    refine .fields ["column", "default"]
      [.string column, ofOption (fun v : Int64 => .integer v.toInt) value]
      (fun _ _ => rfl) (by decide) rfl ⟨.string _, writable_ofOption default⟩ ?_
    rintro m below ⟨-, deep⟩
    simp [Fields.required, Fields.optional, Decoder.string, Stands.nullable default below deep]
  | columnNotNull column notNull =>
    refine .fields ["column", "not_null"] [.string column, .boolean notNull]
      (fun _ _ => rfl) (by decide) rfl ⟨.string _, .boolean _⟩ ?_
    intro m _ _
    simp [Fields.required, Decoder.boolean, Decoder.string]
  | setStatistics column target =>
    have number := stands_signed32 (o := o) (n := n) target
    refine .fields ["column", "target"]
      [.string column, .integer target.toInt] (fun _ _ => rfl) (by decide) rfl
      ⟨.string _, number.writable⟩ ?_
    rintro m below ⟨-, deep⟩
    have read := number.reads m below deep
    rw [Origin.view_integer] at read
    simp [Fields.required, Decoder.string, read]
  | setAttributeOption column distinctValues =>
    have number := stands_double (o := o) (n := n) finite
    refine .fields ["column", "n_distinct"]
      [.string column, .ofDouble distinctValues] (fun _ _ => rfl) (by decide) rfl
      ⟨.string _, number.writable⟩ ?_
    rintro m below ⟨-, deep⟩
    simp [Fields.required, Decoder.string, number.reads m below deep]
  | resetAttributeOption column => exact stands_named (fun _ _ => rfl) column
  | setStorage column storage =>
    have mode := storage.stands (o := o) (n := n)
    refine .fields ["column", "storage"] [.string column, storage.dump]
      (fun _ _ => rfl) (by decide) rfl ⟨.string _, mode.writable⟩ ?_
    rintro m below ⟨-, deep⟩
    simp [Fields.required, Decoder.string, mode.reads m below deep]
  | addCheckConstraint name => exact stands_named (fun _ _ => rfl) name
  | addConstraintUsingIndex name kind index =>
    have constraint := kind.stands (o := o) (n := n)
    refine .fields ["name", "kind", "index"]
      [.string name, kind.dump, .string index] (fun _ _ => rfl) (by decide) rfl
      ⟨.string _, constraint.writable, .string _⟩ ?_
    rintro m below ⟨-, deep, -⟩
    simp [Fields.required, Decoder.string, constraint.reads m below deep]
  | validateConstraint name => exact stands_named (fun _ _ => rfl) name
  | rowSecurity setting => exact .single (fun _ _ => rfl) setting.stands
  | clusterOn index => exact stands_named (fun _ _ => rfl) index
  | setWithoutCluster => exact .bare fun _ _ => rfl
  | setWithoutOids => exact .bare fun _ _ => rfl
  | setLogged logged => exact .single (fun _ _ => rfl) (stands_boolean logged)
  | notOf => exact .bare fun _ _ => rfl
  | ownerTo role => exact .single (fun _ _ => rfl) role.stands
  | replicaIdentity identity => exact .single (fun _ _ => rfl) identity.stands
  | dropIdentity column ifExists =>
    refine .fields ["column", "if_exists"] [.string column, .boolean ifExists]
      (fun _ _ => rfl) (by decide) rfl ⟨.string _, .boolean _⟩ ?_
    intro m _ _
    simp [Fields.required, Decoder.boolean, Decoder.string]
  | restartIdentity column value =>
    have start : ∀ v, value = some v → Stands _ o n (.integer v.toInt) v :=
      fun v _ => stands_signed32 v
    refine .fields ["column", "with"]
      [.string column, ofOption (fun v : Int32 => .integer v.toInt) value]
      (fun _ _ => rfl) (by decide) rfl ⟨.string _, writable_ofOption start⟩ ?_
    rintro m below ⟨-, deep⟩
    simp [Fields.required, Fields.optional, Decoder.string, Stands.nullable start below deep]

theorem decoded_finite : Yields replay IsFinite := by
  refine .variant fun v a read => ?_
  split at read
  case h_6 =>
    obtain ⟨fs, -, read⟩ := Option.bind_eq_some_iff.1 read
    split at read
    · simp only [Option.bind_eq_bind, Option.bind_eq_some_iff, Option.some.injEq] at read
      obtain ⟨column, -, distinctValues, found, rfl⟩ := read
      exact decoded_double.required found
    · cases read
  case h_7 | h_9 | h_11 | h_12 | h_13 | h_16 | h_18 | h_19 =>
    obtain ⟨part, -, rfl⟩ := Option.map_eq_some_iff.1 read
    exact trivial
  case h_14 | h_15 | h_17 =>
    obtain rfl := Variant.eq_of_bare read
    exact trivial
  case h_1 | h_2 | h_10 =>
    obtain ⟨fs, -, read⟩ := Option.bind_eq_some_iff.1 read
    split at read
    · simp only [Option.bind_eq_bind, Option.bind_eq_some_iff, Option.some.injEq] at read
      obtain ⟨first, -, second, -, third, -, rfl⟩ := read
      exact trivial
    · cases read
  case h_3 | h_4 | h_5 | h_8 | h_20 | h_21 =>
    obtain ⟨fs, -, read⟩ := Option.bind_eq_some_iff.1 read
    split at read
    · simp only [Option.bind_eq_bind, Option.bind_eq_some_iff, Option.some.injEq] at read
      obtain ⟨first, -, second, -, rfl⟩ := read
      exact trivial
    · cases read
  case h_22 => cases read

theorem depth_le_of_replayName {v : Variant} {a : AlterAction} {variant field : String}
    {wrap : String → AlterAction}
    (written : ∀ name, (wrap name).dump = tagged variant (.object [(field, .string name)]))
    (read : (replayName v field).map wrap = some a) : a.dump.depth ≤ v.room := by
  obtain ⟨name, found, rfl⟩ := Option.map_eq_some_iff.1 read
  refine Variant.depth_le_of_fields (f := fun name => (wrap name).dump) (fun fs name _ => ?_) found
  simp [written]

/-- No action needs more than two levels, whatever it holds. -/
theorem depth_dump_le (a : AlterAction) : a.dump.depth ≤ 2 := by
  have behavior := depth_ofOption_of_leaf (f := DropBehavior.dump) fun _ => rfl
  have long := depth_ofOption_of_leaf (f := fun v : Int64 => .integer v.toInt) fun _ => rfl
  have short := depth_ofOption_of_leaf (f := fun v : Int32 => .integer v.toInt) fun _ => rfl
  cases a <;>
    simp [dump, ColumnType.dump, StorageMode.dump, ConstraintKind.dump, RowSecurity.dump,
      OwnerRole.dump, ReplicaIdentity.dump, behavior, long, short]

theorem bounded : Bounded replay dump := by
  have shallow : ∀ (fs : Fields) (a : AlterAction), a.dump.depth ≤ fs.inner.levels + 2 :=
    fun fs a => Nat.le_trans a.depth_dump_le (Nat.le_add_left 2 fs.inner.levels)
  refine .variant fun v a read => ?_
  split at read
  case h_7 | h_9 | h_11 | h_13 => exact depth_le_of_replayName (fun _ => rfl) read
  case h_12 | h_16 | h_18 | h_19 => exact Bounded.single (.leaf fun _ => rfl) (fun _ => rfl) read
  case h_14 | h_15 | h_17 => exact Variant.depth_le_of_bare rfl read
  case h_22 => cases read
  all_goals exact Variant.depth_le_of_fields (fun fs a _ => shallow fs a) read

end AlterAction

namespace AlterFragment

theorem stands {a : AlterFragment} (finite : a.action.IsFinite) : Stands replay o n a.dump a := by
  have action := AlterAction.stands (o := o) (n := n) finite
  refine .of_succ (.record [.string a.table, .boolean a.only, a.action.dump]
    (by decide) rfl ⟨.string _, .boolean _, action.writable⟩ ?_)
  rintro m below ⟨-, -, deep⟩
  simp [Fields.required, Decoder.string, Decoder.boolean, action.reads m below deep]

theorem decoded_finite : Yields replay fun f => f.action.IsFinite := by
  refine .record fun fs a read => ?_
  split at read
  · simp only [Option.bind_eq_bind, Option.bind_eq_some_iff, Option.some.injEq] at read
    obtain ⟨table, -, only, -, action, found, rfl⟩ := read
    exact AlterAction.decoded_finite.required found
  · cases read

theorem bounded : Bounded replay dump := by
  refine .record fun fs a read => ?_
  split at read
  · simp only [Option.bind_eq_bind, Option.bind_eq_some_iff, Option.some.injEq] at read
    obtain ⟨table, -, only, -, action, found, rfl⟩ := read
    simp [dump, AlterAction.bounded.required found]
  · cases read

end AlterFragment

namespace AlterTable

theorem stands {a : AlterTable} (finite : a.IsFinite) : Stands replay o n a.dump a := by
  have fragments : Stands _ o n _ a.fragments :=
    .list fun f hf => AlterFragment.stands (finite f hf)
  refine .of_succ (.record [.array (a.fragments.map AlterFragment.dump)]
    (by decide) rfl fragments.writable ?_)
  intro m below deep
  simp [Fields.required, fragments.reads m below deep]

theorem decoded_finite : Yields replay IsFinite := by
  refine .record fun fs a read => ?_
  split at read
  · obtain ⟨fragments, found, rfl⟩ := Option.map_eq_some_iff.1 read
    exact AlterFragment.decoded_finite.list.required found
  · cases read

theorem bounded : Bounded replay dump := by
  refine .record fun fs a read => ?_
  split at read
  · obtain ⟨fragments, found, rfl⟩ := Option.map_eq_some_iff.1 read
    simp [dump, AlterFragment.bounded.list.required found]
  · cases read

end AlterTable

namespace AlterTableQuery

theorem stands {q : AlterTableQuery} (finite : q.alterTable.IsFinite) :
    Stands replay o n q.dump q := by
  have alterTable := AlterTable.stands (o := o) (n := n) finite
  have errors := q.expectedErrors.stands (o := o) (n := n)
  refine .of_succ (.record [q.alterTable.dump, q.expectedErrors.dump]
    (by decide) rfl ⟨alterTable.writable, errors.writable⟩ ?_)
  rintro m below ⟨deep, deep'⟩
  simp [Fields.required, alterTable.reads m below deep, errors.reads m below deep']

theorem decoded_finite : Yields replay fun q => q.alterTable.IsFinite := by
  refine .record fun fs q read => ?_
  split at read
  · simp only [Option.bind_eq_bind, Option.bind_eq_some_iff, Option.some.injEq] at read
    obtain ⟨alterTable, found, errors, -, rfl⟩ := read
    exact AlterTable.decoded_finite.required found
  · cases read

theorem bounded : Bounded replay dump := by
  refine .record fun fs q read => ?_
  split at read
  · simp only [Option.bind_eq_bind, Option.bind_eq_some_iff, Option.some.injEq] at read
    obtain ⟨alterTable, found, errors, found', rfl⟩ := read
    simp [dump, AlterTable.bounded.required found, ErrorRegistry.bounded.required found']
  · cases read

end AlterTableQuery
end QueryForge
