import QueryForge.Proofs.Documents.Expr
import QueryForge.Proofs.Select.NamedWindows
import QueryForge.Proofs.Select.Nesting
import QueryForge.Select.Dump

/-!
# SELECT statements as documents

A statement's document stands for the statement if its windows are held in the order in which
they were registered: text always holds them so, a request value only if their names are in order.
-/

namespace QueryForge

open Json

variable {Q : Type} {f : Q → Json} {d : Decoder Q} {P : Q → Prop} {o : Json.Origin} {n : Nat}

theorem LockingClause.stands (c : LockingClause) : Stands replay o n c.dump c :=
  .oneOf (fun c => by cases c <;> rfl) c

theorem SetOperator.stands (p : SetOperator) : Stands replay o n p.dump p :=
  .oneOf (fun p => by cases p <;> rfl) p

theorem JoinKind.stands (k : JoinKind) : Stands replay o n k.dump k :=
  .oneOf (fun k => by cases k <;> rfl) k

namespace SelectModifier

theorem stands {m : SelectModifier} (finite : ∀ e, m.distinctOn = some e → e.IsFinite) :
    Stands replay o n m.dump m := by
  refine .of_succ ?_
  cases m with
  | all => exact .bare fun _ _ => rfl
  | distinct on =>
    have key : ∀ e, on = some e → Stands _ o n e.dump e := fun e he => Expr.stands (finite e he)
    refine .fields ["on"] [ofOption Expr.dump on] (fun _ _ => rfl)
      (by decide) rfl (writable_ofOption key) ?_
    intro m below deep
    simp [Fields.optional, Stands.nullable key below deep]
  | locked clause => exact .single (fun _ _ => rfl) clause.stands

theorem decoded_finite : Yields replay fun m => ∀ e, m.distinctOn = some e → e.IsFinite := by
  refine .variant fun v m read => ?_
  split at read
  case h_1 =>
    obtain rfl := Variant.eq_of_bare read
    exact nofun
  case h_2 =>
    obtain ⟨fs, -, read⟩ := Option.bind_eq_some_iff.1 read
    split at read
    · obtain ⟨on, found, rfl⟩ := Option.map_eq_some_iff.1 read
      exact Expr.decoded_finite.optional found
    · cases read
  case h_3 =>
    obtain ⟨clause, -, rfl⟩ := Option.map_eq_some_iff.1 read
    exact nofun
  case h_4 => cases read

theorem bounded : Bounded replay dump := by
  refine .variant fun v m read => ?_
  split at read
  case h_1 => exact Variant.depth_le_of_bare rfl read
  case h_2 =>
    refine Variant.depth_le_of_fields (fun fs m read => ?_) read
    split at read
    · obtain ⟨on, found, rfl⟩ := Option.map_eq_some_iff.1 read
      simp [dump, Expr.bounded.optional found]
    · cases read
  case h_3 => exact Bounded.single (.leaf fun _ => rfl) (fun _ => rfl) read
  case h_4 => cases read

end SelectModifier

namespace ResultColumn

theorem stands {c : ResultColumn} (finite : ∀ e ∈ c.operands, e.IsFinite) :
    Stands replay o n c.dump c := by
  refine .of_succ ?_
  cases c with
  | expr value asName =>
    have content := Expr.stands (o := o) (n := n) (finite value List.mem_cons_self)
    have label : ∀ s, asName = some s → Stands _ o n (.string s) s := fun s _ => stands_string s
    refine .tuple [value.dump, ofOption .string asName] (fun _ _ => rfl)
      ⟨content.writable, writable_ofOption label⟩ ?_
    rintro m below ⟨deep, deep'⟩
    simp [Fields.required, Fields.optional, content.reads m below deep,
      Stands.nullable label below deep']
  | star => exact .bare fun _ _ => rfl

theorem decoded_finite : Yields replay fun c => ∀ e ∈ c.operands, e.IsFinite := by
  refine .variant fun v c read => ?_
  split at read
  case h_1 =>
    obtain ⟨fs, -, read⟩ := Option.bind_eq_some_iff.1 read
    split at read
    · simp only [Option.bind_eq_bind, Option.bind_eq_some_iff, Option.some.injEq] at read
      obtain ⟨value, found, asName, -, rfl⟩ := read
      exact List.forall_mem_singleton.2 (Expr.decoded_finite.required found)
    · cases read
  case h_2 =>
    obtain rfl := Variant.eq_of_bare read
    exact nofun
  case h_3 => cases read

theorem bounded : Bounded replay dump := by
  refine .variant fun v c read => ?_
  split at read
  case h_1 =>
    refine Variant.depth_le_of_tuple (fun fs c read => ?_) read
    split at read
    · simp only [Option.bind_eq_bind, Option.bind_eq_some_iff, Option.some.injEq] at read
      obtain ⟨value, found, asName, found', rfl⟩ := read
      have label := Bounded.optional (f := .string) (.leaf fun _ => rfl) found'
      simp [dump, Expr.bounded.required found, label]
    · cases read
  case h_2 => exact Variant.depth_le_of_bare rfl read
  case h_3 => cases read

end ResultColumn

namespace NamedWindows

theorem stands {w : NamedWindows} (kept : o.Keeps w.names)
    (finite : ∀ entry ∈ w.entries, ∀ e ∈ entry.2.operands, e.IsFinite) :
    Stands replay o n w.dump w := by
  have windows : Stands (Decoder.entries (WindowDefinition.replay Expr.replay)) o n w.dump
      w.entries :=
    .entries (f := fun definition => (definition.map Expr.dump).dump) kept w.nodup fun entry he =>
      WindowDefinition.stands fun e mem => Expr.stands (finite entry he e mem)
  refine ⟨windows.present, windows.writable, fun l below deep => ?_⟩
  rw [replay, windows.reads l below deep, Option.map_some, putAll_entries]

theorem decoded_finite :
    Yields replay fun w => ∀ entry ∈ w.entries, ∀ e ∈ entry.2.operands, e.IsFinite := by
  intro r j w read
  obtain ⟨entries, found, rfl⟩ := Option.map_eq_some_iff.1 read
  intro entry he
  have listed := (mem_putAll he).resolve_left List.not_mem_nil
  exact (WindowDefinition.decoded_operands Expr.decoded_finite).entries r j entries found entry
    listed

/-- A repeated name gives up its definition, so nothing is written that was not read. -/
theorem bounded : Bounded replay dump := by
  intro r j w read
  obtain ⟨entries, found, rfl⟩ := Option.map_eq_some_iff.1 read
  refine Nat.le_trans (depth_object_mono ?_)
    ((WindowDefinition.bounded Expr.bounded).entries r j entries found)
  refine List.map_subset _ fun e he => ?_
  exact (mem_putAll he).resolve_left List.not_mem_nil

end NamedWindows

namespace FromItem

theorem stands {i : FromItem Q} (nested : ∀ q ∈ i.nested, Stands d o n (f q) q) :
    Stands (replay d) o n (i.map f).dump i := by
  refine .of_succ ?_
  cases i with
  | table name only asName =>
    have label : ∀ s, asName = some s → Stands _ o n (.string s) s := fun s _ => stands_string s
    refine .fields ["name", "only", "alias"]
      [.string name, .boolean only, ofOption .string asName] (fun _ _ => rfl)
      (by decide) rfl ⟨.string _, .boolean _, writable_ofOption label⟩ ?_
    rintro m below ⟨-, -, deep⟩
    simp [Fields.required, Fields.optional, Decoder.string, Decoder.boolean,
      Stands.nullable label below deep]
  | subquery query asName =>
    have inner := nested query List.mem_cons_self
    refine .fields ["select", "alias"] [f query, .string asName]
      (fun _ _ => rfl) (by decide) rfl ⟨inner.writable, .string _⟩ ?_
    rintro m below ⟨deep, -⟩
    simp [Fields.required, Decoder.string, inner.reads m below deep]

theorem decoded_nested (nested : Yields d P) : Yields (replay d) fun i => ∀ q ∈ i.nested, P q := by
  refine .variant fun v i read => ?_
  split at read
  case h_1 =>
    obtain ⟨fs, -, read⟩ := Option.bind_eq_some_iff.1 read
    split at read
    · simp only [Option.bind_eq_bind, Option.bind_eq_some_iff, Option.some.injEq] at read
      obtain ⟨name, -, only, -, asName, -, rfl⟩ := read
      exact nofun
    · cases read
  case h_2 =>
    obtain ⟨fs, -, read⟩ := Option.bind_eq_some_iff.1 read
    split at read
    · simp only [Option.bind_eq_bind, Option.bind_eq_some_iff, Option.some.injEq] at read
      obtain ⟨query, found, asName, -, rfl⟩ := read
      exact List.forall_mem_singleton.2 (nested.required found)
    · cases read
  case h_3 => cases read

theorem bounded (nested : Bounded d f) : Bounded (replay d) fun i => (i.map f).dump := by
  let document : FromItem Q → Json := fun i => (i.map f).dump
  refine .variant (f := document) fun v i read => ?_
  split at read
  case h_1 =>
    refine Variant.depth_le_of_fields (fun fs i read => ?_) read
    split at read
    · simp only [Option.bind_eq_bind, Option.bind_eq_some_iff, Option.some.injEq] at read
      obtain ⟨name, -, only, -, asName, found, rfl⟩ := read
      have label := Bounded.optional (f := .string) (.leaf fun _ => rfl) found
      simp [document, map, dump, label]
    · cases read
  case h_2 =>
    refine Variant.depth_le_of_fields (fun fs i read => ?_) read
    split at read
    · simp only [Option.bind_eq_bind, Option.bind_eq_some_iff, Option.some.injEq] at read
      obtain ⟨query, found, asName, -, rfl⟩ := read
      simp [document, map, dump, nested.required found]
    · cases read
  case h_3 => cases read

end FromItem

namespace Join

theorem stands {j : Join Q} (finite : ∀ e, j.on = some e → e.IsFinite)
    (nested : ∀ q ∈ j.item.nested, Stands d o n (f q) q) :
    Stands (replay d) o n (j.map f).dump j := by
  have kind := j.kind.stands (o := o) (n := n)
  have item := FromItem.stands nested
  have on : ∀ e, j.on = some e → Stands _ o n e.dump e := fun e he => Expr.stands (finite e he)
  refine .of_succ (.record [j.kind.dump, (j.item.map f).dump, ofOption Expr.dump j.on]
    (by decide) rfl ⟨kind.writable, item.writable, writable_ofOption on⟩ ?_)
  rintro m below ⟨deepKind, deepItem, deepOn⟩
  simp [Fields.required, Fields.optional, kind.reads m below deepKind,
    item.reads m below deepItem, Stands.nullable on below deepOn]

theorem decoded_parts (nested : Yields d P) : Yields (replay d) fun j =>
    (∀ e, j.on = some e → e.IsFinite) ∧ ∀ q ∈ j.item.nested, P q := by
  refine .record fun fs j read => ?_
  split at read
  · simp only [Option.bind_eq_bind, Option.bind_eq_some_iff, Option.some.injEq] at read
    obtain ⟨kind, -, item, foundItem, on, foundOn, rfl⟩ := read
    exact ⟨Expr.decoded_finite.optional foundOn,
      (FromItem.decoded_nested nested).required foundItem⟩
  · cases read

theorem bounded (nested : Bounded d f) : Bounded (replay d) fun j => (j.map f).dump := by
  refine .record fun fs j read => ?_
  split at read
  · simp only [Option.bind_eq_bind, Option.bind_eq_some_iff, Option.some.injEq] at read
    obtain ⟨kind, -, item, foundItem, on, foundOn, rfl⟩ := read
    have inner := (FromItem.bounded nested).required foundItem
    simp [dump, map, JoinKind.dump, inner, Expr.bounded.optional foundOn]
  · cases read

end Join

namespace Cte

theorem stands {c : Cte Q} (query : Stands d o n (f c.query) c.query) :
    Stands (replay d) o n (c.map f).dump c := by
  have aliases := stands_ofStrings (o := o) (n := n) c.columnAliases
  have columns : Stands _ o n _ c.columns := .list fun column _ => column.stands
  refine .of_succ (.record
    [.string c.name, ofStrings c.columnAliases, f c.query,
      .array (c.columns.map Column.dump)]
    (by decide) rfl ⟨.string _, aliases.writable, query.writable, columns.writable⟩ ?_)
  rintro m below ⟨-, deepAliases, deepQuery, deepColumns⟩
  simp [Fields.required, Decoder.string, aliases.reads m below deepAliases,
    query.reads m below deepQuery, columns.reads m below deepColumns]

theorem decoded_query (nested : Yields d P) : Yields (replay d) fun c => P c.query := by
  refine .record fun fs c read => ?_
  split at read
  · simp only [Option.bind_eq_bind, Option.bind_eq_some_iff, Option.some.injEq] at read
    obtain ⟨name, -, aliases, -, query, found, columns, -, rfl⟩ := read
    exact nested.required found
  · cases read

theorem bounded (nested : Bounded d f) : Bounded (replay d) fun c => (c.map f).dump := by
  refine .record fun fs c read => ?_
  split at read
  · simp only [Option.bind_eq_bind, Option.bind_eq_some_iff, Option.some.injEq] at read
    obtain ⟨name, -, aliases, foundAliases, query, foundQuery, columns, foundColumns, rfl⟩ := read
    simp [dump, map, bounded_ofStrings.required foundAliases, nested.required foundQuery,
      Column.bounded.list.required foundColumns]
  · cases read

end Cte

namespace WithClause

theorem dump_map (f : Q → Json) (w : WithClause Q) :
    (w.map f).dump = .object (fieldNames.zip [.array (w.ctes.map fun c => (c.map f).dump)]) := by
  simp [dump, map, fieldNames, Function.comp_def]

theorem stands {w : WithClause Q} (queries : ∀ c ∈ w.ctes, Stands d o n (f c.query) c.query) :
    Stands (replay d) o n (w.map f).dump w := by
  have ctes : Stands _ o n _ w.ctes :=
    .list (f := fun c => (c.map f).dump) fun c hc => Cte.stands (queries c hc)
  rw [dump_map]
  refine .of_succ (.record _ (by decide) rfl ctes.writable ?_)
  intro m below deep
  simp [Fields.required, ctes.reads m below deep]

theorem decoded_queries (nested : Yields d P) :
    Yields (replay d) fun w => ∀ c ∈ w.ctes, P c.query := by
  refine .record fun fs w read => ?_
  split at read
  · obtain ⟨ctes, found, rfl⟩ := Option.map_eq_some_iff.1 read
    exact (Cte.decoded_query nested).list.required found
  · cases read

theorem bounded (nested : Bounded d f) : Bounded (replay d) fun w => (w.map f).dump := by
  refine .record fun fs w read => ?_
  split at read
  · obtain ⟨ctes, found, rfl⟩ := Option.map_eq_some_iff.1 read
    simp [dump_map, fieldNames, (Cte.bounded nested).list.required found]
  · cases read

end WithClause

namespace SetOperation

theorem stands {s : SetOperation Q} (query : Stands d o n (f s.query) s.query) :
    Stands (replay d) o n (s.map f).dump s := by
  have operator := s.operator.stands (o := o) (n := n)
  refine .of_succ (.record [s.operator.dump, f s.query] (by decide) rfl
    ⟨operator.writable, query.writable⟩ ?_)
  rintro m below ⟨deepOperator, deepQuery⟩
  simp [Fields.required, operator.reads m below deepOperator, query.reads m below deepQuery]

theorem decoded_query (nested : Yields d P) : Yields (replay d) fun s => P s.query := by
  refine .record fun fs s read => ?_
  split at read
  · simp only [Option.bind_eq_bind, Option.bind_eq_some_iff, Option.some.injEq] at read
    obtain ⟨operator, -, query, found, rfl⟩ := read
    exact nested.required found
  · cases read

theorem bounded (nested : Bounded d f) : Bounded (replay d) fun s => (s.map f).dump := by
  refine .record fun fs s read => ?_
  split at read
  · simp only [Option.bind_eq_bind, Option.bind_eq_some_iff, Option.some.injEq] at read
    obtain ⟨operator, -, query, found, rfl⟩ := read
    simp [dump, map, SetOperator.dump, nested.required found]
  · cases read

end SetOperation
namespace Clauses

theorem dump_map (f : Q → Json) (c : Clauses Q) :
    (c.map f).dump = .object (fieldNames.zip [
      ofOption (fun w => (w.map f).dump) c.withClause, c.modifier.dump,
      .array (c.columns.map ResultColumn.dump),
      .array (c.windowFunctions.map fun w => (w.map Expr.dump).dump),
      .array (c.fromItems.map fun i => (i.map f).dump),
      .array (c.joins.map fun j => (j.map f).dump), ofOption Expr.dump c.filter,
      .array (c.groupBy.map Expr.dump), ofOption Expr.dump c.having,
      c.windows.dump, .array (c.orderBy.map fun t => (t.map Expr.dump).dump),
      ofOption (fun n => .integer n.toNat) c.limit, ofOption (fun n => .integer n.toNat) c.offset,
      ofOption (fun s => (s.map f).dump) c.setOperation]) := by
  obtain ⟨withClause, _, _, _, _, _, _, _, _, _, _, _, _, setOperation⟩ := c
  cases withClause <;> cases setOperation <;>
    simp [dump, map, fieldNames, ofOption, Function.comp_def]

theorem stands {c : Clauses Q} (finite : ∀ e ∈ c.expressions, e.IsFinite)
    (nested : ∀ q ∈ c.nested, Stands d o n (f q) q)
    (kept : o.Keeps c.windows.names) : Stands (replay d) o (n + 1) (c.map f).dump c := by
  obtain ⟨ofCtes, ofItems, ofJoins, ofArm⟩ := forall_nested_iff.1 nested
  obtain ⟨inColumns, inFunctions, inDistinct, inJoins, inFilter, inGroup, inHaving, inWindows,
    inOrder⟩ := forall_expressions_iff.1 finite
  have withClause : ∀ w, c.withClause = some w → Stands _ o n (w.map f).dump w := fun w hw =>
    WithClause.stands fun cte hc => ofCtes cte (mem_ctes.2 ⟨w, hw, hc⟩)
  have modifier := SelectModifier.stands (o := o) (n := n) inDistinct
  have columns : Stands _ o n _ c.columns := .list fun r hr => ResultColumn.stands (inColumns r hr)
  have functions : Stands _ o n _ c.windowFunctions :=
    .list (f := fun w => (w.map Expr.dump).dump) fun w hw =>
      WindowFunction.stands fun e he => Expr.stands (inFunctions w hw e he)
  have items : Stands _ o n _ c.fromItems :=
    .list (f := fun i => (i.map f).dump) fun i hi => FromItem.stands (ofItems i hi)
  have joins : Stands _ o n _ c.joins :=
    .list (f := fun j => (j.map f).dump) fun j hj =>
      Join.stands (inJoins j hj) (ofJoins j hj)
  have filter : ∀ e, c.filter = some e → Stands _ o n e.dump e := fun e he =>
    Expr.stands (inFilter e he)
  have groupBy : Stands _ o n _ c.groupBy := .list fun e he => Expr.stands (inGroup e he)
  have having : ∀ e, c.having = some e → Stands _ o n e.dump e := fun e he =>
    Expr.stands (inHaving e he)
  have windows := NamedWindows.stands (n := n) kept inWindows
  have orderBy : Stands _ o n _ c.orderBy :=
    .list (f := fun t => (t.map Expr.dump).dump) fun t ht =>
      OrderTerm.stands (Expr.stands (inOrder t ht))
  have limit : ∀ v, c.limit = some v → Stands _ o n (.integer v.toNat) v :=
    fun v _ => stands_unsigned64 v
  have offset : ∀ v, c.offset = some v → Stands _ o n (.integer v.toNat) v :=
    fun v _ => stands_unsigned64 v
  have arm : ∀ s, c.setOperation = some s → Stands _ o n (s.map f).dump s := fun s hs =>
    SetOperation.stands (ofArm s hs)
  rw [dump_map]
  refine .record _ (by decide) rfl ⟨writable_ofOption withClause, modifier.writable,
    columns.writable, functions.writable, items.writable, joins.writable,
    writable_ofOption filter, groupBy.writable, writable_ofOption having, windows.writable,
    orderBy.writable, writable_ofOption limit, writable_ofOption offset,
    writable_ofOption arm⟩ ?_
  rintro m below ⟨deepWith, deepModifier, deepColumns, deepFunctions, deepItems, deepJoins,
    deepFilter, deepGroup, deepHaving, deepWindows, deepOrder, deepLimit, deepOffset, deepArm⟩
  simp [Fields.required, Fields.optional, Stands.nullable withClause below deepWith,
    modifier.reads m below deepModifier, columns.reads m below deepColumns,
    functions.reads m below deepFunctions, items.reads m below deepItems,
    joins.reads m below deepJoins, Stands.nullable filter below deepFilter,
    groupBy.reads m below deepGroup, Stands.nullable having below deepHaving,
    windows.reads m below deepWindows, orderBy.reads m below deepOrder,
    Stands.nullable limit below deepLimit, Stands.nullable offset below deepOffset,
    Stands.nullable arm below deepArm]

theorem decoded_parts (nested : Yields d P) : Yields (replay d) fun c =>
    (∀ e ∈ c.expressions, e.IsFinite) ∧ ∀ q ∈ c.nested, P q := by
  refine .record fun fs c read => ?_
  split at read
  · obtain ⟨withClause, foundWith, read⟩ := Option.bind_eq_some_iff.1 read
    obtain ⟨modifier, foundModifier, read⟩ := Option.bind_eq_some_iff.1 read
    obtain ⟨columns, foundColumns, read⟩ := Option.bind_eq_some_iff.1 read
    obtain ⟨functions, foundFunctions, read⟩ := Option.bind_eq_some_iff.1 read
    obtain ⟨items, foundItems, read⟩ := Option.bind_eq_some_iff.1 read
    obtain ⟨joins, foundJoins, read⟩ := Option.bind_eq_some_iff.1 read
    obtain ⟨filter, foundFilter, read⟩ := Option.bind_eq_some_iff.1 read
    obtain ⟨groupBy, foundGroup, read⟩ := Option.bind_eq_some_iff.1 read
    obtain ⟨having, foundHaving, read⟩ := Option.bind_eq_some_iff.1 read
    obtain ⟨windows, foundWindows, read⟩ := Option.bind_eq_some_iff.1 read
    obtain ⟨orderBy, foundOrder, read⟩ := Option.bind_eq_some_iff.1 read
    obtain ⟨limit, -, read⟩ := Option.bind_eq_some_iff.1 read
    obtain ⟨offset, -, read⟩ := Option.bind_eq_some_iff.1 read
    obtain ⟨arm, foundArm, read⟩ := Option.bind_eq_some_iff.1 read
    obtain rfl := Option.some.inj read
    have joined := (Join.decoded_parts nested).list.required foundJoins
    have members := (WithClause.decoded_queries nested).optional foundWith
    refine ⟨forall_mem_expressions ?_ ?_ ?_ ?_ ?_ ?_ ?_ ?_ ?_, forall_nested_iff.2 ⟨?_, ?_, ?_, ?_⟩⟩
    · exact ResultColumn.decoded_finite.list.required foundColumns
    · exact (WindowFunction.decoded_operands Expr.decoded_finite).list.required foundFunctions
    · exact SelectModifier.decoded_finite.required foundModifier
    · exact fun j hj => (joined j hj).1
    · exact Expr.decoded_finite.optional foundFilter
    · exact Expr.decoded_finite.list.required foundGroup
    · exact Expr.decoded_finite.optional foundHaving
    · exact NamedWindows.decoded_finite.required foundWindows
    · exact (OrderTerm.decoded_expr Expr.decoded_finite).list.required foundOrder
    · intro cte hc
      obtain ⟨w, held, mem⟩ := mem_ctes.1 hc
      exact members w held cte mem
    · exact (FromItem.decoded_nested nested).list.required foundItems
    · exact fun j hj => (joined j hj).2
    · exact (SetOperation.decoded_query nested).optional foundArm
  · cases read

theorem bounded (nested : Bounded d f) : Bounded (replay d) fun c => (c.map f).dump := by
  refine .record fun fs c read => ?_
  split at read
  · -- field by field: one `simp` over all the binds visits their bodies once for every field
    obtain ⟨withClause, foundWith, read⟩ := Option.bind_eq_some_iff.1 read
    obtain ⟨modifier, foundModifier, read⟩ := Option.bind_eq_some_iff.1 read
    obtain ⟨columns, foundColumns, read⟩ := Option.bind_eq_some_iff.1 read
    obtain ⟨functions, foundFunctions, read⟩ := Option.bind_eq_some_iff.1 read
    obtain ⟨items, foundItems, read⟩ := Option.bind_eq_some_iff.1 read
    obtain ⟨joins, foundJoins, read⟩ := Option.bind_eq_some_iff.1 read
    obtain ⟨filter, foundFilter, read⟩ := Option.bind_eq_some_iff.1 read
    obtain ⟨groupBy, foundGroup, read⟩ := Option.bind_eq_some_iff.1 read
    obtain ⟨having, foundHaving, read⟩ := Option.bind_eq_some_iff.1 read
    obtain ⟨windows, foundWindows, read⟩ := Option.bind_eq_some_iff.1 read
    obtain ⟨orderBy, foundOrder, read⟩ := Option.bind_eq_some_iff.1 read
    obtain ⟨limit, foundLimit, read⟩ := Option.bind_eq_some_iff.1 read
    obtain ⟨offset, foundOffset, read⟩ := Option.bind_eq_some_iff.1 read
    obtain ⟨arm, foundArm, read⟩ := Option.bind_eq_some_iff.1 read
    obtain rfl := Option.some.inj read
    have limit := Bounded.optional (f := fun n : UInt64 => .integer n.toNat) (.leaf fun _ => rfl)
      foundLimit
    have offset := Bounded.optional (f := fun n : UInt64 => .integer n.toNat) (.leaf fun _ => rfl)
      foundOffset
    simp [dump_map, fieldNames, (WithClause.bounded nested).optional foundWith,
      SelectModifier.bounded.required foundModifier,
      ResultColumn.bounded.list.required foundColumns,
      (WindowFunction.bounded Expr.bounded).list.required foundFunctions,
      (FromItem.bounded nested).list.required foundItems,
      (Join.bounded nested).list.required foundJoins, Expr.bounded.optional foundFilter,
      Expr.bounded.list.required foundGroup, Expr.bounded.optional foundHaving,
      NamedWindows.bounded.required foundWindows,
      (OrderTerm.bounded Expr.bounded).list.required foundOrder, limit, offset,
      (SetOperation.bounded nested).optional foundArm]
  · cases read

end Clauses

namespace Select

theorem dump_node (c : Clauses Select) : (node c).dump = (c.map dump).dump := fold_node ..

theorem dump_eq (s : Select) : s.dump = (s.clauses.map dump).dump := by
  cases s
  exact dump_node _

/-- Every statement inside keeps its windows in order. -/
def KeepsWindows (o : Json.Origin) (s : Select) : Prop :=
  ∀ t, s.Contains t → o.Keeps t.clauses.windows.names

theorem keepsWindows_text (s : Select) : s.KeepsWindows .text := fun _ _ => trivial

theorem stands_nested {s : Select} (finite : s.IsFinite) (kept : s.KeepsWindows o) (n : Nat) :
    Stands (replayNested n) o n s.dump s := by
  induction s using Select.induction generalizing n with
  | step c ih =>
    obtain ⟨own, parts⟩ := isFinite_node.1 finite
    obtain ⟨here, inside⟩ := forall_contains_node.1 kept
    cases n with
    | zero =>
      have stands := Clauses.stands own (fun q hq => ih q hq (parts q hq) (inside q hq) 0) here
      rw [dump_node]
      refine ⟨stands.present, stands.writable, fun l below deep => ?_⟩
      rw [Clauses.dump_map] at deep
      obtain ⟨m, rfl, _⟩ := exists_levels_of_zip (by decide) rfl deep
      omega
    | succ n =>
      have stands := Clauses.stands own (fun q hq => ih q hq (parts q hq) (inside q hq) n) here
      rw [dump_node]
      refine ⟨stands.present, stands.writable, fun l below deep => ?_⟩
      exact congrArg (Option.map node) (stands.reads l below deep)

theorem stands {s : Select} (finite : s.IsFinite) (kept : s.KeepsWindows o) :
    Stands replay o n s.dump s where
  present := (stands_nested finite kept n).present
  writable := (stands_nested finite kept n).writable
  reads := fun l _ deep => (stands_nested finite kept l).reads l (Nat.le_refl l) deep

theorem decoded_finite_nested (n : Nat) : Yields (replayNested n) IsFinite := by
  induction n with
  | zero => exact fun r j s read => by cases read
  | succ n ih =>
    intro r j s read
    obtain ⟨c, found, rfl⟩ := Option.map_eq_some_iff.1 read
    exact isFinite_node.2 (Clauses.decoded_parts ih r j c found)

/-- Whatever is decoded has finite numbers only. -/
theorem decoded_finite : Yields replay IsFinite := fun r => decoded_finite_nested r.levels r

theorem bounded_nested (n : Nat) : Bounded (replayNested n) dump := by
  induction n with
  | zero => exact fun r j s read => by cases read
  | succ n ih =>
    intro r j s read
    obtain ⟨c, found, rfl⟩ := Option.map_eq_some_iff.1 read
    rw [dump_node]
    exact Clauses.bounded ih r j c found

theorem bounded : Bounded replay dump := fun r => bounded_nested r.levels r

end Select
end QueryForge
