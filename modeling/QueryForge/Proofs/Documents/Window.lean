import QueryForge.Proofs.Json.Bounds
import QueryForge.Proofs.Json.Decoders
import QueryForge.Window.Dump

/-!
# Windows as documents

A window's document stands for the window if the documents of its operands stand for the
operands.
-/

namespace QueryForge

open Json

variable {E : Type} {f : E → Json} {d : Decoder E} {P : E → Prop} {o : Origin} {n : Nat}

theorem SortOrder.stands (s : SortOrder) : Stands replay o n s.dump s :=
  .oneOf (fun s => by cases s <;> rfl) s

theorem NullsOrder.stands (s : NullsOrder) : Stands replay o n s.dump s :=
  .oneOf (fun s => by cases s <;> rfl) s

theorem FrameMode.stands (m : FrameMode) : Stands replay o n m.dump m :=
  .oneOf (fun m => by cases m <;> rfl) m

theorem FrameExclusion.stands (e : FrameExclusion) : Stands replay o n e.dump e :=
  .oneOf (fun e => by cases e <;> rfl) e

theorem WindowKind.stands (k : WindowKind) : Stands replay o n k.dump k :=
  .oneOf (fun k => by cases k <;> rfl) k

namespace OrderTerm

theorem stands {t : OrderTerm E} (operand : Stands d o n (f t.expr) t.expr) :
    Stands (replay d) o n (t.map f).dump t := by
  have order : ∀ s, t.order = some s → Stands _ o n s.dump s := fun s _ => s.stands
  have nulls : ∀ s, t.nulls = some s → Stands _ o n s.dump s := fun s _ => s.stands
  refine .of_succ (.record
    [f t.expr, ofOption SortOrder.dump t.order, ofOption NullsOrder.dump t.nulls]
    (by decide) rfl ⟨operand.writable, writable_ofOption order, writable_ofOption nulls⟩ ?_)
  rintro m below ⟨deep, deep', deep''⟩
  simp [Fields.required, Fields.optional, operand.reads m below deep,
    Stands.nullable order below deep', Stands.nullable nulls below deep'']

theorem decoded_expr (operand : Yields d P) : Yields (replay d) fun t => P t.expr := by
  refine .record fun fs t read => ?_
  split at read
  · simp only [Option.bind_eq_bind, Option.bind_eq_some_iff, Option.some.injEq] at read
    obtain ⟨expr, found, order, -, nulls, -, rfl⟩ := read
    exact operand.required found
  · cases read

theorem bounded (operand : Bounded d f) : Bounded (replay d) fun t => (t.map f).dump := by
  refine .record fun fs t read => ?_
  split at read
  · simp only [Option.bind_eq_bind, Option.bind_eq_some_iff, Option.some.injEq] at read
    obtain ⟨expr, found, order, found', nulls, found'', rfl⟩ := read
    have order := Bounded.optional (f := SortOrder.dump) (.leaf fun _ => rfl) found'
    have nulls := Bounded.optional (f := NullsOrder.dump) (.leaf fun _ => rfl) found''
    simp [dump, map, operand.required found, order, nulls]
  · cases read

end OrderTerm

namespace FrameBound

theorem stands (b : FrameBound) : Stands replay o (n + 1) b.dump b := by
  cases b with
  | unboundedPreceding => exact .bare fun _ _ => rfl
  | preceding offset => exact .single (fun _ _ => rfl) (stands_unsigned32 offset)
  | currentRow => exact .bare fun _ _ => rfl
  | following offset => exact .single (fun _ _ => rfl) (stands_unsigned32 offset)
  | unboundedFollowing => exact .bare fun _ _ => rfl

theorem bounded : Bounded replay dump := by
  refine .variant fun v b read => ?_
  split at read
  case h_1 => exact Variant.depth_le_of_bare rfl read
  case h_2 => exact Bounded.single (.leaf fun _ => rfl) (fun _ => rfl) read
  case h_3 => exact Variant.depth_le_of_bare rfl read
  case h_4 => exact Bounded.single (.leaf fun _ => rfl) (fun _ => rfl) read
  case h_5 => exact Variant.depth_le_of_bare rfl read
  case h_6 => cases read

end FrameBound

namespace WindowFrame

theorem stands (w : WindowFrame) : Stands replay o n w.dump w := by
  have mode := w.mode.stands (o := o) (n := n)
  have start : Stands _ o n w.start.dump w.start := .of_succ w.start.stands
  have stop : ∀ b, w.stop = some b → Stands _ o n b.dump b := fun b _ => .of_succ b.stands
  have exclusion : ∀ e, w.exclusion = some e → Stands _ o n e.dump e := fun e _ => e.stands
  refine .of_succ (.record
    [w.mode.dump, w.start.dump, ofOption FrameBound.dump w.stop,
      ofOption FrameExclusion.dump w.exclusion]
    (by decide) rfl
    ⟨mode.writable, start.writable, writable_ofOption stop, writable_ofOption exclusion⟩ ?_)
  rintro m below ⟨deepMode, deepStart, deepStop, deepExclusion⟩
  simp [Fields.required, Fields.optional, mode.reads m below deepMode,
    start.reads m below deepStart, Stands.nullable stop below deepStop,
    Stands.nullable exclusion below deepExclusion]

theorem bounded : Bounded replay dump := by
  refine .record fun fs w read => ?_
  split at read
  · simp only [Option.bind_eq_bind, Option.bind_eq_some_iff, Option.some.injEq] at read
    obtain ⟨mode, -, start, foundStart, stop, foundStop, exclusion, foundExclusion, rfl⟩ := read
    have exclusion :=
      Bounded.optional (f := FrameExclusion.dump) (.leaf fun _ => rfl) foundExclusion
    simp [dump, FrameMode.dump, FrameBound.bounded.required foundStart,
      FrameBound.bounded.optional foundStop, exclusion]
  · cases read

end WindowFrame

namespace WindowDefinition

theorem dump_map (f : E → Json) (w : WindowDefinition E) :
    (w.map f).dump = .object (fieldNames.zip [.array (w.partitionBy.map f),
      .array (w.orderBy.map fun t => (t.map f).dump), ofOption WindowFrame.dump w.frame]) := by
  simp [dump, map, fieldNames, Function.comp_def]

theorem stands {w : WindowDefinition E} (operands : ∀ e ∈ w.operands, Stands d o n (f e) e) :
    Stands (replay d) o n (w.map f).dump w := by
  have partitionBy : Stands _ o n _ w.partitionBy :=
    .list fun e he => operands e (List.mem_append_left _ he)
  have orderBy : Stands _ o n _ w.orderBy := .list (f := fun t => (t.map f).dump) fun t ht =>
    OrderTerm.stands (operands _ (List.mem_append_right _ (List.mem_map_of_mem ht)))
  have frame : ∀ b, w.frame = some b → Stands _ o n b.dump b := fun b _ => b.stands
  rw [dump_map]
  refine .of_succ (.record _ (by decide) rfl
    ⟨partitionBy.writable, orderBy.writable, writable_ofOption frame⟩ ?_)
  rintro m below ⟨deepPartition, deepOrder, deepFrame⟩
  simp [Fields.required, Fields.optional, partitionBy.reads m below deepPartition,
    orderBy.reads m below deepOrder, Stands.nullable frame below deepFrame]

theorem decoded_operands (operand : Yields d P) :
    Yields (replay d) fun w => ∀ e ∈ w.operands, P e := by
  refine .record fun fs w read => ?_
  split at read
  · simp only [Option.bind_eq_bind, Option.bind_eq_some_iff, Option.some.injEq] at read
    obtain ⟨partitionBy, foundPartition, orderBy, foundOrder, frame, -, rfl⟩ := read
    have terms := (OrderTerm.decoded_expr operand).list.required foundOrder
    exact List.forall_mem_append.2
      ⟨operand.list.required foundPartition, List.forall_mem_map.2 terms⟩
  · cases read

theorem bounded (operand : Bounded d f) : Bounded (replay d) fun w => (w.map f).dump := by
  refine .record fun fs w read => ?_
  split at read
  · simp only [Option.bind_eq_bind, Option.bind_eq_some_iff, Option.some.injEq] at read
    obtain ⟨partitionBy, foundPartition, orderBy, foundOrder, frame, foundFrame, rfl⟩ := read
    have terms := (OrderTerm.bounded operand).list.required foundOrder
    simp [dump_map, fieldNames, operand.list.required foundPartition, terms,
      WindowFrame.bounded.optional foundFrame]
  · cases read

end WindowDefinition

namespace WindowReference

theorem stands {w : WindowReference E} (operands : ∀ e ∈ w.operands, Stands d o n (f e) e) :
    Stands (replay d) o (n + 1) (w.map f).dump w := by
  cases w with
  | named name => exact .single (fun _ _ => rfl) (stands_string name)
  | inline definition => exact .single (fun _ _ => rfl) (WindowDefinition.stands operands)

theorem decoded_operands (operand : Yields d P) :
    Yields (replay d) fun w => ∀ e ∈ w.operands, P e := by
  refine .variant fun v w read => ?_
  split at read
  case h_1 =>
    obtain ⟨name, -, rfl⟩ := Option.map_eq_some_iff.1 read
    exact fun e he => nomatch he
  case h_2 =>
    obtain ⟨definition, found, rfl⟩ := Option.map_eq_some_iff.1 read
    exact (WindowDefinition.decoded_operands operand).single found
  case h_3 => cases read

theorem bounded (operand : Bounded d f) : Bounded (replay d) fun w => (w.map f).dump := by
  let document : WindowReference E → Json := fun w => (w.map f).dump
  refine .variant (f := document) fun v w read => ?_
  split at read
  case h_1 => exact Bounded.single (f := document) (.leaf fun _ => rfl) (fun _ => rfl) read
  case h_2 =>
    exact Bounded.single (f := document) (WindowDefinition.bounded operand) (fun _ => rfl) read
  case h_3 => cases read

end WindowReference

namespace WindowFunction

theorem dump_map (f : E → Json) (w : WindowFunction E) :
    (w.map f).dump = .object (fieldNames.zip
      [w.kind.dump, ofOption f w.argument, (w.window.map f).dump]) := by
  obtain ⟨kind, argument, window⟩ := w
  cases argument <;> rfl

theorem stands {w : WindowFunction E} (operands : ∀ e ∈ w.operands, Stands d o n (f e) e) :
    Stands (replay d) o n (w.map f).dump w := by
  have kind := w.kind.stands (o := o) (n := n)
  have argument : ∀ e, w.argument = some e → Stands d o n (f e) e := fun e he =>
    operands e (List.mem_append_left _ (Option.mem_toList.2 he))
  have window : Stands _ o n _ w.window := .of_succ (WindowReference.stands fun e he =>
    operands e (List.mem_append_right _ he))
  rw [dump_map]
  refine .of_succ (.record _ (by decide) rfl
    ⟨kind.writable, writable_ofOption argument, window.writable⟩ ?_)
  rintro m below ⟨deepKind, deepArgument, deepWindow⟩
  simp [Fields.required, Fields.optional, kind.reads m below deepKind,
    Stands.nullable argument below deepArgument, window.reads m below deepWindow]

theorem decoded_operands (operand : Yields d P) :
    Yields (replay d) fun w => ∀ e ∈ w.operands, P e := by
  refine .record fun fs w read => ?_
  split at read
  · simp only [Option.bind_eq_bind, Option.bind_eq_some_iff, Option.some.injEq] at read
    obtain ⟨kind, -, argument, foundArgument, window, foundWindow, rfl⟩ := read
    have inArgument := operand.optional foundArgument
    refine List.forall_mem_append.2 ⟨fun e he => inArgument e (Option.mem_toList.1 he), ?_⟩
    exact (WindowReference.decoded_operands operand).required foundWindow
  · cases read

theorem bounded (operand : Bounded d f) : Bounded (replay d) fun w => (w.map f).dump := by
  refine .record fun fs w read => ?_
  split at read
  · simp only [Option.bind_eq_bind, Option.bind_eq_some_iff, Option.some.injEq] at read
    obtain ⟨kind, -, argument, foundArgument, window, foundWindow, rfl⟩ := read
    have inner := (WindowReference.bounded operand).required foundWindow
    simp [dump_map, fieldNames, WindowKind.dump, operand.optional foundArgument, inner]
  · cases read

end WindowFunction
end QueryForge
