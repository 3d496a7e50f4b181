import QueryForge.Proofs.Documents.Select
import QueryForge.Proofs.References

/-!
# How deep documents are

A statement adds a fixed number of levels to those of its expressions and of its nested
statements, whatever else it holds.
-/

namespace QueryForge

open Json

namespace Json

theorem depth_ofOption_le {α : Type} {f : α → Json} {x : Option α} {l : Nat}
    (h : ∀ a, x = some a → (f a).depth ≤ l) : (ofOption f x).depth ≤ l := by
  cases x with
  | none => exact Nat.zero_le l
  | some a => exact h a rfl

theorem depth_map_le {α : Type} (f : α → Json) (as : List α) {l : Nat}
    (h : ∀ a ∈ as, (f a).depth ≤ l) : (Json.array (as.map f)).depth ≤ l + 1 := by
  rw [depth_array_le]
  intro item hi
  obtain ⟨a, ha, rfl⟩ := List.mem_map.1 hi
  exact h a ha

/-- A record is one level deeper than its fields. -/
theorem depth_record_le (names : List String) (docs : List Json) {l : Nat}
    (h : docs.Forall fun doc => doc.depth ≤ l) : (Json.object (names.zip docs)).depth ≤ l + 1 := by
  rw [depth_object_le]
  exact fun member hm => List.forall_iff_forall_mem.1 h _ (List.of_mem_zip hm).2

end Json

section Shapes

variable {E : Type} {f : E → Json} {k : Nat}

theorem OrderTerm.depth_dump_le {t : OrderTerm E} (h : (f t.expr).depth ≤ k) :
    (t.map f).dump.depth ≤ k + 1 := by
  have order := depth_ofOption_of_leaf (f := SortOrder.dump) (fun _ => rfl) t.order
  have nulls := depth_ofOption_of_leaf (f := NullsOrder.dump) (fun _ => rfl) t.nulls
  simp [dump, map, h, order, nulls]

theorem WindowFrame.depth_dump_le (w : WindowFrame) : w.dump.depth ≤ 2 := by
  have bound : ∀ b : FrameBound, b.dump.depth ≤ 1 := by
    intro b
    cases b <;> simp [FrameBound.dump]
  have stop := depth_ofOption_le (x := w.stop) fun b _ => bound b
  have exclusion := depth_ofOption_of_leaf (f := FrameExclusion.dump) (fun _ => rfl) w.exclusion
  simp [dump, FrameMode.dump, bound, stop, exclusion]

theorem WindowDefinition.depth_dump_le {w : WindowDefinition E}
    (h : ∀ e ∈ w.operands, (f e).depth ≤ k) : (w.map f).dump.depth ≤ k + 3 := by
  have partitionBy := depth_map_le f w.partitionBy fun e he =>
    h e (List.mem_append_left _ he)
  have orderBy := depth_map_le (fun t => (t.map f).dump) w.orderBy fun t ht =>
    OrderTerm.depth_dump_le (h _ (List.mem_append_right _ (List.mem_map_of_mem ht)))
  have frame := depth_ofOption_le (x := w.frame) fun b _ => b.depth_dump_le
  rw [dump_map]
  exact depth_record_le _ _ ⟨Nat.le_succ_of_le partitionBy, orderBy, Nat.le_trans frame (by omega)⟩

theorem WindowFunction.depth_dump_le {w : WindowFunction E}
    (h : ∀ e ∈ w.operands, (f e).depth ≤ k) : (w.map f).dump.depth ≤ k + 5 := by
  have argument := depth_ofOption_le (f := f) (x := w.argument) fun e he =>
    h e (List.mem_append_left _ (Option.mem_toList.2 he))
  have window : (w.window.map f).dump.depth ≤ k + 4 := by
    have inner : ∀ e ∈ w.window.operands, (f e).depth ≤ k := fun e he =>
      h e (List.mem_append_right _ he)
    cases hw : w.window with
    | named name => simp [WindowReference.map, WindowReference.dump]
    | inline definition =>
      rw [hw] at inner
      simpa [WindowReference.map, WindowReference.dump] using
        WindowDefinition.depth_dump_le inner
  rw [dump_map]
  exact depth_record_le _ _ ⟨Nat.zero_le _, by omega, window⟩

end Shapes

theorem Literal.depth_dump_le (v : Literal) : v.dump.depth ≤ 2 := by
  cases v <;> simp [dump, ColumnType.dump]

namespace Expr

variable {l : Nat} {left right operand : Expr}

theorem depth_dump_qualifiedColumn (table name : String) :
    (qualifiedColumn table name).dump.depth = 2 := by
  rw [qualifiedColumn, dump_node]
  rfl

theorem depth_dump_literal_le (v : Literal) : (literal v).dump.depth ≤ 3 := by
  rw [literal, dump_node]
  simpa [ExprNode.map, ExprNode.dump] using v.depth_dump_le

theorem depth_dump_binary_le (first : left.dump.depth ≤ l) (operator : BinaryOperator)
    (second : right.dump.depth ≤ l) : (binary left operator right).dump.depth ≤ l + 2 := by
  rw [binary, dump_node]
  simp [ExprNode.map, ExprNode.dump, BinaryOperator.dump, first, second]

theorem depth_dump_test_le (inner : operand.dump.depth ≤ l) (operator : TestOperator) :
    (test operand operator).dump.depth ≤ l + 2 := by
  rw [test, dump_node]
  simp [ExprNode.map, ExprNode.dump, TestOperator.dump, inner]

theorem depth_dump_not_le (inner : operand.dump.depth ≤ l) :
    operand.not.dump.depth ≤ l + 2 := by
  rw [not, dump_node]
  simp [ExprNode.map, ExprNode.dump, UnaryOperator.dump, inner]

end Expr

theorem ColumnType.depth_dump (t : ColumnType) : t.dump.depth = 0 := rfl

theorem Column.depth_dump_le (c : Column) : c.dump.depth ≤ 1 := by
  simp [dump, ColumnType.depth_dump]

theorem SelectModifier.depth_dump_le {m : SelectModifier} {k : Nat}
    (h : ∀ e, m.distinctOn = some e → e.dump.depth ≤ k) : m.dump.depth ≤ k + 2 := by
  cases m with
  | all => exact Nat.zero_le _
  | distinct on =>
    have key := depth_ofOption_le (x := on) h
    simpa [dump] using key
  | locked clause => simp [dump, LockingClause.dump]

theorem ResultColumn.depth_dump_le {c : ResultColumn} {k : Nat}
    (h : ∀ e ∈ c.operands, e.dump.depth ≤ k) : c.dump.depth ≤ k + 2 := by
  cases c with
  | star => exact Nat.zero_le _
  | expr value asName =>
    have label := depth_ofOption_of_leaf (f := .string) (fun _ => rfl) asName
    simpa [dump, label] using h value List.mem_cons_self

theorem NamedWindows.depth_dump_le {w : NamedWindows} {k : Nat}
    (h : ∀ entry ∈ w.entries, ∀ e ∈ entry.2.operands, e.dump.depth ≤ k) :
    w.dump.depth ≤ k + 4 := by
  rw [dump, depth_object_le]
  intro member hm
  obtain ⟨entry, he, rfl⟩ := List.mem_map.1 hm
  exact WindowDefinition.depth_dump_le (h entry he)

section Nested

variable {Q : Type} {f : Q → Json} {m : Nat}

theorem FromItem.depth_dump_le {i : FromItem Q} (h : ∀ q ∈ i.nested, (f q).depth ≤ m) :
    (i.map f).dump.depth ≤ m + 2 := by
  cases i with
  | table name only asName =>
    have label := depth_ofOption_of_leaf (f := .string) (fun _ => rfl) asName
    simp [map, dump, label]
  | subquery query asName => simpa [map, dump] using h query List.mem_cons_self

theorem Join.depth_dump_le {j : Join Q} {k l : Nat} (on : ∀ e, j.on = some e → e.dump.depth ≤ k)
    (h : ∀ q ∈ j.item.nested, (f q).depth ≤ m) (deepOn : k ≤ l) (deepItem : m + 2 ≤ l) :
    (j.map f).dump.depth ≤ l + 1 := by
  have condition := depth_ofOption_le (x := j.on) on
  have item := FromItem.depth_dump_le h
  exact depth_record_le fieldNames
    [j.kind.dump, (j.item.map f).dump, ofOption Expr.dump j.on]
    ⟨Nat.zero_le l, Nat.le_trans item deepItem, Nat.le_trans condition deepOn⟩

theorem Cte.depth_dump_le {c : Cte Q} (h : (f c.query).depth ≤ m) :
    (c.map f).dump.depth ≤ m + 3 := by
  have aliases : (ofStrings c.columnAliases).depth ≤ m + 2 := by
    rw [depth_ofStrings]
    omega
  have columns := depth_map_le Column.dump c.columns fun column _ => column.depth_dump_le
  exact depth_record_le fieldNames
    [.string c.name, ofStrings c.columnAliases, f c.query,
      .array (c.columns.map Column.dump)]
    ⟨Nat.zero_le _, aliases, Nat.le_add_right_of_le h, Nat.le_trans columns (Nat.le_add_left 2 m)⟩

theorem WithClause.depth_dump_le {w : WithClause Q} (h : ∀ c ∈ w.ctes, (f c.query).depth ≤ m) :
    (w.map f).dump.depth ≤ m + 5 := by
  rw [dump_map]
  exact depth_record_le _ _
    (depth_map_le (fun c => (c.map f).dump) w.ctes fun c hc => Cte.depth_dump_le (h c hc))

theorem SetOperation.depth_dump_le {s : SetOperation Q} (h : (f s.query).depth ≤ m) :
    (s.map f).dump.depth ≤ m + 1 :=
  depth_record_le fieldNames [s.operator.dump, f s.query]
    ⟨Nat.zero_le m, h⟩

end Nested

namespace Clauses

variable {Q : Type} {f : Q → Json} {c : Clauses Q} {k m l : Nat}

/-- Window functions lie deepest around an expression, a WITH clause around a nested statement. -/
theorem depth_dump_le (expressions : ∀ e ∈ c.expressions, e.dump.depth ≤ k)
    (nested : ∀ q ∈ c.nested, (f q).depth ≤ m) (deepExpression : k + 6 ≤ l)
    (deepNested : m + 5 ≤ l) : (c.map f).dump.depth ≤ l + 1 := by
  obtain ⟨inColumns, inFunctions, inModifier, inJoins, inFilter, inGroup, inHaving, inWindows,
    inOrder⟩ := forall_expressions_iff.1 expressions
  obtain ⟨ofCtes, ofItems, ofJoins, ofArm⟩ := forall_nested_iff.1 nested
  have withClause := depth_ofOption_le (x := c.withClause) (f := fun w => (w.map f).dump)
    fun w hw => WithClause.depth_dump_le fun cte hc => ofCtes cte (mem_ctes.2 ⟨w, hw, hc⟩)
  have modifier := SelectModifier.depth_dump_le inModifier
  have columns := depth_map_le ResultColumn.dump c.columns fun r hr =>
    ResultColumn.depth_dump_le (inColumns r hr)
  have functions := depth_map_le (fun w => (w.map Expr.dump).dump) c.windowFunctions
    fun w hw => WindowFunction.depth_dump_le (inFunctions w hw)
  have items := depth_map_le (fun i => (i.map f).dump) c.fromItems fun i hi =>
    FromItem.depth_dump_le (ofItems i hi)
  have joins := depth_map_le (fun j => (j.map f).dump) c.joins fun j hj =>
    Join.depth_dump_le (l := l - 2) (inJoins j hj) (ofJoins j hj) (by omega) (by omega)
  have filter := depth_ofOption_le inFilter
  have groupBy := depth_map_le Expr.dump c.groupBy inGroup
  have having := depth_ofOption_le inHaving
  have windows := NamedWindows.depth_dump_le inWindows
  have orderBy := depth_map_le (fun t => (t.map Expr.dump).dump) c.orderBy fun t ht =>
    OrderTerm.depth_dump_le (inOrder t ht)
  have limit := depth_ofOption_of_leaf (f := fun v : UInt64 => .integer v.toNat) (fun _ => rfl)
    c.limit
  have offset := depth_ofOption_of_leaf (f := fun v : UInt64 => .integer v.toNat) (fun _ => rfl)
    c.offset
  have arm := depth_ofOption_le (x := c.setOperation) (f := fun s => (s.map f).dump) fun s hs =>
    SetOperation.depth_dump_le (ofArm s hs)
  rw [dump_map]
  refine depth_record_le _ _ (List.forall_iff_forall_mem.2 ?_)
  simp only [List.forall_mem_cons, List.not_mem_nil, false_implies, implies_true, and_true]
  refine ⟨?_, ?_, ?_, ?_, ?_, ?_, ?_, ?_, ?_, ?_, ?_, ?_, ?_, ?_⟩ <;> omega

end Clauses

end QueryForge
