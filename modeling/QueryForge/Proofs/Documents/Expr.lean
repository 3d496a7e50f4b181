import QueryForge.Expr.Dump
import QueryForge.Proofs.Documents.Catalog
import QueryForge.Proofs.Documents.Window
import QueryForge.Proofs.Names

/-!
# Expressions as documents

A node uses up a level, so the levels of a reader bound the nodes it can still read. The document
of an expression stands for it by induction on the expression, once the same is known of a node
whose operands' documents stand for the operands.
-/

namespace QueryForge

open Json

variable {E : Type} {f : E → Json} {d : Decoder E} {P : E → Prop} {o : Origin} {n : Nat}

theorem UnaryOperator.stands (p : UnaryOperator) : Stands replay o n p.dump p :=
  .oneOf (fun p => by cases p <;> rfl) p

theorem TestOperator.stands (p : TestOperator) : Stands replay o n p.dump p :=
  .oneOf (fun p => by cases p <;> rfl) p

theorem BinaryOperator.stands (p : BinaryOperator) : Stands replay o n p.dump p :=
  .oneOf (fun p => by cases p <;> rfl) p

namespace ExprNode

theorem exists_dump_eq_tagged (c : ExprNode Json) :
    ∃ name content, c.dump = tagged name content := by
  cases c <;> exact ⟨_, _, rfl⟩

theorem stands {c : ExprNode E} (numbers : ∀ x ∈ c.ownNumbers, x.IsFinite)
    (operands : ∀ e ∈ c.operands, Stands d o n (f e) e) :
    Stands (replay d) o (n + 1) (c.map f).dump c := by
  cases c with
  | column table name =>
    have qualifier : ∀ t, table = some t → Stands _ o n (.string t) t := fun t _ => stands_string t
    refine .fields ["table", "name"] [ofOption .string table, .string name]
      (fun _ _ => rfl) (by decide) rfl ⟨writable_ofOption qualifier, .string _⟩ ?_
    rintro m below ⟨deep, -⟩
    simp [Fields.required, Fields.optional, Decoder.string, Stands.nullable qualifier below deep]
  | literal value => exact .single (fun _ _ => rfl) (.of_succ (Literal.stands numbers))
  | unary operator operand =>
    have sign := operator.stands (o := o) (n := n)
    have inner := operands operand List.mem_cons_self
    refine .tuple [operator.dump, f operand] (fun _ _ => rfl)
      ⟨sign.writable, inner.writable⟩ ?_
    rintro m below ⟨deep, deep'⟩
    simp [Fields.required, sign.reads m below deep, inner.reads m below deep']
  | test operand operator =>
    have inner := operands operand List.mem_cons_self
    have asks := operator.stands (o := o) (n := n)
    refine .tuple [f operand, operator.dump] (fun _ _ => rfl)
      ⟨inner.writable, asks.writable⟩ ?_
    rintro m below ⟨deep, deep'⟩
    simp [Fields.required, inner.reads m below deep, asks.reads m below deep']
  | binary left operator right =>
    have first := operands left List.mem_cons_self
    have joins := operator.stands (o := o) (n := n)
    have second := operands right (List.mem_cons_of_mem _ List.mem_cons_self)
    refine .tuple [f left, operator.dump, f right] (fun _ _ => rfl)
      ⟨first.writable, joins.writable, second.writable⟩ ?_
    rintro m below ⟨deep, deep', deep''⟩
    simp [Fields.required, first.reads m below deep, joins.reads m below deep',
      second.reads m below deep'']
  | cast operand type =>
    have inner := operands operand List.mem_cons_self
    have target := type.stands (o := o) (n := n)
    refine .tuple [f operand, type.dump] (fun _ _ => rfl)
      ⟨inner.writable, target.writable⟩ ?_
    rintro m below ⟨deep, deep'⟩
    simp [Fields.required, inner.reads m below deep, target.reads m below deep']
  | call name arguments =>
    have args : Stands _ o n _ arguments := .list operands
    refine .fields ["name", "args"] [.string name, .array (arguments.map f)]
      (fun _ _ => rfl) (by decide) rfl ⟨.string _, args.writable⟩ ?_
    rintro m below ⟨-, deep⟩
    simp [Fields.required, Decoder.string, args.reads m below deep]
  | window function => exact .single (fun _ _ => rfl) (WindowFunction.stands operands)

/-- The numbers of a node and its operands. -/
theorem decoded_parts (operand : Yields d P) : Yields (replay d) fun c =>
    (∀ x ∈ c.ownNumbers, x.IsFinite) ∧ ∀ e ∈ c.operands, P e := by
  refine .variant fun v c read => ?_
  split at read
  case h_1 =>
    obtain ⟨fs, -, read⟩ := Option.bind_eq_some_iff.1 read
    split at read
    · simp only [Option.bind_eq_bind, Option.bind_eq_some_iff, Option.some.injEq] at read
      obtain ⟨table, -, name, -, rfl⟩ := read
      exact ⟨nofun, nofun⟩
    · cases read
  case h_2 =>
    obtain ⟨value, found, rfl⟩ := Option.map_eq_some_iff.1 read
    exact ⟨Literal.decoded_finite.single found, nofun⟩
  case h_3 =>
    obtain ⟨fs, -, read⟩ := Option.bind_eq_some_iff.1 read
    split at read
    · simp only [Option.bind_eq_bind, Option.bind_eq_some_iff, Option.some.injEq] at read
      obtain ⟨operator, -, inner, found, rfl⟩ := read
      exact ⟨nofun, List.forall_mem_singleton.2 (operand.required found)⟩
    · cases read
  case h_4 =>
    obtain ⟨fs, -, read⟩ := Option.bind_eq_some_iff.1 read
    split at read
    · simp only [Option.bind_eq_bind, Option.bind_eq_some_iff, Option.some.injEq] at read
      obtain ⟨inner, found, operator, -, rfl⟩ := read
      exact ⟨nofun, List.forall_mem_singleton.2 (operand.required found)⟩
    · cases read
  case h_5 =>
    obtain ⟨fs, -, read⟩ := Option.bind_eq_some_iff.1 read
    split at read
    · simp only [Option.bind_eq_bind, Option.bind_eq_some_iff, Option.some.injEq] at read
      obtain ⟨left, found, operator, -, right, found', rfl⟩ := read
      refine ⟨nofun, List.forall_mem_cons.2 ⟨operand.required found, ?_⟩⟩
      exact List.forall_mem_singleton.2 (operand.required found')
    · cases read
  case h_6 =>
    obtain ⟨fs, -, read⟩ := Option.bind_eq_some_iff.1 read
    split at read
    · simp only [Option.bind_eq_bind, Option.bind_eq_some_iff, Option.some.injEq] at read
      obtain ⟨inner, found, type, -, rfl⟩ := read
      exact ⟨nofun, List.forall_mem_singleton.2 (operand.required found)⟩
    · cases read
  case h_7 =>
    obtain ⟨fs, -, read⟩ := Option.bind_eq_some_iff.1 read
    split at read
    · simp only [Option.bind_eq_bind, Option.bind_eq_some_iff, Option.some.injEq] at read
      obtain ⟨name, -, arguments, found, rfl⟩ := read
      exact ⟨nofun, operand.list.required found⟩
    · cases read
  case h_8 =>
    obtain ⟨function, found, rfl⟩ := Option.map_eq_some_iff.1 read
    exact ⟨nofun, (WindowFunction.decoded_operands operand).single found⟩
  case h_9 => cases read

theorem bounded (operand : Bounded d f) : Bounded (replay d) fun c => (c.map f).dump := by
  let document : ExprNode E → Json := fun c => (c.map f).dump
  refine .variant (f := document) fun v c read => ?_
  split at read
  case h_1 =>
    refine Variant.depth_le_of_fields (fun fs c read => ?_) read
    split at read
    · simp only [Option.bind_eq_bind, Option.bind_eq_some_iff, Option.some.injEq] at read
      obtain ⟨table, found, name, -, rfl⟩ := read
      have qualifier := Bounded.optional (f := .string) (.leaf fun _ => rfl) found
      simp [document, map, dump, qualifier]
    · cases read
  case h_2 => exact Bounded.single (f := document) Literal.bounded (fun _ => rfl) read
  case h_3 =>
    refine Variant.depth_le_of_tuple (fun fs c read => ?_) read
    split at read
    · simp only [Option.bind_eq_bind, Option.bind_eq_some_iff, Option.some.injEq] at read
      obtain ⟨operator, -, inner, found, rfl⟩ := read
      simp [document, map, dump, UnaryOperator.dump, operand.required found]
    · cases read
  case h_4 =>
    refine Variant.depth_le_of_tuple (fun fs c read => ?_) read
    split at read
    · simp only [Option.bind_eq_bind, Option.bind_eq_some_iff, Option.some.injEq] at read
      obtain ⟨inner, found, operator, -, rfl⟩ := read
      simp [document, map, dump, TestOperator.dump, operand.required found]
    · cases read
  case h_5 =>
    refine Variant.depth_le_of_tuple (fun fs c read => ?_) read
    split at read
    · simp only [Option.bind_eq_bind, Option.bind_eq_some_iff, Option.some.injEq] at read
      obtain ⟨left, found, operator, -, right, found', rfl⟩ := read
      simp [document, map, dump, BinaryOperator.dump, operand.required found,
        operand.required found']
    · cases read
  case h_6 =>
    refine Variant.depth_le_of_tuple (fun fs c read => ?_) read
    split at read
    · simp only [Option.bind_eq_bind, Option.bind_eq_some_iff, Option.some.injEq] at read
      obtain ⟨inner, found, type, -, rfl⟩ := read
      simp [document, map, dump, ColumnType.dump, operand.required found]
    · cases read
  case h_7 =>
    refine Variant.depth_le_of_fields (fun fs c read => ?_) read
    split at read
    · simp only [Option.bind_eq_bind, Option.bind_eq_some_iff, Option.some.injEq] at read
      obtain ⟨name, -, arguments, found, rfl⟩ := read
      simp [document, map, dump, operand.list.required found]
    · cases read
  case h_8 =>
    exact Bounded.single (f := document) (WindowFunction.bounded operand) (fun _ => rfl) read
  case h_9 => cases read

end ExprNode

namespace Expr

theorem dump_node (c : ExprNode Expr) : (node c).dump = (c.map dump).dump := fold_node ..

/-- An expression is read by as many levels as its nodes need. -/
theorem stands_nested {e : Expr} (finite : e.IsFinite) (n : Nat) :
    Stands (replayNested n) o n e.dump e := by
  induction e using Expr.induction generalizing n with
  | step c ih =>
    obtain ⟨numbers, inside⟩ := isFinite_node.1 finite
    cases n with
    | zero =>
      have here := ExprNode.stands (o := o) numbers fun e he => ih e he (inside e he) 0
      obtain ⟨name, content, written⟩ := (c.map dump).exists_dump_eq_tagged
      rw [dump_node]
      refine ⟨here.present, here.writable, fun l below deep => ?_⟩
      rw [written, Origin.view_tagged, depth_tagged] at deep
      omega
    | succ n =>
      have here := ExprNode.stands (o := o) numbers fun e he => ih e he (inside e he) n
      rw [dump_node]
      refine ⟨here.present, here.writable, fun l below deep => ?_⟩
      exact congrArg (Option.map node) (here.reads l below deep)

theorem stands {e : Expr} (finite : e.IsFinite) : Stands replay o n e.dump e where
  present := (stands_nested (o := o) finite n).present
  writable := (stands_nested (o := o) finite n).writable
  reads := fun l _ deep => (stands_nested finite l).reads l (Nat.le_refl l) deep

theorem decoded_finite_nested (n : Nat) : Yields (replayNested n) IsFinite := by
  induction n with
  | zero => exact fun r j e read => by cases read
  | succ n ih =>
    intro r j e read
    obtain ⟨c, found, rfl⟩ := Option.map_eq_some_iff.1 read
    exact isFinite_node.2 (ExprNode.decoded_parts ih r j c found)

theorem decoded_finite : Yields replay IsFinite := fun r => decoded_finite_nested r.levels r

theorem bounded_nested (n : Nat) : Bounded (replayNested n) dump := by
  induction n with
  | zero => exact fun r j e read => by cases read
  | succ n ih =>
    intro r j e read
    obtain ⟨c, found, rfl⟩ := Option.map_eq_some_iff.1 read
    rw [dump_node]
    exact ExprNode.bounded ih r j c found

theorem bounded : Bounded replay dump := fun r => bounded_nested r.levels r

end Expr
end QueryForge
