import QueryForge.Proofs.Determined
import QueryForge.Proofs.References
import QueryForge.Proofs.Select.Validation

/-!
# Names

The names that are written out as they are: tables, columns, functions and windows, with what they
are called behind `AS`. A text is plain if all of them are plain identifiers.
-/

namespace QueryForge

def Sql.isNameChar (c : Char) : Bool := c.isLower || c.isDigit || c == '_'

/-- Lower-case letters, digits and underscores, with no digit in front. -/
def Sql.IsIdentifier (name : String) : Prop :=
  name.toList ≠ [] ∧ (∀ c ∈ name.toList, isNameChar c) ∧
    ∀ c ∈ name.toList.head?, c.isDigit = false

-- The instances are named because characters can also be searched through one by one.
instance (name : String) : Decidable (Sql.IsIdentifier name) :=
  have : Decidable (∀ c ∈ name.toList, Sql.isNameChar c) := List.decidableBAll _ _
  have : Decidable (∀ c ∈ name.toList.head?, c.isDigit = false) := Option.decidableForallMem _
  inferInstanceAs (Decidable (_ ∧ _ ∧ _))

namespace Sql.IsIdentifier

variable {a b name : String}

theorem exists_cons (h : IsIdentifier name) :
    ∃ c cs, name.toList = c :: cs ∧ (c.isLower || c == '_') = true := by
  obtain ⟨nonempty, chars, first⟩ := h
  obtain ⟨c, cs, same⟩ := List.exists_cons_of_ne_nil nonempty
  have char := chars c (same ▸ List.mem_cons_self)
  have digit := first c (by rw [same]; rfl)
  rw [isNameChar, digit, Bool.or_false] at char
  exact ⟨c, cs, same, char⟩

/-- An identifier ends where its characters end. -/
theorem inj (ha : IsIdentifier a) (hb : IsIdentifier b) {r s : List Char}
    (hr : ∀ c, r.head? = some c → isNameChar c = false)
    (hs : ∀ c, s.head? = some c → isNameChar c = false)
    (same : a.toList ++ r = b.toList ++ s) : a = b ∧ r = s := by
  obtain ⟨chars, rest⟩ := span_inj ha.2.1 hb.2.1 hr hs same
  exact ⟨String.toList_injective chars, rest⟩

end Sql.IsIdentifier

/-- The name of a window of the statement. -/
def WindowReference.names {E : Type} : WindowReference E → List String
  | .named name => [name]
  | .inline _ => []

namespace ExprNode

variable {E F : Type}

def ownNames : ExprNode E → List String
  | .column table name => table.toList ++ [name]
  | .call name _ => [name]
  | .window function => function.window.names
  | .literal _ | .unary .. | .test .. | .binary .. | .cast .. => []

theorem ownNames_map (f : E → F) (n : ExprNode E) : (n.map f).ownNames = n.ownNames := by
  cases n with
  | window function => cases h : function.window <;> simp [map, ownNames, WindowFunction.map, h,
      WindowReference.map, WindowReference.names]
  | column | literal | unary | test | binary | cast | call => rfl

end ExprNode

theorem WindowDefinition.sizeOf_lt_of_mem_operands {d : WindowDefinition Expr} {e : Expr}
    (h : e ∈ d.operands) : sizeOf e < sizeOf d := by
  obtain ⟨partitionBy, orderBy, frame⟩ := d
  rcases List.mem_append.1 h with mem | mem
  · have inner := List.sizeOf_lt_of_mem mem
    simp at inner ⊢
    omega
  · obtain ⟨t, ht, rfl⟩ := List.mem_map.1 mem
    have inner := List.sizeOf_lt_of_mem ht
    cases t
    simp at inner ⊢
    omega

theorem WindowFunction.sizeOf_lt_of_mem_operands {w : WindowFunction Expr} {e : Expr}
    (h : e ∈ w.operands) : sizeOf e < sizeOf w := by
  obtain ⟨kind, argument, window⟩ := w
  rcases List.mem_append.1 h with mem | mem
  · obtain rfl : argument = some e := Option.mem_toList.1 mem
    simp
    omega
  · cases window with
    | named name => cases mem
    | inline d =>
      have inner := WindowDefinition.sizeOf_lt_of_mem_operands mem
      simp
      omega

theorem ExprNode.sizeOf_lt_of_mem_operands {n : ExprNode Expr} {e : Expr} (h : e ∈ n.operands) :
    sizeOf e < sizeOf n := by
  cases n with
  | column | literal => cases h
  | unary operator operand =>
    obtain rfl : e = operand := List.mem_singleton.1 h
    rw [unary.sizeOf_spec]
    omega
  | test operand operator =>
    obtain rfl : e = operand := List.mem_singleton.1 h
    rw [test.sizeOf_spec]
    omega
  | cast operand type =>
    obtain rfl : e = operand := List.mem_singleton.1 h
    rw [cast.sizeOf_spec]
    omega
  | binary left operator right =>
    rw [binary.sizeOf_spec]
    rcases List.mem_pair.1 h with rfl | rfl <;> omega
  | call name arguments =>
    have inner := List.sizeOf_lt_of_mem (show e ∈ arguments from h)
    simp
    omega
  | window function =>
    have inner := WindowFunction.sizeOf_lt_of_mem_operands (show e ∈ function.operands from h)
    simp
    omega

namespace Expr

/-- What holds of an expression whenever it holds of its operands holds of all. -/
theorem induction {P : Expr → Prop}
    (step : ∀ n : ExprNode Expr, (∀ e ∈ n.operands, P e) → P (.node n)) (e : Expr) : P e :=
  match e with
  | .node n => step n fun e _ => induction step e
termination_by sizeOf e
decreasing_by
  have smaller : sizeOf e < sizeOf n := ExprNode.sizeOf_lt_of_mem_operands (by assumption)
  simp only [node.sizeOf_spec]
  omega

theorem sql_node (n : ExprNode Expr) : (node n).sql = (n.map sql).sql := fold_node ..

/-- All names of an expression. -/
def names : Expr → List String := fold fun node => node.ownNames ++ node.operands.flatten

theorem names_node (content : ExprNode Expr) :
    (Expr.node content).names = content.ownNames ++ content.operands.flatMap names := by
  unfold names
  rw [fold_node, ExprNode.ownNames_map, ExprNode.operands_map, List.flatMap_def]

/-- All names are plain identifiers. -/
def Plain (e : Expr) : Prop := ∀ name ∈ e.names, Sql.IsIdentifier name

instance (e : Expr) : Decidable e.Plain := inferInstanceAs (Decidable (∀ name ∈ e.names, _))

theorem plain_node {content : ExprNode Expr} :
    (Expr.node content).Plain ↔
      (∀ name ∈ content.ownNames, Sql.IsIdentifier name) ∧ ∀ e ∈ content.operands, e.Plain := by
  unfold Plain
  rw [names_node]
  simp only [List.forall_mem_append, List.forall_mem_flatMap]

end Expr

def ResultColumn.names : ResultColumn → List String
  | .expr _ asName => asName.toList
  | .star => []

def FromItem.names {Q : Type} : FromItem Q → List String
  | .table name _ asName => name :: asName.toList
  | .subquery _ asName => [asName]

def Cte.names {Q : Type} (c : Cte Q) : List String := c.name :: c.columnAliases

namespace Clauses

variable {Q R : Type}

/-- The names of the clauses, apart from those of nested statements. -/
def ownNames (c : Clauses Q) : List String :=
  c.ctes.flatMap Cte.names ++ c.columns.flatMap ResultColumn.names ++
    c.windowFunctions.flatMap (fun w => w.window.names) ++ c.items.flatMap FromItem.names ++
    c.windows.names ++ c.expressions.flatMap Expr.names

theorem forall_ownNames_iff {c : Clauses Q} {P : String → Prop} :
    (∀ n ∈ c.ownNames, P n) ↔ (∀ cte ∈ c.ctes, ∀ n ∈ cte.names, P n) ∧
      (∀ r ∈ c.columns, ∀ n ∈ r.names, P n) ∧ (∀ w ∈ c.windowFunctions, ∀ n ∈ w.window.names, P n) ∧
      (∀ i ∈ c.fromItems, ∀ n ∈ i.names, P n) ∧ (∀ j ∈ c.joins, ∀ n ∈ j.item.names, P n) ∧
      (∀ n ∈ c.windows.names, P n) ∧ ∀ e ∈ c.expressions, ∀ n ∈ e.names, P n := by
  simp only [ownNames, items, List.forall_mem_append, List.forall_mem_flatMap, List.forall_mem_map,
    and_assoc]

theorem expressions_map (f : Q → R) (c : Clauses Q) : (c.map f).expressions = c.expressions := by
  simp [expressions, map, List.flatMap_map, Join.map]

theorem ownNames_map (f : Q → R) (c : Clauses Q) : (c.map f).ownNames = c.ownNames := by
  have items : (c.map f).items = c.items.map (FromItem.map f) := by
    simp [Clauses.items, map, Join.map]
  have cte (x : Cte Q) : (x.map f).names = x.names := rfl
  have item (i : FromItem Q) : (i.map f).names = i.names := by cases i <;> rfl
  unfold ownNames
  rw [ctes_map, items, expressions_map]
  simp [List.flatMap_map, cte, item, map]

end Clauses

namespace Select

/-- All names of a statement, those of the statements inside included. -/
def names : Select → List String := fold fun clauses => clauses.ownNames ++ clauses.nested.flatten

theorem names_node (c : Clauses Select) :
    (Select.node c).names = c.ownNames ++ c.nested.flatMap names := by
  unfold names
  rw [fold_node, Clauses.ownNames_map, Clauses.nested_map, List.flatMap_def]

def Plain (s : Select) : Prop := ∀ name ∈ s.names, Sql.IsIdentifier name

instance (s : Select) : Decidable s.Plain := inferInstanceAs (Decidable (∀ name ∈ s.names, _))

theorem plain_node {c : Clauses Select} :
    (Select.node c).Plain ↔
      (∀ name ∈ c.ownNames, Sql.IsIdentifier name) ∧ ∀ q ∈ c.nested, q.Plain := by
  unfold Plain
  rw [names_node]
  simp only [List.forall_mem_append, List.forall_mem_flatMap]

end Select
end QueryForge
