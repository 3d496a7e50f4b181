import QueryForge.Proofs.Numbers
import QueryForge.Proofs.Select.Nesting
import QueryForge.Proofs.Select.WindowOrder

/-!
# Equality of values

A value equals itself as long as its numbers are finite, and then a statement equals each one whose
clauses are the same and whose named windows are the same map, whatever the order in which they are
listed.
-/

namespace QueryForge

section Shapes

variable {α β γ : Type} {same : β → γ → Bool} {g : α → β} {f : α → γ}

theorem sameItems_map {as : List α} (h : ∀ a ∈ as, same (g a) (f a) = true) :
    sameItems same (as.map g) (as.map f) = true := by
  induction as with
  | nil => rfl
  | cons a rest ih =>
    obtain ⟨first, others⟩ := List.forall_mem_cons.1 h
    rw [List.map_cons, List.map_cons, sameItems, first, ih others]
    rfl

theorem sameOption_map {x : Option α} (h : ∀ a, x = some a → same (g a) (f a) = true) :
    sameOption same (x.map g) (x.map f) = true := by
  cases x with
  | none => rfl
  | some a => exact h a rfl

end Shapes

section Same

variable {α β : Type} {same : β → α → Bool} {g : α → β}

theorem sameItems_map_left {as : List α} (h : ∀ a ∈ as, same (g a) a = true) :
    sameItems same (as.map g) as = true := by
  have mapped : sameItems same (as.map g) (as.map id) = true := sameItems_map h
  rwa [List.map_id] at mapped

theorem sameOption_map_left {x : Option α} (h : ∀ a, x = some a → same (g a) a = true) :
    sameOption same (x.map g) x = true := by
  cases x with
  | none => rfl
  | some a => exact h a rfl

end Same

section Reflexive

variable {α : Type} {same : α → α → Bool}

theorem sameItems_self {as : List α} (h : ∀ a ∈ as, same a a = true) :
    sameItems same as as = true := by
  have mapped : sameItems same (as.map id) as = true := sameItems_map_left h
  rwa [List.map_id] at mapped

theorem sameOption_self {x : Option α} (h : ∀ a, x = some a → same a a = true) :
    sameOption same x x = true := by
  cases x with
  | none => rfl
  | some a => exact h a rfl

end Reflexive

theorem Literal.sameValue_self {v : Literal} (finite : v.IsFinite) :
    v.sameValue v = true := by
  cases v with
  | number x =>
    have finite := finite x List.mem_cons_self
    cases x with
    | finite x => exact beq_self_eq_true x.signedUnits
    | infinite | nan => cases finite
  | _ => exact beq_self_eq_true _

section Operands

variable {E F : Type} {same : F → E → Bool} {g : E → F}

theorem OrderTerm.sameBy_map {t : OrderTerm E} (h : same (g t.expr) t.expr = true) :
    (t.map g).sameBy same t = true := by
  simp [sameBy, map, h]

theorem WindowDefinition.sameBy_map {d : WindowDefinition E}
    (h : ∀ e ∈ d.operands, same (g e) e = true) : (d.map g).sameBy same d = true := by
  have partitionBy : sameItems same (d.partitionBy.map g) d.partitionBy = true :=
    sameItems_map_left fun e he => h e (List.mem_append_left _ he)
  have orderBy : sameItems (OrderTerm.sameBy same) (d.orderBy.map (OrderTerm.map g)) d.orderBy =
      true := by
    refine sameItems_map_left fun t ht => OrderTerm.sameBy_map ?_
    exact h _ (List.mem_append_right _ (List.mem_map_of_mem ht))
  simp [sameBy, map, partitionBy, orderBy]

theorem WindowFunction.sameBy_map {w : WindowFunction E}
    (h : ∀ e ∈ w.operands, same (g e) e = true) : (w.map g).sameBy same w = true := by
  have argument : sameOption same (w.argument.map g) w.argument = true :=
    sameOption_map_left fun e he => h e (List.mem_append_left _ (Option.mem_toList.2 he))
  have window : (w.window.map g).sameBy same w.window = true := by
    cases hw : w.window with
    | named name => exact beq_self_eq_true name
    | inline definition =>
      refine WindowDefinition.sameBy_map fun e he => h e (List.mem_append_right _ ?_)
      rw [hw]
      exact he
  simp [sameBy, map, argument, window]

theorem ExprNode.sameBy_map {n : ExprNode E} (finite : ∀ x ∈ n.ownNumbers, x.IsFinite)
    (h : ∀ e ∈ n.operands, same (g e) e = true) : (n.map g).sameBy same n = true := by
  cases n with
  | column table name => simp [sameBy, map]
  | literal value => exact Literal.sameValue_self finite
  | unary operator operand => simp [sameBy, map, h operand List.mem_cons_self]
  | test operand operator => simp [sameBy, map, h operand List.mem_cons_self]
  | binary left operator right =>
    have right := h right (List.mem_cons_of_mem _ List.mem_cons_self)
    simp [sameBy, map, h left List.mem_cons_self, right]
  | cast operand type => simp [sameBy, map, h operand List.mem_cons_self]
  | call name arguments =>
    have inside : sameItems same (arguments.map g) arguments = true := sameItems_map_left h
    simp [sameBy, map, inside]
  | window function => exact WindowFunction.sameBy_map h

end Operands

theorem Expr.sameValue_self {e : Expr} (finite : e.IsFinite) : e.sameValue e = true := by
  induction e using Expr.induction with
  | step n ih =>
    obtain ⟨numbers, inside⟩ := isFinite_node.1 finite
    unfold sameValue
    rw [fold_node]
    exact ExprNode.sameBy_map numbers fun e he => ih e he (inside e he)

theorem OrderTerm.sameBy_self {t : OrderTerm Expr} (finite : t.expr.IsFinite) :
    t.sameBy Expr.sameValue t = true := by
  simp [sameBy, Expr.sameValue_self finite]

theorem WindowDefinition.sameBy_self {d : WindowDefinition Expr}
    (finite : ∀ e ∈ d.operands, e.IsFinite) : d.sameBy Expr.sameValue d = true := by
  have partitionBy : sameItems Expr.sameValue d.partitionBy d.partitionBy = true :=
    sameItems_self fun e he => Expr.sameValue_self (finite e (List.mem_append_left _ he))
  have orderBy : sameItems (OrderTerm.sameBy Expr.sameValue) d.orderBy d.orderBy = true :=
    sameItems_self fun t ht => OrderTerm.sameBy_self
      (finite _ (List.mem_append_right _ (List.mem_map_of_mem ht)))
  simp [sameBy, partitionBy, orderBy]

theorem WindowFunction.sameBy_self {w : WindowFunction Expr}
    (finite : ∀ e ∈ w.operands, e.IsFinite) : w.sameBy Expr.sameValue w = true := by
  have argument : sameOption Expr.sameValue w.argument w.argument = true :=
    sameOption_self fun e he => Expr.sameValue_self
      (finite e (List.mem_append_left _ (Option.mem_toList.2 he)))
  have window : w.window.sameBy Expr.sameValue w.window = true := by
    have inside : ∀ e ∈ w.window.operands, e.IsFinite := fun e he =>
      finite e (List.mem_append_right _ he)
    cases hw : w.window with
    | named name => exact beq_self_eq_true name
    | inline definition =>
      rw [hw] at inside
      exact WindowDefinition.sameBy_self inside
  simp [sameBy, argument, window]

theorem SelectModifier.sameValue_self {m : SelectModifier}
    (finite : ∀ e, m.distinctOn = some e → e.IsFinite) : m.sameValue m = true := by
  cases m with
  | all => rfl
  | distinct on => exact sameOption_self fun e he => Expr.sameValue_self (finite e he)
  | locked clause => exact beq_self_eq_true clause

theorem ResultColumn.sameValue_self {c : ResultColumn} (finite : ∀ e ∈ c.operands, e.IsFinite) :
    c.sameValue c = true := by
  cases c with
  | expr value asName => simp [sameValue, Expr.sameValue_self (finite value List.mem_cons_self)]
  | star => rfl

/-- Windows are compared as maps. -/
theorem NamedWindows.sameValue_of_find?_eq {w v : NamedWindows}
    (finite : ∀ entry ∈ w.entries, ∀ e ∈ entry.2.operands, e.IsFinite)
    (size : w.names.length = v.names.length) (same : ∀ name, v.find? name = w.find? name) :
    w.sameValue v = true := by
  have lengths : w.entries.length = v.entries.length := by
    rwa [names, names, List.length_map, List.length_map] at size
  unfold sameValue
  rw [lengths, beq_self_eq_true, Bool.true_and, List.all_eq_true]
  intro entry he
  have found : v.find? entry.1 = some entry.2 :=
    (same entry.1).trans ((lookup_eq_some_iff_mem w.nodup).2 he)
  rw [found]
  exact WindowDefinition.sameBy_self (finite entry he)

theorem NamedWindows.sameValue_byName {w : NamedWindows}
    (finite : ∀ entry ∈ w.entries, ∀ e ∈ entry.2.operands, e.IsFinite) :
    w.sameValue w.byName = true := by
  refine sameValue_of_find?_eq finite ?_ fun name => find?_byName
  exact (w.byName_perm.map Prod.fst).length_eq.symm

section Nested

variable {Q R S : Type} {same : R → S → Bool} {g : Q → R} {f : Q → S}

theorem FromItem.sameBy_map {i : FromItem Q} (h : ∀ q ∈ i.nested, same (g q) (f q) = true) :
    (i.map g).sameBy same (i.map f) = true := by
  cases i with
  | table name only asName => simp [sameBy, map]
  | subquery query asName => simp [sameBy, map, h query List.mem_cons_self]

theorem Join.sameBy_map {j : Join Q} (finite : ∀ e, j.on = some e → e.IsFinite)
    (h : ∀ q ∈ j.item.nested, same (g q) (f q) = true) :
    (j.map g).sameBy same (j.map f) = true := by
  have on : sameOption Expr.sameValue j.on j.on = true :=
    sameOption_self fun e he => Expr.sameValue_self (finite e he)
  simp [sameBy, map, FromItem.sameBy_map h, on]

theorem Cte.sameBy_map {c : Cte Q} (h : same (g c.query) (f c.query) = true) :
    (c.map g).sameBy same (c.map f) = true := by
  simp [sameBy, map, h]

theorem SetOperation.sameBy_map {s : SetOperation Q} (h : same (g s.query) (f s.query) = true) :
    (s.map g).sameBy same (s.map f) = true := by
  simp [sameBy, map, h]

/-- Clauses are the same if their nested statements are and their windows are the same map. -/
theorem Clauses.sameBy_map {c : Clauses Q} (finite : ∀ e ∈ c.expressions, e.IsFinite)
    (nested : ∀ q ∈ c.nested, same (g q) (f q) = true)
    {v : NamedWindows} (windows : c.windows.sameValue v = true) :
    (c.map g).sameBy same { c.map f with windows := v } = true := by
  obtain ⟨ofCtes, ofItems, ofJoins, ofArm⟩ := forall_nested_iff.1 nested
  obtain ⟨inColumns, inFunctions, inDistinct, inJoins, inFilter, inGroup, inHaving, -, inOrder⟩ :=
    forall_expressions_iff.1 finite
  have withClause : sameOption (WithClause.sameBy same) (c.withClause.map (WithClause.map g))
      (c.withClause.map (WithClause.map f)) = true := by
    refine sameOption_map fun w hw => ?_
    refine sameItems_map fun cte hc => ?_
    exact Cte.sameBy_map (ofCtes cte (mem_ctes.2 ⟨w, hw, hc⟩))
  have modifier := SelectModifier.sameValue_self inDistinct
  have columns : sameItems ResultColumn.sameValue c.columns c.columns = true :=
    sameItems_self fun r hr => ResultColumn.sameValue_self (inColumns r hr)
  have functions : sameItems (WindowFunction.sameBy Expr.sameValue) c.windowFunctions
      c.windowFunctions = true :=
    sameItems_self fun w hw => WindowFunction.sameBy_self (inFunctions w hw)
  have items : sameItems (FromItem.sameBy same) (c.fromItems.map (FromItem.map g))
      (c.fromItems.map (FromItem.map f)) = true :=
    sameItems_map fun i hi => FromItem.sameBy_map (ofItems i hi)
  have joins : sameItems (Join.sameBy same) (c.joins.map (Join.map g))
      (c.joins.map (Join.map f)) = true :=
    sameItems_map fun j hj => Join.sameBy_map (inJoins j hj) (ofJoins j hj)
  have filter : sameOption Expr.sameValue c.filter c.filter = true :=
    sameOption_self fun e he => Expr.sameValue_self (inFilter e he)
  have groupBy : sameItems Expr.sameValue c.groupBy c.groupBy = true :=
    sameItems_self fun e he => Expr.sameValue_self (inGroup e he)
  have having : sameOption Expr.sameValue c.having c.having = true :=
    sameOption_self fun e he => Expr.sameValue_self (inHaving e he)
  have orderBy : sameItems (OrderTerm.sameBy Expr.sameValue) c.orderBy c.orderBy = true :=
    sameItems_self fun t ht => OrderTerm.sameBy_self (inOrder t ht)
  have arm : sameOption (SetOperation.sameBy same) (c.setOperation.map (SetOperation.map g))
      (c.setOperation.map (SetOperation.map f)) = true :=
    sameOption_map fun s hs => SetOperation.sameBy_map (ofArm s hs)
  simp only [sameBy, map, withClause, modifier, columns, functions, items, joins, filter, groupBy,
    having, windows, orderBy, beq_self_eq_true, arm, Bool.and_self]

end Nested
end QueryForge
