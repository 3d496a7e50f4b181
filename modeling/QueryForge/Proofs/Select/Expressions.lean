import QueryForge.Proofs.References
import QueryForge.Proofs.Select.Choices

/-!
# The expressions of random statements

Every expression of a random statement is a column of the statement's scope or a predicate over
it, so a property of both is one of all expressions.
-/

namespace QueryForge

variable {tables : List Table} {o : QueryOptions} {table : Table} {c : SelectChoices}

namespace Predicate

variable {scope shown : List ScopeColumn} {depth : Nat} {e : Expr}

/-- A constant takes the place of a column only where there is none. -/
theorem Leaf.mono (h : Leaf shown e) (sub : shown ⊆ scope) (some : scope ≠ [] → shown ≠ []) :
    Leaf scope e := by
  cases h with
  | constant empty => exact .constant (Decidable.not_not.1 fun more => some more empty)
  | nullTest mem test => exact .nullTest (sub mem) test
  | truthTest mem type test => exact .truthTest (sub mem) type test
  | columns left right other type comparison =>
    exact .columns (sub left) (sub right) other type comparison
  | literal mem comparison drawn => exact .literal (sub mem) comparison drawn

theorem Over.mono (h : Over shown depth e) (sub : shown ⊆ scope) (some : scope ≠ [] → shown ≠ []) :
    Over scope depth e := by
  induction h with
  | leaf h => exact .leaf (h.mono sub some)
  | and _ _ left right => exact .and left right
  | or _ _ left right => exact .or left right
  | not _ operand => exact .not operand

end Predicate

/-- A column of the scope, or a predicate over it with at most so many connectives inside each
other. -/
inductive Expr.Drawn (scope : List ScopeColumn) (depth : Nat) : Expr → Prop
  | column {c : ScopeColumn} (mem : c ∈ scope) : Drawn scope depth c.expr
  | predicate {e : Expr} (grown : Predicate.Over scope depth e) : Drawn scope depth e

theorem Expr.Drawn.within {scope : List ScopeColumn} {depth : Nat} {e : Expr}
    (h : e.Drawn scope depth) : e.Within scope := by
  cases h with
  | column mem => exact ScopeColumn.expr_within mem
  | predicate grown => exact grown.within

theorem CteSource.Drawn.expressions_drawn {index : Nat} {d : CteSource}
    (h : CteSource.Drawn tables o index d) :
    ∃ t ∈ tables, d.cte.query.clauses.items = [.ofTable t.name] ∧
      d.cte.query.clauses.columns = d.cte.columns.map (fun c => .ofScope ⟨t.name, c⟩) ∧
      ∀ e ∈ d.cte.query.clauses.expressions, e.Drawn (Source.ofTable t).scope o.predicateDepth := by
  obtain @⟨table, columns, filter, aliases, read, kept, shown, filtered, named⟩ := h
  refine ⟨table, read, rfl, rfl, ?_⟩
  apply Clauses.forall_mem_expressions
  case columns =>
    intro r hr e he
    obtain ⟨column, hc, rfl⟩ := List.mem_map.1 hr
    rw [List.mem_singleton.1 he]
    exact .column (List.mem_map_of_mem (kept.subset hc))
  case filter => exact fun e he => .predicate (filtered e he)
  all_goals exact fun _ h => (nomatch h)

section Windows

variable {scope projected : List ScopeColumn} {depth : Nat}

theorem WindowDefinition.Drawn.operands_drawn {d : WindowDefinition Expr} (h : d.Drawn scope) :
    ∀ e ∈ d.operands, e.Drawn scope depth := by
  intro e he
  rcases List.mem_append.1 he with he | he
  · rcases h.partitionBy with hp | ⟨c, mem, hp⟩
    · rw [hp] at he
      exact nomatch he
    · rw [hp, List.mem_singleton] at he
      exact he ▸ .column mem
  · rcases h.orderBy with ho | ⟨c, mem, -, ho⟩
    · rw [ho] at he
      exact nomatch he
    · rw [ho, List.map_singleton, List.mem_singleton] at he
      exact he ▸ .column mem

theorem WindowFunction.Drawn.operands_drawn {window : WindowReference Expr}
    {f : WindowFunction Expr} (h : f.Drawn scope window)
    (inline : ∀ d, window = .inline d → d.Drawn scope) :
    ∀ e ∈ f.operands, e.Drawn scope depth := by
  intro e he
  rcases List.mem_append.1 he with he | he
  · cases takes : f.kind.takesArgument with
    | false =>
      rw [h.noArgument takes] at he
      exact nomatch he
    | true =>
      obtain ⟨c, mem, -, same⟩ := h.argument takes
      rw [same, Option.toList_some, List.mem_singleton] at he
      exact he ▸ .column mem
  · rw [h.window] at he
    cases window with
    | named name => exact nomatch he
    | inline d => exact (inline d rfl).operands_drawn e he

namespace SelectShape.Permitted

variable {shape : SelectShape}

/-- Every window function was drawn over a window of its statement or one of its own. -/
theorem functions_drawn (h : shape.Permitted o scope projected) :
    ∀ f ∈ shape.windowFunctions, ∃ window : WindowReference Expr, f.Drawn scope window ∧
      ∀ d, window = .inline d → d.Drawn scope := by
  cases h with
  | plain => exact fun f hf => (nomatch hf)
  | grouped h => exact fun f hf => (nomatch hf)
  | @windowed named drawn count amount h =>
    intro f hf
    obtain ⟨w, hw, rfl⟩ := List.mem_map.1 hf
    obtain ⟨index, -, hd⟩ := Draw.exists_of_forall₂ h w hw
    refine ⟨_, hd.function, ?_⟩
    intro d same
    cases named with
    | true => exact nomatch same
    | false => exact WindowReference.inline.inj same ▸ hd.definition

theorem definitions_drawn (h : shape.Permitted o scope projected) :
    ∀ w ∈ shape.windows.entries, w.2.Drawn scope := by
  cases h with
  | plain => exact fun w hw => (nomatch hw)
  | grouped h => exact fun w hw => (nomatch hw)
  | @windowed named drawn count amount h =>
    cases named with
    | false => exact fun w hw => (nomatch hw)
    | true =>
      intro entry he
      rcases NamedWindows.mem_putAll he with he | he
      · exact nomatch he
      · obtain ⟨w, hw, rfl⟩ := List.mem_map.1 he
        obtain ⟨index, -, hd⟩ := Draw.exists_of_forall₂ h w hw
        exact hd.definition

theorem windowFunctions_drawn (h : shape.Permitted o scope projected) :
    ∀ f ∈ shape.windowFunctions, ∀ e ∈ f.operands, e.Drawn scope depth := by
  intro f hf
  obtain ⟨window, drawn, inline⟩ := h.functions_drawn f hf
  exact drawn.operands_drawn inline

theorem windows_drawn (h : shape.Permitted o scope projected) :
    ∀ w ∈ shape.windows.entries, ∀ e ∈ w.2.operands, e.Drawn scope depth := by
  intro w hw
  exact (h.definitions_drawn w hw).operands_drawn

end SelectShape.Permitted

end Windows

theorem SelectChoices.exists_of_distinctOn {e : Expr} (h : c.modifier.distinctOn = some e) :
    ∃ d, c.distinct = some (some d) ∧ e = d.expr := by
  unfold modifier at h
  cases hd : c.distinct with
  | none =>
    rw [hd] at h
    cases hl : c.lock <;> rw [hl] at h <;> exact nomatch h
  | some on =>
    rw [hd] at h
    obtain ⟨d, rfl, rfl⟩ := Option.map_eq_some_iff.1 h
    exact ⟨d, rfl, rfl⟩

namespace SelectChoices.Permitted

variable {depth : Nat}

theorem columns_drawn (h : c.Permitted tables o table) :
    ∀ r ∈ c.projected.map ResultColumn.ofScope, ∀ e ∈ r.operands,
      e.Drawn c.origin.scope depth := by
  intro r hr e he
  obtain ⟨d, hd, rfl⟩ := List.mem_map.1 hr
  rw [List.mem_singleton.1 he]
  exact .column (h.projected.subset hd)

theorem joins_drawn (h : c.Permitted tables o table) :
    ∀ j ∈ c.origin.joins, ∀ e, j.on = some e → e.Drawn c.origin.scope o.predicateDepth := by
  intro j hj e he
  obtain ⟨d, hd, rfl⟩ := List.mem_map.1 hj
  have drawn := h.origin.join d (Option.mem_toList.1 hd)
  have scope : c.origin.scope = c.origin.base.scope ++ d.source.scope := by
    rw [Select.Origin.scope, Option.mem_toList.1 hd]
    rfl
  rw [scope]
  by_cases cross : d.join.kind = .cross
  · rw [drawn.cross cross] at he
    exact nomatch he
  · obtain ⟨condition, hc, grown⟩ := drawn.on cross
    rw [← Option.some.inj (hc.symm.trans he)]
    exact .predicate grown

theorem groupBy_drawn (h : c.Permitted tables o table) :
    ∀ e ∈ c.shape.groupBy c.projected, e.Drawn c.origin.scope depth := by
  intro e he
  cases hs : c.shape with
  | plain => rw [hs] at he; exact nomatch he
  | windowed named drawn => rw [hs] at he; exact nomatch he
  | grouped having =>
    rw [hs] at he
    obtain ⟨d, hd, rfl⟩ := List.mem_map.1 he
    exact .column (h.projected.subset hd)

theorem having_drawn (h : c.Permitted tables o table) :
    ∀ e, c.shape.having = some e → e.Drawn c.origin.scope o.predicateDepth := by
  intro e he
  have permitted := h.shape
  cases hs : c.shape with
  | plain => rw [hs] at he; exact nomatch he
  | windowed named drawn => rw [hs] at he; exact nomatch he
  | grouped having =>
    rw [hs] at he permitted
    cases permitted with
    | grouped grown => exact .predicate ((grown e he).mono h.projected.subset h.shown)

theorem distinctOn_drawn (h : c.Permitted tables o table) :
    ∀ e, c.modifier.distinctOn = some e → e.Drawn c.origin.scope depth := by
  intro e he
  obtain ⟨d, hd, rfl⟩ := exists_of_distinctOn he
  exact .column (h.projected.subset (h.distinctOn d hd).1)

/-- Statements are ordered by columns that they show. -/
theorem orderBy_shown (h : c.Permitted tables o table) :
    ∀ t ∈ c.orderBy, ∃ d ∈ c.projected, d.isOrderable ∧ t.expr = d.expr := by
  intro t ht
  cases set : c.origin.setOperation with
  | true =>
    rw [(h.unordered set).1] at ht
    exact nomatch ht
  | false =>
    obtain ⟨more, terms, shown⟩ := (h.ordered set).1
    rw [terms] at ht
    rcases List.mem_append.1 ht with ht | ht
    · obtain ⟨d, hd, rfl⟩ := List.mem_map.1 ht
      have on : c.distinct = some (some d) := Option.join_eq_some_iff.1 (Option.mem_toList.1 hd)
      obtain ⟨mem, orderable⟩ := h.distinctOn d on
      exact ⟨d, mem, orderable, rfl⟩
    · exact shown t ht

theorem orderBy_drawn (h : c.Permitted tables o table) :
    ∀ t ∈ c.orderBy, t.expr.Drawn c.origin.scope depth := by
  intro t ht
  obtain ⟨d, mem, -, same⟩ := h.orderBy_shown t ht
  exact same ▸ .column (h.projected.subset mem)

theorem clauses_drawn (h : c.Permitted tables o table) :
    ∀ e ∈ c.clauses.expressions, e.Drawn c.origin.scope o.predicateDepth := by
  apply Clauses.forall_mem_expressions
  case columns => exact h.columns_drawn
  case windowFunctions => exact h.shape.windowFunctions_drawn
  case distinctOn => exact h.distinctOn_drawn
  case joins => exact h.joins_drawn
  case filter => exact fun e he => .predicate (h.filter e he)
  case groupBy => exact h.groupBy_drawn
  case having => exact h.having_drawn
  case windows => exact h.shape.windows_drawn
  case orderBy => exact h.orderBy_drawn

theorem armClauses_drawn (h : c.Permitted tables o table) {operator : SetOperator}
    {filter : Option Expr} (arm : c.arm = some (operator, filter)) :
    ∀ e ∈ (c.armClauses filter).expressions, e.Drawn c.origin.scope o.predicateDepth := by
  apply Clauses.forall_mem_expressions
  case columns => exact h.columns_drawn
  case windowFunctions => exact h.shape.windowFunctions_drawn
  case joins => exact h.joins_drawn
  case filter =>
    rintro e rfl
    exact .predicate (h.armFilter operator e arm)
  case windows => exact h.shape.windows_drawn
  all_goals exact fun _ h => (nomatch h)

end SelectChoices.Permitted
end QueryForge
