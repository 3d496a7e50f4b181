import QueryForge.Proofs.Json.Agreement
import QueryForge.Proofs.Select.WindowOrder
import QueryForge.Select.Dump

/-!
# Statements from text and from request values

Read from a request value, a statement is what it is when read from text, up to the order of the
named windows: a sorted object has lost the order in which they were registered. Field by field
everything else is the same.
-/

namespace QueryForge

open Json

theorem ColumnType.agrees : Agrees replay replay id := agrees_oneOf _ _

theorem Column.agrees : Agrees replay replay id := by
  refine FieldsAgree.record fieldNames fun l m slots => ?_
  dsimp only
  split
  · dsimp only [sortedSlots, List.map_cons, List.map_nil]
    refine agrees_string.required.bind fun name => ?_
    refine ColumnType.agrees.required.bind fun type => ?_
    refine agrees_boolean.required.bind fun nullable => ?_
    refine agrees_boolean.required.bind fun identity => ?_
    exact .some rfl
  · exact .none_left

theorem Literal.agrees : Agrees replay replay id := by
  refine VariantsAgree.variant fun l m name content => ?_
  dsimp only
  split
  · exact .bare rfl
  · exact agrees_signed64.single.map fun _ => rfl
  · exact agrees_boolean.single.map fun _ => rfl
  · exact agrees_string.single.map fun _ => rfl
  · exact agrees_double.single.map fun _ => rfl
  · refine FieldsAgree.fields fun l m slots => ?_
    dsimp only
    split
    · dsimp only [sortedSlots, List.map_cons, List.map_nil]
      refine agrees_string.required.bind fun literal => ?_
      refine ColumnType.agrees.required.bind fun type => ?_
      exact .some rfl
    · exact .none_left
  · exact .none_left

section Windows

variable {E : Type} {d d' : Decoder E}

theorem SortOrder.agrees : Agrees replay replay id := agrees_oneOf _ _

theorem NullsOrder.agrees : Agrees replay replay id := agrees_oneOf _ _

theorem FrameMode.agrees : Agrees replay replay id := agrees_oneOf _ _

theorem FrameExclusion.agrees : Agrees replay replay id := agrees_oneOf _ _

theorem WindowKind.agrees : Agrees replay replay id := agrees_oneOf _ _

theorem OrderTerm.agrees (operand : Agrees d d' id) : Agrees (replay d) (replay d') id := by
  refine FieldsAgree.record fieldNames fun l m slots => ?_
  dsimp only
  split
  · dsimp only [sortedSlots, List.map_cons, List.map_nil]
    refine operand.required.bind fun expr => ?_
    refine SortOrder.agrees.optional_same.bind fun order => ?_
    refine NullsOrder.agrees.optional_same.bind fun nulls => ?_
    exact .some rfl
  · exact .none_left

theorem FrameBound.agrees : Agrees replay replay id := by
  refine VariantsAgree.variant fun l m name content => ?_
  dsimp only
  split
  · exact .bare rfl
  · exact agrees_unsigned32.single.map fun _ => rfl
  · exact .bare rfl
  · exact agrees_unsigned32.single.map fun _ => rfl
  · exact .bare rfl
  · exact .none_left

theorem WindowFrame.agrees : Agrees replay replay id := by
  refine FieldsAgree.record fieldNames fun l m slots => ?_
  dsimp only
  split
  · dsimp only [sortedSlots, List.map_cons, List.map_nil]
    refine FrameMode.agrees.required.bind fun mode => ?_
    refine FrameBound.agrees.required.bind fun start => ?_
    refine FrameBound.agrees.optional_same.bind fun stop => ?_
    refine FrameExclusion.agrees.optional_same.bind fun exclusion => ?_
    exact .some rfl
  · exact .none_left

theorem WindowDefinition.agrees (operand : Agrees d d' id) :
    Agrees (replay d) (replay d') id := by
  refine FieldsAgree.record fieldNames fun l m slots => ?_
  dsimp only
  split
  · dsimp only [sortedSlots, List.map_cons, List.map_nil]
    refine operand.list_same.required.bind fun partitionBy => ?_
    refine (OrderTerm.agrees operand).list_same.required.bind fun orderBy => ?_
    refine WindowFrame.agrees.optional_same.bind fun frame => ?_
    exact .some rfl
  · exact .none_left

theorem WindowReference.agrees (operand : Agrees d d' id) :
    Agrees (replay d) (replay d') id := by
  refine VariantsAgree.variant fun l m name content => ?_
  dsimp only
  split
  · exact agrees_string.single.map fun _ => rfl
  · exact (WindowDefinition.agrees operand).single.map fun _ => rfl
  · exact .none_left

theorem WindowFunction.agrees (operand : Agrees d d' id) :
    Agrees (replay d) (replay d') id := by
  refine FieldsAgree.record fieldNames fun l m slots => ?_
  dsimp only
  split
  · dsimp only [sortedSlots, List.map_cons, List.map_nil]
    refine WindowKind.agrees.required.bind fun kind => ?_
    refine operand.optional_same.bind fun argument => ?_
    refine (WindowReference.agrees operand).required.bind fun window => ?_
    exact .some rfl
  · exact .none_left

end Windows

theorem UnaryOperator.agrees : Agrees replay replay id := agrees_oneOf _ _

theorem TestOperator.agrees : Agrees replay replay id := agrees_oneOf _ _

theorem BinaryOperator.agrees : Agrees replay replay id := agrees_oneOf _ _

theorem ExprNode.agrees {E : Type} {d d' : Decoder E} (operand : Agrees d d' id) :
    Agrees (replay d) (replay d') id := by
  refine VariantsAgree.variant fun l m name content => ?_
  dsimp only
  split
  case h_1 =>
    refine FieldsAgree.fields fun l m slots => ?_
    dsimp only
    split
    · dsimp only [sortedSlots, List.map_cons, List.map_nil]
      refine agrees_string.optional_same.bind fun table => ?_
      refine agrees_string.required.bind fun name => ?_
      exact .some rfl
    · exact .none_left
  case h_2 => exact Literal.agrees.single.map fun _ => rfl
  case h_3 =>
    refine FieldsAgree.items fun l m slots => ?_
    dsimp only
    split
    · dsimp only [sortedSlots, List.map_cons, List.map_nil]
      refine UnaryOperator.agrees.required.bind fun operator => ?_
      refine operand.required.bind fun inner => ?_
      exact .some rfl
    · exact .none_left
  case h_4 =>
    refine FieldsAgree.items fun l m slots => ?_
    dsimp only
    split
    · dsimp only [sortedSlots, List.map_cons, List.map_nil]
      refine operand.required.bind fun inner => ?_
      refine TestOperator.agrees.required.bind fun operator => ?_
      exact .some rfl
    · exact .none_left
  case h_5 =>
    refine FieldsAgree.items fun l m slots => ?_
    dsimp only
    split
    · dsimp only [sortedSlots, List.map_cons, List.map_nil]
      refine operand.required.bind fun left => ?_
      refine BinaryOperator.agrees.required.bind fun operator => ?_
      refine operand.required.bind fun right => ?_
      exact .some rfl
    · exact .none_left
  case h_6 =>
    refine FieldsAgree.items fun l m slots => ?_
    dsimp only
    split
    · dsimp only [sortedSlots, List.map_cons, List.map_nil]
      refine operand.required.bind fun inner => ?_
      refine ColumnType.agrees.required.bind fun type => ?_
      exact .some rfl
    · exact .none_left
  case h_7 =>
    refine FieldsAgree.fields fun l m slots => ?_
    dsimp only
    split
    · dsimp only [sortedSlots, List.map_cons, List.map_nil]
      refine agrees_string.required.bind fun name => ?_
      refine operand.list_same.required.bind fun arguments => ?_
      exact .some rfl
    · exact .none_left
  case h_8 => exact (WindowFunction.agrees operand).single.map fun _ => rfl
  case h_9 => exact .none_left

namespace Expr

/-- By induction on the nodes that the reader of text may still read. -/
theorem agrees_nested (n n' : Nat) : Agrees (replayNested n) (replayNested n') id := by
  induction n generalizing n' with
  | zero => exact fun _ _ _ => .none_left
  | succ n ih =>
    cases n' with
    | zero => exact fun _ _ _ => .none_right
    | succ n' => exact fun l m j => (ExprNode.agrees (ih n') l m j).map fun _ => rfl

theorem agrees : Agrees replay replay id := fun l m j => agrees_nested l m l m j

end Expr

theorem SelectModifier.agrees : Agrees replay replay id := by
  refine VariantsAgree.variant fun l m name content => ?_
  dsimp only
  split
  · exact .bare rfl
  · refine FieldsAgree.fields fun l m slots => ?_
    dsimp only
    split
    · dsimp only [sortedSlots, List.map_cons, List.map_nil]
      exact Expr.agrees.optional_same.map fun _ => rfl
    · exact .none_left
  · exact (agrees_oneOf LockingClause.all LockingClause.dumpName).single.map fun _ => rfl
  · exact .none_left

theorem ResultColumn.agrees : Agrees replay replay id := by
  refine VariantsAgree.variant fun l m name content => ?_
  dsimp only
  split
  · refine FieldsAgree.items fun l m slots => ?_
    dsimp only
    split
    · dsimp only [sortedSlots, List.map_cons, List.map_nil]
      refine Expr.agrees.required.bind fun value => ?_
      refine agrees_string.optional_same.bind fun asName => ?_
      exact .some rfl
    · exact .none_left
  · exact .bare rfl
  · exact .none_left

theorem JoinKind.agrees : Agrees replay replay id := agrees_oneOf _ _

theorem SetOperator.agrees : Agrees replay replay id := agrees_oneOf _ _

section Nested

variable {Q R : Type} {d : Decoder Q} {d' : Decoder R} {f : Q → R}

theorem FromItem.agrees (nested : Agrees d d' f) :
    Agrees (replay d) (replay d') (FromItem.map f) := by
  refine VariantsAgree.variant fun l m name content => ?_
  dsimp only
  split
  · refine FieldsAgree.fields fun l m slots => ?_
    dsimp only
    split
    · dsimp only [sortedSlots, List.map_cons, List.map_nil]
      refine agrees_string.required.bind fun name => ?_
      refine agrees_boolean.required.bind fun only => ?_
      refine agrees_string.optional_same.bind fun asName => ?_
      exact .some rfl
    · exact .none_left
  · refine FieldsAgree.fields fun l m slots => ?_
    dsimp only
    split
    · dsimp only [sortedSlots, List.map_cons, List.map_nil]
      refine nested.required.bind fun query => ?_
      refine agrees_string.required.bind fun asName => ?_
      exact .some rfl
    · exact .none_left
  · exact .none_left

theorem Join.agrees (nested : Agrees d d' f) : Agrees (replay d) (replay d') (Join.map f) := by
  refine FieldsAgree.record fieldNames fun l m slots => ?_
  dsimp only
  split
  · dsimp only [sortedSlots, List.map_cons, List.map_nil]
    refine JoinKind.agrees.required.bind fun kind => ?_
    refine (FromItem.agrees nested).required.bind fun item => ?_
    refine Expr.agrees.optional_same.bind fun on => ?_
    exact .some rfl
  · exact .none_left

theorem Cte.agrees (nested : Agrees d d' f) : Agrees (replay d) (replay d') (Cte.map f) := by
  refine FieldsAgree.record fieldNames fun l m slots => ?_
  dsimp only
  split
  · dsimp only [sortedSlots, List.map_cons, List.map_nil]
    refine agrees_string.required.bind fun name => ?_
    refine agrees_string.list_same.required.bind fun columnAliases => ?_
    refine nested.required.bind fun query => ?_
    refine Column.agrees.list_same.required.bind fun columns => ?_
    exact .some rfl
  · exact .none_left

theorem WithClause.agrees (nested : Agrees d d' f) :
    Agrees (replay d) (replay d') (WithClause.map f) := by
  refine FieldsAgree.record fieldNames fun l m slots => ?_
  dsimp only
  split
  · dsimp only [sortedSlots, List.map_cons, List.map_nil]
    exact (Cte.agrees nested).list.required.map fun _ => rfl
  · exact .none_left

theorem SetOperation.agrees (nested : Agrees d d' f) :
    Agrees (replay d) (replay d') (SetOperation.map f) := by
  refine FieldsAgree.record fieldNames fun l m slots => ?_
  dsimp only
  split
  · dsimp only [sortedSlots, List.map_cons, List.map_nil]
    refine SetOperator.agrees.required.bind fun operator => ?_
    refine nested.required.bind fun query => ?_
    exact .some rfl
  · exact .none_left

end Nested

namespace NamedWindows

/-- A sorted object lists what is registered last under each name, in the order of the names. -/
theorem agrees_entries :
    Agrees (Decoder.entries (WindowDefinition.replay Expr.replay))
      (Decoder.entries (WindowDefinition.replay Expr.replay))
      fun entries => (empty.putAll entries).byName.entries := by
  intro l m j
  cases j with
  | object members =>
    refine .enter fun l m => ?_
    intro written held hw hh
    have fromText := mapM_entries_eq_some_iff.1 hw
    have fromSorted := mapM_entries_eq_some_iff.1 hh
    refine eq_of_lookup_eq (fromSorted.map_fst ▸ sorted_sortMembers) (sorted_byName _) ?_
    intro name
    have registered : (empty.putAll written).byName.entries.lookup name =
        lastValue? name written := by
      refine find?_byName.trans (find?_putAll.trans ?_)
      exact Option.or_none
    rw [registered]
    have last : Option.Rel _ (lastValue? name members) (lastValue? name written) :=
      fromText.lastValue?
    have found : Option.Rel _ ((lastValue? name members).map sorted) (held.lookup name) :=
      lookup_sorted_members ▸ fromSorted.lookup
    generalize lastValue? name members = x at last found
    generalize lastValue? name written = y at last ⊢
    generalize held.lookup name = z at found ⊢
    cases last with
    | none =>
      cases found
      rfl
    | some read =>
      cases found with
      | some readSorted =>
        exact congrArg some ((WindowDefinition.agrees Expr.agrees) l m _ _ _ read readSorted)
  | _ => exact .none_left

theorem agrees : Agrees replay replay byName :=
  fun l m j => (agrees_entries l m j).map fun _ => putAll_entries _

end NamedWindows

/-- The clauses with other nested statements and their own windows in the order of the names. -/
def Clauses.windowsByName {Q R : Type} (f : Q → R) (c : Clauses Q) : Clauses R :=
  { c.map f with windows := c.windows.byName }

theorem Clauses.agrees {Q R : Type} {d : Decoder Q} {d' : Decoder R} {f : Q → R}
    (nested : Agrees d d' f) : Agrees (replay d) (replay d') (windowsByName f) := by
  refine FieldsAgree.record fieldNames fun l m slots => ?_
  dsimp only
  split
  · dsimp only [sortedSlots, List.map_cons, List.map_nil]
    refine (WithClause.agrees nested).optional.bind fun withClause => ?_
    refine SelectModifier.agrees.required.bind fun modifier => ?_
    refine ResultColumn.agrees.list_same.required.bind fun columns => ?_
    refine (WindowFunction.agrees Expr.agrees).list_same.required.bind fun functions => ?_
    refine (FromItem.agrees nested).list.required.bind fun items => ?_
    refine (Join.agrees nested).list.required.bind fun joins => ?_
    refine Expr.agrees.optional_same.bind fun filter => ?_
    refine Expr.agrees.list_same.required.bind fun groupBy => ?_
    refine Expr.agrees.optional_same.bind fun having => ?_
    refine NamedWindows.agrees.required.bind fun windows => ?_
    refine (OrderTerm.agrees Expr.agrees).list_same.required.bind fun orderBy => ?_
    refine agrees_unsigned64.optional_same.bind fun limit => ?_
    refine agrees_unsigned64.optional_same.bind fun offset => ?_
    refine (SetOperation.agrees nested).optional.bind fun arm => ?_
    exact .some rfl
  · exact .none_left

namespace Select

/-- The statement with the named windows of every statement inside in the order of their names. -/
def windowsByName : Select → Select :=
  fold fun c => .node { c with windows := c.windows.byName }

theorem windowsByName_node (c : Clauses Select) :
    (node c).windowsByName = .node (c.windowsByName windowsByName) := fold_node ..

/-- By induction on the statements that the reader of text may still read. -/
theorem agrees_nested (n n' : Nat) :
    Agrees (replayNested n) (replayNested n') windowsByName := by
  induction n generalizing n' with
  | zero => exact fun _ _ _ => .none_left
  | succ n ih =>
    cases n' with
    | zero => exact fun _ _ _ => .none_right
    | succ n' =>
      exact fun l m j => (Clauses.agrees (ih n') l m j).map fun c => (windowsByName_node c).symm

theorem agrees : Agrees replay replay windowsByName := fun l m j => agrees_nested l m l m j

end Select
end QueryForge
