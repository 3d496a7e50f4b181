import Mathlib.Data.Prod.Lex
import QueryForge.Proofs.Names
import QueryForge.Proofs.Select.Shadowing

/-!
# How random statements use windows

The functions of a statement refer to its named windows in their order, one each. The second
statement of a set operation gets functions and windows alike, so that the same holds there.
-/

namespace QueryForge

variable {nan : Prop}

/-- The place of a bound among the rows: before, at or after the current one, and how far. -/
def FrameBound.position : FrameBound → ℤ ×ₗ ℤ
  | .unboundedPreceding => toLex (-2, 0)
  | .preceding offset => toLex (-1, -offset.toNat)
  | .currentRow => toLex (0, 0)
  | .following offset => toLex (1, offset.toNat)
  | .unboundedFollowing => toLex (2, 0)

/-- A frame counts rows, and its start does not come after its end. A frame without an end ends at
the current row. -/
structure WindowFrame.Forward (f : WindowFrame) : Prop where
  mode : f.mode = .rows
  ordered : f.start.position ≤ (f.stop.getD .currentRow).position

theorem WindowFrame.Drawn.forward {f : WindowFrame} (h : f.Drawn) : f.Forward := by
  refine ⟨h.mode, ?_⟩
  rw [h.stop, Option.getD_some]
  rcases h.start with start | ⟨offset, start⟩
  · rw [start]
    exact Prod.Lex.toLex_le_toLex.2 (.inl (show (-2 : ℤ) < 0 by decide))
  · rw [start]
    exact Prod.Lex.toLex_le_toLex.2 (.inl (show (-1 : ℤ) < 0 by decide))

structure WindowDefinition.SoundOver (scope : List ScopeColumn) (d : WindowDefinition Expr) :
    Prop where
  partitionBy : ∀ e ∈ d.partitionBy, ∃ c ∈ scope, e = c.expr
  orderBy : ∀ t ∈ d.orderBy, ∃ c ∈ scope, c.isOrderable ∧ t.expr = c.expr
  frame : ∀ f, d.frame = some f → f.Forward

/-- There is an argument exactly if the kind takes one: a column that the function can be computed
from. -/
structure WindowFunction.SoundOver (scope : List ScopeColumn) (f : WindowFunction Expr) :
    Prop where
  takes : f.argument.isSome = f.kind.takesArgument
  argument : ∀ e, f.argument = some e → ∃ c ∈ scope, e = c.expr ∧
    (f.kind = .sum → c.type.isNumeric) ∧ (f.kind = .min ∨ f.kind = .max → c.isOrderable)
  inline : ∀ d, f.window = .inline d → d.SoundOver scope

/-- The windows of a statement and their functions: what is referred to by name is defined, and
what is defined is referred to by one function. -/
structure Clauses.WindowsSound (scope : List ScopeColumn) (c : Clauses Select) : Prop where
  functions : ∀ f ∈ c.windowFunctions, f.SoundOver scope
  definitions : ∀ w ∈ c.windows.entries, w.2.SoundOver scope
  defined : ∀ f ∈ c.windowFunctions, ∀ name ∈ f.window.names, name ∈ c.windows.names
  referred : ∀ name ∈ c.windows.names,
    c.windowFunctions.countP (fun f => f.window.names.contains name) = 1

variable {scope projected : List ScopeColumn} {o : QueryOptions}

theorem WindowDefinition.Drawn.soundOver {d : WindowDefinition Expr} (h : d.Drawn scope) :
    d.SoundOver scope := by
  refine ⟨?_, ?_, fun f hf => (h.frame f hf).forward⟩
  · intro e he
    rcases h.partitionBy with none | ⟨c, mem, one⟩
    · rw [none] at he
      exact nomatch he
    · rw [one, List.mem_singleton] at he
      exact ⟨c, mem, he⟩
  · intro t ht
    rcases h.orderBy with none | ⟨c, mem, orderable, one⟩
    · rw [none] at ht
      exact nomatch ht
    · rw [one, List.mem_singleton] at ht
      exact ⟨c, mem, orderable, congrArg OrderTerm.expr ht⟩

theorem WindowFunction.Drawn.soundOver {f : WindowFunction Expr} {window : WindowReference Expr}
    (h : f.Drawn scope window) (inline : ∀ d, window = .inline d → d.Drawn scope) :
    f.SoundOver scope := by
  cases takes : f.kind.takesArgument with
  | false =>
    have none := h.noArgument takes
    refine ⟨?_, ?_, fun d same => (inline d (h.window.symm.trans same)).soundOver⟩
    · rw [none, takes]
      rfl
    · intro e he
      exact nomatch none.symm.trans he
  | true =>
    obtain ⟨c, mem, accepted, some⟩ := h.argument takes
    refine ⟨?_, ?_, fun d same => (inline d (h.window.symm.trans same)).soundOver⟩
    · rw [some, takes]
      rfl
    · intro e he
      refine ⟨c, mem, Option.some.inj (he.symm.trans some), ?_, ?_⟩
      · intro kind
        rwa [kind] at accepted
      · rintro (kind | kind) <;> rwa [kind] at accepted

theorem WindowFunction.countP_names (functions : List (WindowFunction Expr)) (name : String) :
    functions.countP (fun f => f.window.names.contains name) =
      (functions.flatMap fun f => f.window.names).count name := by
  induction functions with
  | nil => rfl
  | cons f rest ih =>
    rw [List.countP_cons, List.flatMap_cons, List.count_append, ih, Nat.add_comm]
    cases f.window with
    | inline d => rfl
    | named own =>
      by_cases same : own = name
      · subst same
        simp [WindowReference.names]
      · simp [WindowReference.names, same, Ne.symm same]

namespace DrawnWindow

theorem names_eq {indices : List Nat} {drawn : List DrawnWindow}
    (h : List.Forall₂ (Drawn scope true) indices drawn) :
    (drawn.map function).flatMap (fun f => f.window.names) = (drawn.map entry).map Prod.fst := by
  induction h with
  | nil => rfl
  | cons first _ ih =>
    rw [List.map_cons, List.flatMap_cons, ih, first.function.window]
    rfl

theorem nodup_names {indices : List Nat} {drawn : List DrawnWindow} {named : Bool}
    (h : List.Forall₂ (Drawn scope named) indices drawn) (distinct : indices.Nodup) :
    ((drawn.map entry).map Prod.fst).Nodup := by
  rw [map_name h]
  exact distinct.map (Sql.append_repr_injective "w")

end DrawnWindow

namespace SelectShape.Permitted

variable {shape : SelectShape}

/-- The functions refer to the named windows in the order of these, one each. -/
theorem names_windowFunctions (h : shape.Permitted o scope projected) :
    shape.windowFunctions.flatMap (fun f => f.window.names) = shape.windows.names := by
  cases h with
  | plain => rfl
  | grouped => rfl
  | @windowed named drawn count amount h =>
    cases named with
    | true =>
      have registered : (NamedWindows.empty.putAll (drawn.map DrawnWindow.entry)).entries =
          drawn.map DrawnWindow.entry :=
        NamedWindows.entries_putAll (DrawnWindow.nodup_names h List.nodup_range)
      change (drawn.map _).flatMap _ =
        (NamedWindows.empty.putAll (drawn.map DrawnWindow.entry)).entries.map Prod.fst
      rw [registered, DrawnWindow.names_eq h]
    | false =>
      refine List.flatMap_eq_nil_iff.2 ?_
      intro f hf
      obtain ⟨w, hw, rfl⟩ := List.mem_map.1 hf
      obtain ⟨index, -, hd⟩ := Draw.exists_of_forall₂ h w hw
      rw [hd.function.window]
      rfl

/-- Random functions that refer to a window by name come with its definition. -/
theorem defined (h : shape.Permitted o scope projected) :
    ∀ f ∈ shape.windowFunctions, ∀ name ∈ f.window.names, name ∈ shape.windows.names := by
  intro f hf name hn
  rw [← h.names_windowFunctions]
  exact List.mem_flatMap.2 ⟨f, hf, hn⟩

theorem referred (h : shape.Permitted o scope projected) :
    ∀ name ∈ shape.windows.names,
      shape.windowFunctions.countP (fun f => f.window.names.contains name) = 1 := by
  intro name hn
  rw [WindowFunction.countP_names, h.names_windowFunctions]
  exact List.count_eq_one_of_mem shape.windows.nodup hn

/-- Clauses with the windows and the functions of a drawn shape. -/
theorem windowsSound (h : shape.Permitted o scope projected) {c : Clauses Select}
    (functions : c.windowFunctions = shape.windowFunctions) (windows : c.windows = shape.windows) :
    c.WindowsSound scope := by
  refine ⟨?_, ?_, ?_, ?_⟩
  · rw [functions]
    intro f hf
    obtain ⟨window, drawn, inline⟩ := h.functions_drawn f hf
    exact drawn.soundOver inline
  · rw [windows]
    intro w hw
    exact (h.definitions_drawn w hw).soundOver
  · rw [functions, windows]
    exact h.defined
  · rw [functions, windows]
    exact h.referred

end SelectShape.Permitted

namespace Select

/-- With checked options, the windows and functions of a random statement and of its second arm are
sound over the columns of its sources. Common table expressions have none. -/
theorem generation_windows_sound {o : Options} (checked : o.check = .ok ()) (schema : Schema) :
    Prod.snd <$> randomTraced schema.tables o.query = Select.random schema.tables o.query ∧
      (randomTraced schema.tables o.query).Ensures o.query.HasNaN fun run =>
        run.2.clauses.WindowsSound (run.1.elim [] Origin.scope) ∧
        (∀ next, run.2.clauses.setOperation = some next →
          next.query.clauses.WindowsSound (run.1.elim [] Origin.scope)) ∧
        ∀ cte ∈ run.2.clauses.ctes, cte.query.clauses.windowFunctions = [] ∧
          cte.query.clauses.windows.entries = [] := by
  refine ⟨snd_randomTraced schema.tables o.query, ?_⟩
  have range := (Options.check_eq_ok_iff.1 checked).1
  refine (randomTraced_ensures range schema.tables).mono ?_
  rintro run (⟨value, -, rfl⟩ | ⟨table, -, c, permitted, rfl⟩)
  · have shape : SelectShape.plain.Permitted o.query [] [] := .plain
    refine ⟨shape.windowsSound rfl rfl, ?_, ?_⟩
    · intro next more
      exact nomatch more
    · intro cte hc
      exact nomatch hc
  · refine ⟨permitted.shape.windowsSound rfl rfl, ?_, ?_⟩
    · intro next more
      obtain ⟨drawn, -, rfl⟩ := Option.map_eq_some_iff.1 more
      exact permitted.shape.windowsSound rfl rfl
    · intro cte hc
      rw [show c.statement.clauses.ctes = _ from c.ctes_clauses] at hc
      obtain ⟨d, hd, rfl⟩ := List.mem_map.1 hc
      obtain ⟨index, drawn⟩ := permitted.origin.exists_index_drawn hd
      cases drawn
      exact ⟨rfl, rfl⟩

/-- Plain statements with named windows and a second arm. -/
def windowedArms : Options where
  query :=
    { withChance := .ofNat 0, joinChance := .ofNat 0, filterChance := .ofNat 0,
      distinctChance := .ofNat 0, groupByChance := .ofNat 0, windowChance := .ofNat 1,
      namedWindowChance := .ofNat 1, setOperationChance := .ofNat 1 }

def windowedArmsText : String :=
  let arm := "SELECT t.a, t.b, SUM(t.a) OVER w0, ROW_NUMBER() OVER w1 FROM t " ++
    "WINDOW w0 AS (), w1 AS (PARTITION BY t.b ROWS BETWEEN 3 PRECEDING AND CURRENT ROW)"
  arm ++ " INTERSECT " ++ arm

theorem windowedArms_sound :
    windowedArms.check = .ok () ∧ ∃ (s : Select) (next : SetOperation Select)
      (scope : List ScopeColumn), s.sql = windowedArmsText ∧
        s.clauses.setOperation = some next ∧ s.clauses.WindowsSound scope ∧
          next.query.clauses.WindowsSound scope := by
  have checked : windowedArms.check = .ok () := by decide +kernel
  let schema : Schema :=
    ⟨[{ name := "t", columns := [{ name := "a", type := .int }, { name := "b", type := .range }] }]⟩
  have run : ((randomTraced schema.tables windowedArms.query).run.run Scripted.source
      ⟨[], 4⟩).1.toOption.map (fun run => (run.2.sql, run.2.hasSetOperation)) =
        some (windowedArmsText, true) := by decide +kernel
  obtain ⟨traced, summary, sound, arm, -⟩ :=
    Building.Ensures.exists_of_run (generation_windows_sound checked schema).2 run
  obtain ⟨text, more⟩ := Prod.mk.inj summary
  obtain ⟨next, some⟩ := Option.isSome_iff_exists.1 more
  exact ⟨checked, traced.2, next, _, text, some, sound, arm next some⟩

end Select
end QueryForge
