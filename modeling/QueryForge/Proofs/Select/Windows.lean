import Mathlib.Data.List.Nodup
import QueryForge.Proofs.Draw.Choice
import QueryForge.Proofs.Select.NamedWindows
import QueryForge.Select.Random.Windows

/-!
# What random windows are

Windows partition and order by columns in scope, and a function has an argument in scope exactly
if its kind takes one.
-/

namespace QueryForge

open Draw

variable {scope : List ScopeColumn} {nan : Prop}

/-- Frames of rows that end at the current one. -/
structure WindowFrame.Drawn (f : WindowFrame) : Prop where
  mode : f.mode = .rows
  start : f.start = .unboundedPreceding ∨ ∃ offset, f.start = .preceding offset
  stop : f.stop = some .currentRow
  exclusion : f.exclusion = none

theorem WindowFrame.random_ensures : WindowFrame.random.Ensures nan WindowFrame.Drawn := by
  refine (chance_ensures even_isChance).bind fun unbounded _ => ?_
  cases unbounded with
  | true => exact .pure ⟨rfl, .inl rfl, rfl, rfl⟩
  | false => exact (within_ensures (by decide)).bind fun i _ => .pure ⟨rfl, .inr ⟨_, rfl⟩, rfl, rfl⟩

namespace WindowDefinition

structure Drawn (scope : List ScopeColumn) (d : WindowDefinition Expr) : Prop where
  partitionBy : d.partitionBy = [] ∨ ∃ c ∈ scope, d.partitionBy = [c.expr]
  orderBy : d.orderBy = [] ∨ ∃ c ∈ scope, c.isOrderable ∧ d.orderBy = [.ofExpr c.expr]
  frame : ∀ f, d.frame = some f → f.Drawn

theorem randomColumn_ensures (columns : List ScopeColumn) :
    (randomColumn columns).Ensures nan fun drawn => drawn = [] ∨ ∃ c ∈ columns, drawn = [c] := by
  refine (pickMaybe_ensures columns).bind fun column hc => ?_
  refine (chance_ensures even_isChance).bind fun kept _ => .pure ?_
  obtain ⟨rfl, -⟩ | ⟨c, mem, rfl⟩ := hc
  · cases kept <;> exact .inl rfl
  · cases kept with
    | true => exact .inr ⟨c, mem, rfl⟩
    | false => exact .inl rfl

theorem random_ensures (scope : List ScopeColumn) : (random scope).Ensures nan (Drawn scope) := by
  refine (randomColumn_ensures scope).bind fun partition hp => ?_
  refine (randomColumn_ensures _).bind fun order ho => ?_
  refine (sometimes_ensures (.inl (by decide +kernel)) WindowFrame.random_ensures).bind
    fun frame hf => ?_
  refine .pure ⟨?_, ?_, hf⟩
  · obtain rfl | ⟨c, mem, rfl⟩ := hp
    · exact .inl rfl
    · exact .inr ⟨c, mem, rfl⟩
  · obtain rfl | ⟨c, mem, rfl⟩ := ho
    · exact .inl rfl
    · exact .inr ⟨c, (List.mem_filter.1 mem).1, (List.mem_filter.1 mem).2, rfl⟩

end WindowDefinition

namespace WindowFunction

/-- A function over a window with the arguments that its kind may have. -/
structure Drawn (scope : List ScopeColumn) (window : WindowReference Expr)
    (f : WindowFunction Expr) : Prop where
  window : f.window = window
  noArgument : f.kind.takesArgument = false → f.argument = none
  argument : f.kind.takesArgument = true →
    ∃ c ∈ scope, f.kind.accepts c ∧ f.argument = some c.expr

theorem random_ensures (scope : List ScopeColumn) (window : WindowReference Expr) :
    (random scope window).Ensures nan (Drawn scope window) := by
  refine (pick_ensures _).bind fun kind _ => ?_
  refine (pickMaybe_ensures _).bind fun argument ha => ?_
  split
  · next takes =>
    obtain ⟨rfl, -⟩ | ⟨c, mem, rfl⟩ := ha
    · exact .pure ⟨rfl, fun _ => rfl, fun h => (nomatch h)⟩
    · obtain ⟨visible, accepted⟩ := List.mem_filter.1 mem
      refine .pure ⟨rfl, fun h => ?_, fun _ => ⟨c, visible, accepted, rfl⟩⟩
      exact absurd (takes.symm.trans h) (by decide)
  · next takes => exact .pure ⟨rfl, fun _ => rfl, fun h => absurd h takes⟩

end WindowFunction

namespace DrawnWindow

def entry (w : DrawnWindow) : String × WindowDefinition Expr := (w.name, w.definition)

/-- The window with a number, and a function that refers to it by name or holds it itself. -/
structure Drawn (scope : List ScopeColumn) (named : Bool) (index : Nat) (w : DrawnWindow) :
    Prop where
  name : w.name = "w" ++ index.repr
  definition : w.definition.Drawn scope
  function : w.function.Drawn scope (if named then .named w.name else .inline w.definition)

theorem random_ensures (scope : List ScopeColumn) (named : Bool) (index : Nat) :
    (random scope named index).Ensures nan (Drawn scope named index) := by
  refine (WindowDefinition.random_ensures scope).bind fun definition hd => ?_
  refine (WindowFunction.random_ensures scope _).bind fun function hf => ?_
  exact .pure ⟨rfl, hd, hf⟩

theorem map_name {named : Bool} {indices : List Nat} {drawn : List DrawnWindow}
    (h : List.Forall₂ (Drawn scope named) indices drawn) :
    (drawn.map entry).map Prod.fst = indices.map fun i => "w" ++ i.repr := by
  induction h with
  | nil => rfl
  | cons first _ ih => rw [List.map_cons, List.map_cons, List.map_cons, ih, entry, first.name]

end DrawnWindow
end QueryForge
