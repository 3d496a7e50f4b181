import QueryForge.Scope
import QueryForge.Select.Build

/-!
# Random windows
-/

namespace QueryForge

open Draw

namespace WindowFrame

/-- The rows from a drawn start up to the current one. -/
def random : Draw WindowFrame := do
  let unbounded ← chance Literal.even
  let start ← if unbounded then pure FrameBound.unboundedPreceding
    else do
      let offset ← within 0 4
      pure (FrameBound.preceding (.ofNat offset.toNat))
  return ⟨.rows, start, some .currentRow, none⟩

end WindowFrame

namespace WindowDefinition

/-- A column of the list, kept in half of the cases; the coin is tossed in any case. -/
def randomColumn (columns : List ScopeColumn) : Draw (List ScopeColumn) := do
  let column ← pickMaybe columns
  let kept ← chance Literal.even
  return if kept then column.toList else []

def random (scope : List ScopeColumn) : Draw (WindowDefinition Expr) := do
  let partition ← randomColumn scope
  let order ← randomColumn (scope.filter ScopeColumn.isOrderable)
  let frame ← sometimes (.ofFraction 3 10) WindowFrame.random
  return ⟨partition.map ScopeColumn.expr, order.map fun c => .ofExpr c.expr, frame⟩

end WindowDefinition

namespace WindowKind

/-- Whether a column may be the argument. -/
def accepts (k : WindowKind) (c : ScopeColumn) : Bool :=
  match k with
  | .sum => c.type.isNumeric
  | .min | .max => c.isOrderable
  | _ => true

end WindowKind

namespace WindowFunction

/-- Where the drawn kind lacks an argument, a row number takes its place. -/
def random (scope : List ScopeColumn) (window : WindowReference Expr) :
    Draw (WindowFunction Expr) := do
  let kind ← pick WindowKind.all (by decide)
  let argument ← pickMaybe (scope.filter kind.accepts)
  if kind.takesArgument then
    match argument with
    | some column => return ⟨kind, some column.expr, window⟩
    | none => return ⟨.rowNumber, none, window⟩
  else return ⟨kind, none, window⟩

end WindowFunction

/-- A window function together with the window that it was drawn over. -/
structure DrawnWindow where
  name : String
  definition : WindowDefinition Expr
  function : WindowFunction Expr

namespace DrawnWindow

/-- The window `w<index>`, which the function refers to by name or holds itself. -/
def random (scope : List ScopeColumn) (named : Bool) (index : Nat) : Draw DrawnWindow := do
  let name := "w" ++ index.repr
  let definition ← WindowDefinition.random scope
  let window := if named then .named name else .inline definition
  let function ← WindowFunction.random scope window
  return ⟨name, definition, function⟩

end DrawnWindow

/-- Gives a statement one or two window functions, all named or all in place. -/
def Select.addRandomWindows (s : Select) (scope : List ScopeColumn) (namedChance : Double) :
    Draw Select := do
  let extra ← smallNumber 1
  fits .unsigned64 (1 + extra)
  let named ← chance namedChance
  let drawn ← each (DrawnWindow.random scope named) (List.range (1 + extra))
  let s := if named then
      drawn.foldl (fun s w => s.addWindowDefinition w.name w.definition) s
    else s
  return s.setWindowFunctions (drawn.map DrawnWindow.function)

end QueryForge
