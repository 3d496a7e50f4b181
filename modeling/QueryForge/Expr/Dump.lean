import QueryForge.Expr
import QueryForge.Window.Dump

/-!
# Expressions as documents
-/

namespace QueryForge

open Json (Decoder Variant tagged ofOption)

namespace UnaryOperator

def dumpName : UnaryOperator → String
  | .not => "Not"
  | .minus => "Minus"

def dump (o : UnaryOperator) : Json := .string o.dumpName

def replay : Decoder UnaryOperator := Decoder.oneOf [.not, .minus] dumpName

end UnaryOperator

namespace TestOperator

def dumpName : TestOperator → String
  | .isNull => "IsNull"
  | .isNotNull => "IsNotNull"
  | .isTrue => "IsTrue"
  | .isNotTrue => "IsNotTrue"

def dump (o : TestOperator) : Json := .string o.dumpName

def replay : Decoder TestOperator :=
  Decoder.oneOf [.isNull, .isNotNull, .isTrue, .isNotTrue] dumpName

end TestOperator

namespace BinaryOperator

def dumpName : BinaryOperator → String
  | .equals => "Equals"
  | .notEquals => "NotEquals"
  | .less => "Less"
  | .lessEquals => "LessEquals"
  | .greater => "Greater"
  | .greaterEquals => "GreaterEquals"
  | .isDistinctFrom => "IsDistinctFrom"
  | .and => "And"
  | .or => "Or"

def dump (o : BinaryOperator) : Json := .string o.dumpName

def replay : Decoder BinaryOperator := Decoder.oneOf all dumpName

end BinaryOperator

namespace ExprNode

variable {E : Type}

def dump : ExprNode Json → Json
  | .column table name =>
    tagged "Column" (.object [("table", ofOption .string table), ("name", .string name)])
  | .literal value => tagged "Constant" value.dump
  | .unary operator operand => tagged "Unary" (.array [operator.dump, operand])
  | .test operand operator => tagged "Postfix" (.array [operand, operator.dump])
  | .binary left operator right => tagged "Binary" (.array [left, operator.dump, right])
  | .cast operand type => tagged "Cast" (.array [operand, type.dump])
  | .call name arguments =>
    tagged "FunctionCall" (.object [("name", .string name), ("args", .array arguments)])
  | .window function => tagged "WindowFunction" function.dump

def replay (operand : Decoder E) : Decoder (ExprNode E) := fun r j => do
  let v ← Variant.of? r j
  match v.name with
  | "Column" => do
    let f ← v.fields ["table", "name"]
    match f.slots with
    | [table, name] => do
      let table ← f.optional Decoder.string table
      let name ← f.required Decoder.string name
      some (.column table name)
    | _ => none
  | "Constant" => (v.single Literal.replay).map .literal
  | "Unary" => do
    let f ← v.tuple 2
    match f.slots with
    | [operator, inner] => do
      let operator ← f.required UnaryOperator.replay operator
      let inner ← f.required operand inner
      some (.unary operator inner)
    | _ => none
  | "Postfix" => do
    let f ← v.tuple 2
    match f.slots with
    | [inner, operator] => do
      let inner ← f.required operand inner
      let operator ← f.required TestOperator.replay operator
      some (.test inner operator)
    | _ => none
  | "Binary" => do
    let f ← v.tuple 3
    match f.slots with
    | [left, operator, right] => do
      let left ← f.required operand left
      let operator ← f.required BinaryOperator.replay operator
      let right ← f.required operand right
      some (.binary left operator right)
    | _ => none
  | "Cast" => do
    let f ← v.tuple 2
    match f.slots with
    | [inner, type] => do
      let inner ← f.required operand inner
      let type ← f.required ColumnType.replay type
      some (.cast inner type)
    | _ => none
  | "FunctionCall" => do
    let f ← v.fields ["name", "args"]
    match f.slots with
    | [name, arguments] => do
      let name ← f.required Decoder.string name
      let arguments ← f.required (Decoder.list operand) arguments
      some (.call name arguments)
    | _ => none
  | "WindowFunction" => (v.single (WindowFunction.replay operand)).map .window
  | _ => none

end ExprNode

namespace Expr

def dump : Expr → Json := fold ExprNode.dump

/-- Reads expressions of at most that many nested nodes. -/
def replayNested : Nat → Decoder Expr
  | 0 => fun _ _ => none
  | n + 1 => fun r j => (ExprNode.replay (replayNested n) r j).map .node

/-- A node is an object and so takes up a level, which makes the levels a bound of its depth. -/
def replay : Decoder Expr := fun r j => replayNested r.levels r j

end Expr
end QueryForge
