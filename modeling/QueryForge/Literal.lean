import QueryForge.Binary64.Layout
import QueryForge.Catalog.Dump

/-!
# Literals

The constants of a statement, their SQL text and their documents.
-/

namespace QueryForge

inductive Literal where
  | null
  | integer (value : Int64)
  | boolean (value : Bool)
  | text (value : String)
  | number (value : Double)
  /-- A quoted literal with a cast, such as `'[1,5)'::int4range`. -/
  | typed (literal : String) (type : ColumnType)
deriving DecidableEq, Repr

namespace Literal

/-- Positional from 0.0001 to below 10^16, always with a fraction digit; a positive exponent has
no sign. -/
def numberLayout : NumberLayout := ⟨.up, some (-3, 16), true, false⟩

def sql : Literal → String
  | .null => "NULL"
  | .integer value => Sql.integer value.toInt
  | .boolean true => "TRUE"
  | .boolean false => "FALSE"
  | .text value => Sql.quoted value
  | .number value => numberLayout.text value
  | .typed literal type => Sql.quoted literal ++ "::" ++ type.sql

/-- Numbers are compared by value, so the two zeros are equal and a NaN is not equal to itself. -/
def sameValue : Literal → Literal → Bool
  | .number x, .number y => x.sameValue y
  | a, b => a == b

open Json (Decoder Variant tagged)

def dump : Literal → Json
  | .null => .string "Null"
  | .integer value => tagged "Integer" (.integer value.toInt)
  | .boolean value => tagged "Boolean" (.boolean value)
  | .text value => tagged "Text" (.string value)
  | .number value => tagged "Float" (.ofDouble value)
  | .typed literal type =>
    tagged "Typed" (.object [("literal", .string literal), ("ty", type.dump)])

def replay : Decoder Literal := fun r j => do
  let v ← Variant.of? r j
  match v.name with
  | "Null" => v.bare .null
  | "Integer" => (v.single Decoder.signed64).map .integer
  | "Boolean" => (v.single Decoder.boolean).map .boolean
  | "Text" => (v.single Decoder.string).map .text
  | "Float" => (v.single Decoder.double).map .number
  | "Typed" => do
    let f ← v.fields ["literal", "ty"]
    match f.slots with
    | [literal, type] => do
      let literal ← f.required Decoder.string literal
      let type ← f.required ColumnType.replay type
      some (.typed literal type)
    | _ => none
  | _ => none

end Literal
end QueryForge
