import QueryForge.Catalog
import QueryForge.Json.Form

/-!
# The catalog as a document
-/

namespace QueryForge

open Json (Decoder Fields ofStrings)

namespace ColumnType

def dumpName : ColumnType → String
  | .int => "Int"
  | .boolean => "Boolean"
  | .text => "Text"
  | .decimal => "Decimal"
  | .float => "Float"
  | .real => "Real"
  | .range => "Range"
  | .money => "Money"
  | .bit => "Bit"
  | .inet => "Inet"

def dump (t : ColumnType) : Json := .string t.dumpName

def replay : Decoder ColumnType := Decoder.oneOf all dumpName

end ColumnType

namespace Column

def fieldNames : List String := ["name", "column_type", "nullable", "identity"]

def dump (c : Column) : Json :=
  .object [("name", .string c.name), ("column_type", c.type.dump),
    ("nullable", .boolean c.nullable), ("identity", .boolean c.identity)]

def replay : Decoder Column := fun r j => do
  let f ← Fields.ofRecord fieldNames r j
  match f.slots with
  | [name, type, nullable, identity] => do
    let name ← f.required Decoder.string name
    let type ← f.required ColumnType.replay type
    let nullable ← f.required Decoder.boolean nullable
    let identity ← f.required Decoder.boolean identity
    some ⟨name, type, nullable, identity⟩
  | _ => none

end Column

namespace Index

def fieldNames : List String := ["name", "columns", "unique"]

def dump (i : Index) : Json :=
  .object [("name", .string i.name), ("columns", ofStrings i.columns),
    ("unique", .boolean i.unique)]

def replay : Decoder Index := fun r j => do
  let f ← Fields.ofRecord fieldNames r j
  match f.slots with
  | [name, columns, unique] => do
    let name ← f.required Decoder.string name
    let columns ← f.required (Decoder.list Decoder.string) columns
    let unique ← f.required Decoder.boolean unique
    some ⟨name, columns, unique⟩
  | _ => none

end Index

namespace Table

def fieldNames : List String := ["name", "columns", "indexes"]

def dump (t : Table) : Json :=
  .object [("name", .string t.name), ("columns", .array (t.columns.map Column.dump)),
    ("indexes", .array (t.indexes.map Index.dump))]

def replay : Decoder Table := fun r j => do
  let f ← Fields.ofRecord fieldNames r j
  match f.slots with
  | [name, columns, indexes] => do
    let name ← f.required Decoder.string name
    let columns ← f.required (Decoder.list Column.replay) columns
    let indexes ← f.required (Decoder.list Index.replay) indexes
    some ⟨name, columns, indexes⟩
  | _ => none

end Table

namespace Schema

def fieldNames : List String := ["tables"]

def dump (s : Schema) : Json := .object [("tables", .array (s.tables.map Table.dump))]

def replay : Decoder Schema := fun r j => do
  let f ← Fields.ofRecord fieldNames r j
  match f.slots with
  | [tables] => do
    let tables ← f.required (Decoder.list Table.replay) tables
    some ⟨tables⟩
  | _ => none

end Schema
end QueryForge
