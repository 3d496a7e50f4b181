import QueryForge.Expr.Dump
import QueryForge.Select

/-!
# SELECT statements as documents

A document is written from clauses whose nested statements are documents, and read with a decoder
of nested statements.
-/

namespace QueryForge

open Json (Decoder Fields Variant tagged ofOption ofStrings)

namespace SelectOption

def dumpName : SelectOption → String
  | .all => "All"
  | .distinct => "Distinct"

def replay : Decoder SelectOption := Decoder.oneOf [.all, .distinct] dumpName

end SelectOption

namespace LockingClause

def dumpName : LockingClause → String
  | .update => "Update"
  | .noKeyUpdate => "NoKeyUpdate"
  | .share => "Share"
  | .keyShare => "KeyShare"

def dump (c : LockingClause) : Json := .string c.dumpName

def replay : Decoder LockingClause := Decoder.oneOf all dumpName

end LockingClause

namespace SelectModifier

def dump : SelectModifier → Json
  | .all => .string "All"
  | .distinct on => tagged "Distinct" (.object [("on", ofOption Expr.dump on)])
  | .locked clause => tagged "Locked" clause.dump

def replay : Decoder SelectModifier := fun r j => do
  let v ← Variant.of? r j
  match v.name with
  | "All" => v.bare .all
  | "Distinct" => do
    let f ← v.fields ["on"]
    match f.slots with
    | [on] => (f.optional Expr.replay on).map .distinct
    | _ => none
  | "Locked" => (v.single LockingClause.replay).map .locked
  | _ => none

end SelectModifier

namespace SetOperator

def dumpName : SetOperator → String
  | .union => "Union"
  | .unionAll => "UnionAll"
  | .intersect => "Intersect"
  | .except => "Except"

def dump (o : SetOperator) : Json := .string o.dumpName

def replay : Decoder SetOperator := Decoder.oneOf all dumpName

end SetOperator

namespace JoinKind

def dumpName : JoinKind → String
  | .inner => "Inner"
  | .left => "Left"
  | .right => "Right"
  | .full => "Full"
  | .cross => "Cross"

def dump (k : JoinKind) : Json := .string k.dumpName

def replay : Decoder JoinKind := Decoder.oneOf all dumpName

end JoinKind

namespace ResultColumn

def dump : ResultColumn → Json
  | .expr value asName => tagged "Expr" (.array [value.dump, ofOption .string asName])
  | .star => .string "Star"

def replay : Decoder ResultColumn := fun r j => do
  let v ← Variant.of? r j
  match v.name with
  | "Expr" => do
    let f ← v.tuple 2
    match f.slots with
    | [value, asName] => do
      let value ← f.required Expr.replay value
      let asName ← f.optional Decoder.string asName
      some (.expr value asName)
    | _ => none
  | "Star" => v.bare .star
  | _ => none

end ResultColumn

namespace NamedWindows

def dump (w : NamedWindows) : Json :=
  .object (w.entries.map fun entry => (entry.1, (entry.2.map Expr.dump).dump))

/-- A repeated name keeps its first place and takes the last definition. -/
def replay : Decoder NamedWindows := fun r j =>
  (Decoder.entries (WindowDefinition.replay Expr.replay) r j).map empty.putAll

end NamedWindows

namespace FromItem

variable {Q : Type}

def dump : FromItem Json → Json
  | .table name only asName =>
    tagged "Table" (.object [("name", .string name), ("only", .boolean only),
      ("alias", ofOption .string asName)])
  | .subquery query asName =>
    tagged "Subquery" (.object [("select", query), ("alias", .string asName)])

def replay (nested : Decoder Q) : Decoder (FromItem Q) := fun r j => do
  let v ← Variant.of? r j
  match v.name with
  | "Table" => do
    let f ← v.fields ["name", "only", "alias"]
    match f.slots with
    | [name, only, asName] => do
      let name ← f.required Decoder.string name
      let only ← f.required Decoder.boolean only
      let asName ← f.optional Decoder.string asName
      some (.table name only asName)
    | _ => none
  | "Subquery" => do
    let f ← v.fields ["select", "alias"]
    match f.slots with
    | [select, asName] => do
      let query ← f.required nested select
      let asName ← f.required Decoder.string asName
      some (.subquery query asName)
    | _ => none
  | _ => none

end FromItem

namespace Join

variable {Q : Type}

def fieldNames : List String := ["kind", "item", "on"]

def dump (j : Join Json) : Json :=
  .object [("kind", j.kind.dump), ("item", j.item.dump), ("on", ofOption Expr.dump j.on)]

def replay (nested : Decoder Q) : Decoder (Join Q) := fun r j => do
  let f ← Fields.ofRecord fieldNames r j
  match f.slots with
  | [kind, item, on] => do
    let kind ← f.required JoinKind.replay kind
    let item ← f.required (FromItem.replay nested) item
    let on ← f.optional Expr.replay on
    some ⟨kind, item, on⟩
  | _ => none

end Join

namespace Cte

variable {Q : Type}

def fieldNames : List String := ["name", "column_aliases", "query", "columns"]

def dump (c : Cte Json) : Json :=
  .object [("name", .string c.name), ("column_aliases", ofStrings c.columnAliases),
    ("query", c.query), ("columns", .array (c.columns.map Column.dump))]

/-- The name may be empty here: only building checks it. -/
def replay (nested : Decoder Q) : Decoder (Cte Q) := fun r j => do
  let f ← Fields.ofRecord fieldNames r j
  match f.slots with
  | [name, columnAliases, query, columns] => do
    let name ← f.required Decoder.string name
    let columnAliases ← f.required (Decoder.list Decoder.string) columnAliases
    let query ← f.required nested query
    let columns ← f.required (Decoder.list Column.replay) columns
    some ⟨name, columnAliases, query, columns⟩
  | _ => none

end Cte

namespace WithClause

variable {Q : Type}

def fieldNames : List String := ["ctes"]

def dump (w : WithClause Json) : Json := .object [("ctes", .array (w.ctes.map Cte.dump))]

def replay (nested : Decoder Q) : Decoder (WithClause Q) := fun r j => do
  let f ← Fields.ofRecord fieldNames r j
  match f.slots with
  | [ctes] => (f.required (Decoder.list (Cte.replay nested)) ctes).map WithClause.mk
  | _ => none

end WithClause

namespace SetOperation

variable {Q : Type}

def fieldNames : List String := ["operator", "select"]

def dump (s : SetOperation Json) : Json :=
  .object [("operator", s.operator.dump), ("select", s.query)]

def replay (nested : Decoder Q) : Decoder (SetOperation Q) := fun r j => do
  let f ← Fields.ofRecord fieldNames r j
  match f.slots with
  | [operator, select] => do
    let operator ← f.required SetOperator.replay operator
    let query ← f.required nested select
    some ⟨operator, query⟩
  | _ => none

end SetOperation

namespace Clauses

variable {Q : Type}

def fieldNames : List String :=
  ["with", "modifier", "fetch_columns", "window_functions", "from", "joins", "where_clause",
    "group_by", "having", "window_definitions", "order_by", "limit", "offset", "compound"]

def dump (c : Clauses Json) : Json :=
  .object [
    ("with", ofOption WithClause.dump c.withClause),
    ("modifier", c.modifier.dump),
    ("fetch_columns", .array (c.columns.map ResultColumn.dump)),
    ("window_functions", .array (c.windowFunctions.map fun w => (w.map Expr.dump).dump)),
    ("from", .array (c.fromItems.map FromItem.dump)),
    ("joins", .array (c.joins.map Join.dump)),
    ("where_clause", ofOption Expr.dump c.filter),
    ("group_by", .array (c.groupBy.map Expr.dump)),
    ("having", ofOption Expr.dump c.having),
    ("window_definitions", c.windows.dump),
    ("order_by", .array (c.orderBy.map fun t => (t.map Expr.dump).dump)),
    ("limit", ofOption (fun n => .integer n.toNat) c.limit),
    ("offset", ofOption (fun n => .integer n.toNat) c.offset),
    ("compound", ofOption SetOperation.dump c.setOperation)]

def replay (nested : Decoder Q) : Decoder (Clauses Q) := fun r j => do
  let f ← Fields.ofRecord fieldNames r j
  match f.slots with
  | [withClause, modifier, columns, windowFunctions, fromItems, joins, filter, groupBy, having,
      windows, orderBy, limit, offset, setOperation] => do
    let withClause ← f.optional (WithClause.replay nested) withClause
    let modifier ← f.required SelectModifier.replay modifier
    let columns ← f.required (Decoder.list ResultColumn.replay) columns
    let windowFunctions ←
      f.required (Decoder.list (WindowFunction.replay Expr.replay)) windowFunctions
    let fromItems ← f.required (Decoder.list (FromItem.replay nested)) fromItems
    let joins ← f.required (Decoder.list (Join.replay nested)) joins
    let filter ← f.optional Expr.replay filter
    let groupBy ← f.required (Decoder.list Expr.replay) groupBy
    let having ← f.optional Expr.replay having
    let windows ← f.required NamedWindows.replay windows
    let orderBy ← f.required (Decoder.list (OrderTerm.replay Expr.replay)) orderBy
    let limit ← f.optional Decoder.unsigned64 limit
    let offset ← f.optional Decoder.unsigned64 offset
    let setOperation ← f.optional (SetOperation.replay nested) setOperation
    some ⟨withClause, modifier, columns, windowFunctions, fromItems, joins, filter, groupBy,
      having, windows, orderBy, limit, offset, setOperation⟩
  | _ => none

end Clauses

namespace Select

def dump : Select → Json := fold Clauses.dump

/-- Reads statements of at most that many nested ones. -/
def replayNested : Nat → Decoder Select
  | 0 => fun _ _ => none
  | n + 1 => fun r j => (Clauses.replay (replayNested n) r j).map .node

/-- A statement takes up a level, which makes the levels a bound of its nesting. -/
def replay : Decoder Select := fun r j => replayNested r.levels r j

end Select

def FromItem.document (i : FromItem Select) : Json := (i.map Select.dump).dump

def Join.document (j : Join Select) : Json := (j.map Select.dump).dump

def Cte.document (c : Cte Select) : Json := (c.map Select.dump).dump

def WithClause.document (w : WithClause Select) : Json := (w.map Select.dump).dump

def OrderTerm.document (t : OrderTerm Expr) : Json := (t.map Expr.dump).dump

def WindowDefinition.document (d : WindowDefinition Expr) : Json := (d.map Expr.dump).dump

def WindowFunction.document (w : WindowFunction Expr) : Json := (w.map Expr.dump).dump

end QueryForge
