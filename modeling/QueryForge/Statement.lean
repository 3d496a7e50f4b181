import QueryForge.ErrorRegistry
import QueryForge.Select.Dump

/-!
# Statements to execute

A text of SQL together with the errors that may come of it, and a generated SELECT with those that
may come of its text.
-/

namespace QueryForge

open Json (Decoder Fields)

structure Statement where
  sql : String
  expectedErrors : ErrorRegistry
  /-- Whether the catalog may have changed afterwards. -/
  affectsSchema : Bool
deriving DecidableEq, Repr

namespace Statement

def isExpectedError (s : Statement) (message : String) : Bool :=
  s.expectedErrors.isExpected message

def sameValue (s t : Statement) : Bool :=
  s.sql == t.sql && s.expectedErrors.sameValue t.expectedErrors &&
    s.affectsSchema == t.affectsSchema

def fieldNames : List String := ["sql", "expected_errors", "could_affect_schema"]

def dump (s : Statement) : Json :=
  .object [("sql", .string s.sql), ("expected_errors", s.expectedErrors.dump),
    ("could_affect_schema", .boolean s.affectsSchema)]

def replay : Decoder Statement := fun r j => do
  let f ← Fields.ofRecord fieldNames r j
  match f.slots with
  | [sql, expectedErrors, affectsSchema] => do
    let sql ← f.required Decoder.string sql
    let expectedErrors ← f.required ErrorRegistry.replay expectedErrors
    let affectsSchema ← f.required Decoder.boolean affectsSchema
    some ⟨sql, expectedErrors, affectsSchema⟩
  | _ => none

end Statement

/-- A generated SELECT with its expected errors. -/
structure SelectQuery where
  select : Select
  expectedErrors : ErrorRegistry

namespace SelectQuery

def statement (q : SelectQuery) : Statement := ⟨q.select.sql, q.expectedErrors, false⟩

def fieldNames : List String := ["select", "expected_errors"]

def dump (q : SelectQuery) : Json :=
  .object [("select", q.select.dump), ("expected_errors", q.expectedErrors.dump)]

def replay : Decoder SelectQuery := fun r j => do
  let f ← Fields.ofRecord fieldNames r j
  match f.slots with
  | [select, expectedErrors] => do
    let select ← f.required Select.replay select
    let expectedErrors ← f.required ErrorRegistry.replay expectedErrors
    some ⟨select, expectedErrors⟩
  | _ => none

end SelectQuery

end QueryForge
