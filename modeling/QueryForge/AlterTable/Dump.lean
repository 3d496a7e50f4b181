import QueryForge.AlterTable
import QueryForge.AlterTable.Kind
import QueryForge.Catalog.Dump

/-!
# ALTER TABLE statements as documents
-/

namespace QueryForge

open Json (Decoder Fields Variant tagged ofOption)

namespace ActionKind

def dumpName : ActionKind → String
  | .dropColumn => "DropColumn"
  | .alterColumnType => "AlterColumnType"
  | .setDropDefault => "AlterColumnSetDropDefault"
  | .setDropNotNull => "AlterColumnSetDropNull"
  | .setStatistics => "AlterColumnSetStatistics"
  | .setAttributeOption => "AlterColumnSetAttributeOption"
  | .resetAttributeOption => "AlterColumnResetAttributeOption"
  | .setStorage => "AlterColumnSetStorage"
  | .addConstraint => "AddTableConstraint"
  | .addConstraintUsingIndex => "AddTableConstraintUsingIndex"
  | .validateConstraint => "ValidateConstraint"
  | .disableRowSecurity => "DisableRowLevelSecurity"
  | .enableRowSecurity => "EnableRowLevelSecurity"
  | .forceRowSecurity => "ForceRowLevelSecurity"
  | .noForceRowSecurity => "NoForceRowLevelSecurity"
  | .clusterOn => "ClusterOn"
  | .setWithoutCluster => "SetWithoutCluster"
  | .setWithOids => "SetWithOids"
  | .setWithoutOids => "SetWithoutOids"
  | .setLoggedUnlogged => "SetLoggedUnlogged"
  | .notOf => "NotOf"
  | .ownerTo => "OwnerTo"
  | .replicaIdentity => "ReplicaIdentity"
  | .setIdentity => "AlterColumnSetIdentity"
  | .setGenerated => "AlterColumnSetGenerated"
  | .dropIdentity => "AlterColumnDropIdentity"
  | .restartIdentity => "AlterColumnRestart"

def dump (k : ActionKind) : Json := .string k.dumpName

def replay : Decoder ActionKind := Decoder.oneOf all dumpName

end ActionKind

namespace DropBehavior

def dumpName : DropBehavior → String
  | .restrict => "Restrict"
  | .cascade => "Cascade"

def dump (b : DropBehavior) : Json := .string b.dumpName

def replay : Decoder DropBehavior := Decoder.oneOf [.restrict, .cascade] dumpName

end DropBehavior

namespace StorageMode

def dumpName : StorageMode → String
  | .plain => "Plain"
  | .external => "External"
  | .extended => "Extended"
  | .main => "Main"

def dump (m : StorageMode) : Json := .string m.dumpName

def replay : Decoder StorageMode := Decoder.oneOf all dumpName

end StorageMode

namespace ConstraintKind

def dumpName : ConstraintKind → String
  | .unique => "Unique"
  | .primaryKey => "PrimaryKey"

def dump (k : ConstraintKind) : Json := .string k.dumpName

def replay : Decoder ConstraintKind := Decoder.oneOf [.unique, .primaryKey] dumpName

end ConstraintKind

namespace RowSecurity

def dumpName : RowSecurity → String
  | .disable => "Disable"
  | .enable => "Enable"
  | .force => "Force"
  | .noForce => "NoForce"

def dump (s : RowSecurity) : Json := .string s.dumpName

def replay : Decoder RowSecurity :=
  Decoder.oneOf [.disable, .enable, .force, .noForce] dumpName

end RowSecurity

namespace OwnerRole

def dumpName : OwnerRole → String
  | .currentUser => "CurrentUser"
  | .sessionUser => "SessionUser"

def dump (o : OwnerRole) : Json := .string o.dumpName

def replay : Decoder OwnerRole := Decoder.oneOf [.currentUser, .sessionUser] dumpName

end OwnerRole

namespace ReplicaIdentity

def dumpName : ReplicaIdentity → String
  | .default => "Default"
  | .full => "Full"
  | .nothing => "Nothing"

def dump (i : ReplicaIdentity) : Json := .string i.dumpName

def replay : Decoder ReplicaIdentity := Decoder.oneOf [.default, .full, .nothing] dumpName

end ReplicaIdentity

namespace AlterAction

def dump : AlterAction → Json
  | .dropColumn ifExists column behavior =>
    tagged "DropColumn" (.object [("if_exists", .boolean ifExists), ("column", .string column),
      ("behavior", ofOption DropBehavior.dump behavior)])
  | .alterColumnType column setData type =>
    tagged "AlterColumnType" (.object [("column", .string column), ("set_data", .boolean setData),
      ("data_type", type.dump)])
  | .columnDefault column value =>
    tagged "ColumnDefault" (.object [("column", .string column),
      ("default", ofOption (fun v => .integer v.toInt) value)])
  | .columnNotNull column notNull =>
    tagged "ColumnNotNull" (.object [("column", .string column), ("not_null", .boolean notNull)])
  | .setStatistics column target =>
    tagged "SetStatistics" (.object [("column", .string column),
      ("target", .integer target.toInt)])
  | .setAttributeOption column distinctValues =>
    tagged "SetAttributeOption" (.object [("column", .string column),
      ("n_distinct", .ofDouble distinctValues)])
  | .resetAttributeOption column =>
    tagged "ResetAttributeOption" (.object [("column", .string column)])
  | .setStorage column storage =>
    tagged "SetStorage" (.object [("column", .string column), ("storage", storage.dump)])
  | .addCheckConstraint name => tagged "AddCheckConstraint" (.object [("name", .string name)])
  | .addConstraintUsingIndex name kind index =>
    tagged "AddConstraintUsingIndex" (.object [("name", .string name), ("kind", kind.dump),
      ("index", .string index)])
  | .validateConstraint name => tagged "ValidateConstraint" (.object [("name", .string name)])
  | .rowSecurity setting => tagged "RowLevelSecurity" setting.dump
  | .clusterOn index => tagged "ClusterOn" (.object [("index", .string index)])
  | .setWithoutCluster => .string "SetWithoutCluster"
  | .setWithoutOids => .string "SetWithoutOids"
  | .setLogged logged => tagged "SetLogged" (.boolean logged)
  | .notOf => .string "NotOf"
  | .ownerTo role => tagged "OwnerTo" role.dump
  | .replicaIdentity identity => tagged "ReplicaIdentity" identity.dump
  | .dropIdentity column ifExists =>
    tagged "DropIdentity" (.object [("column", .string column), ("if_exists", .boolean ifExists)])
  | .restartIdentity column value =>
    tagged "RestartIdentity" (.object [("column", .string column),
      ("with", ofOption (fun v => .integer v.toInt) value)])

/-- The content of a variant with one field, a string. -/
def replayName (v : Variant) (field : String) : Option String := do
  let f ← v.fields [field]
  match f.slots with
  | [name] => f.required Decoder.string name
  | _ => none

def replay : Decoder AlterAction := fun r j => do
  let v ← Variant.of? r j
  match v.name with
  | "DropColumn" => do
    let f ← v.fields ["if_exists", "column", "behavior"]
    match f.slots with
    | [ifExists, column, behavior] => do
      let ifExists ← f.required Decoder.boolean ifExists
      let column ← f.required Decoder.string column
      let behavior ← f.optional DropBehavior.replay behavior
      some (.dropColumn ifExists column behavior)
    | _ => none
  | "AlterColumnType" => do
    let f ← v.fields ["column", "set_data", "data_type"]
    match f.slots with
    | [column, setData, type] => do
      let column ← f.required Decoder.string column
      let setData ← f.required Decoder.boolean setData
      let type ← f.required ColumnType.replay type
      some (.alterColumnType column setData type)
    | _ => none
  | "ColumnDefault" => do
    let f ← v.fields ["column", "default"]
    match f.slots with
    | [column, value] => do
      let column ← f.required Decoder.string column
      let value ← f.optional Decoder.signed64 value
      some (.columnDefault column value)
    | _ => none
  | "ColumnNotNull" => do
    let f ← v.fields ["column", "not_null"]
    match f.slots with
    | [column, notNull] => do
      let column ← f.required Decoder.string column
      let notNull ← f.required Decoder.boolean notNull
      some (.columnNotNull column notNull)
    | _ => none
  | "SetStatistics" => do
    let f ← v.fields ["column", "target"]
    match f.slots with
    | [column, target] => do
      let column ← f.required Decoder.string column
      let target ← f.required Decoder.signed32 target
      some (.setStatistics column target)
    | _ => none
  | "SetAttributeOption" => do
    let f ← v.fields ["column", "n_distinct"]
    match f.slots with
    | [column, distinctValues] => do
      let column ← f.required Decoder.string column
      let distinctValues ← f.required Decoder.double distinctValues
      some (.setAttributeOption column distinctValues)
    | _ => none
  | "ResetAttributeOption" => (replayName v "column").map .resetAttributeOption
  | "SetStorage" => do
    let f ← v.fields ["column", "storage"]
    match f.slots with
    | [column, storage] => do
      let column ← f.required Decoder.string column
      let storage ← f.required StorageMode.replay storage
      some (.setStorage column storage)
    | _ => none
  | "AddCheckConstraint" => (replayName v "name").map .addCheckConstraint
  | "AddConstraintUsingIndex" => do
    let f ← v.fields ["name", "kind", "index"]
    match f.slots with
    | [name, kind, index] => do
      let name ← f.required Decoder.string name
      let kind ← f.required ConstraintKind.replay kind
      let index ← f.required Decoder.string index
      some (.addConstraintUsingIndex name kind index)
    | _ => none
  | "ValidateConstraint" => (replayName v "name").map .validateConstraint
  | "RowLevelSecurity" => (v.single RowSecurity.replay).map .rowSecurity
  | "ClusterOn" => (replayName v "index").map .clusterOn
  | "SetWithoutCluster" => v.bare .setWithoutCluster
  | "SetWithoutOids" => v.bare .setWithoutOids
  | "SetLogged" => (v.single Decoder.boolean).map .setLogged
  | "NotOf" => v.bare .notOf
  | "OwnerTo" => (v.single OwnerRole.replay).map .ownerTo
  | "ReplicaIdentity" => (v.single ReplicaIdentity.replay).map .replicaIdentity
  | "DropIdentity" => do
    let f ← v.fields ["column", "if_exists"]
    match f.slots with
    | [column, ifExists] => do
      let column ← f.required Decoder.string column
      let ifExists ← f.required Decoder.boolean ifExists
      some (.dropIdentity column ifExists)
    | _ => none
  | "RestartIdentity" => do
    let f ← v.fields ["column", "with"]
    match f.slots with
    | [column, value] => do
      let column ← f.required Decoder.string column
      let value ← f.optional Decoder.signed32 value
      some (.restartIdentity column value)
    | _ => none
  | _ => none

end AlterAction

namespace AlterFragment

def fieldNames : List String := ["table_name", "only", "action"]

def dump (f : AlterFragment) : Json :=
  .object [("table_name", .string f.table), ("only", .boolean f.only),
    ("action", f.action.dump)]

def replay : Decoder AlterFragment := fun r j => do
  let f ← Fields.ofRecord fieldNames r j
  match f.slots with
  | [table, only, action] => do
    let table ← f.required Decoder.string table
    let only ← f.required Decoder.boolean only
    let action ← f.required AlterAction.replay action
    some ⟨table, only, action⟩
  | _ => none

end AlterFragment

namespace AlterTable

def fieldNames : List String := ["fragments"]

def dump (a : AlterTable) : Json :=
  .object [("fragments", .array (a.fragments.map AlterFragment.dump))]

def replay : Decoder AlterTable := fun r j => do
  let f ← Fields.ofRecord fieldNames r j
  match f.slots with
  | [fragments] => (f.required (Decoder.list AlterFragment.replay) fragments).map AlterTable.mk
  | _ => none

end AlterTable

namespace AlterTableQuery

def fieldNames : List String := ["statement", "expected_errors"]

def dump (q : AlterTableQuery) : Json :=
  .object [("statement", q.alterTable.dump), ("expected_errors", q.expectedErrors.dump)]

def replay : Decoder AlterTableQuery := fun r j => do
  let f ← Fields.ofRecord fieldNames r j
  match f.slots with
  | [alterTable, expectedErrors] => do
    let alterTable ← f.required AlterTable.replay alterTable
    let expectedErrors ← f.required ErrorRegistry.replay expectedErrors
    some ⟨alterTable, expectedErrors⟩
  | _ => none

end AlterTableQuery
end QueryForge
