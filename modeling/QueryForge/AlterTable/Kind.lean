import QueryForge.ErrorRegistry.Catalog

/-!
# Kinds of ALTER TABLE actions

The closed list of actions that may be drawn, with what each needs of its table and which errors
it can raise.
-/

namespace QueryForge

inductive ActionKind where
  | dropColumn
  | alterColumnType
  | setDropDefault
  | setDropNotNull
  | setStatistics
  | setAttributeOption
  | resetAttributeOption
  | setStorage
  | addConstraint
  | addConstraintUsingIndex
  | validateConstraint
  | disableRowSecurity
  | enableRowSecurity
  | forceRowSecurity
  | noForceRowSecurity
  | clusterOn
  | setWithoutCluster
  | setWithOids
  | setWithoutOids
  | setLoggedUnlogged
  | notOf
  | ownerTo
  | replicaIdentity
  | setIdentity
  | setGenerated
  | dropIdentity
  | restartIdentity
deriving DecidableEq, Repr

namespace ActionKind

def all : List ActionKind :=
  [.dropColumn, .alterColumnType, .setDropDefault, .setDropNotNull, .setStatistics,
    .setAttributeOption, .resetAttributeOption, .setStorage, .addConstraint,
    .addConstraintUsingIndex, .validateConstraint, .disableRowSecurity, .enableRowSecurity,
    .forceRowSecurity, .noForceRowSecurity, .clusterOn, .setWithoutCluster, .setWithOids,
    .setWithoutOids, .setLoggedUnlogged, .notOf, .ownerTo, .replicaIdentity, .setIdentity,
    .setGenerated, .dropIdentity, .restartIdentity]

/-- The errors of a kind, which are expected whether or not it yields an action. Those of setting
and dropping NOT NULL depend on the direction and belong to the action. -/
def expectedErrors : ActionKind → List String
  | .dropColumn =>
    ["because other objects depend on it", "does not exist", "cannot drop column",
      "cannot drop inherited column"]
  | .alterColumnType =>
    ["cannot be cast automatically to type", "foreign key constraint",
      "cannot alter type of a column used by a view or rule",
      "cannot convert infinity to numeric", "is duplicated", "cannot be cast automatically",
      "is an identity column", "identity column type must be smallint, integer, or bigint",
      "out of range"]
  | .setDropDefault =>
    ["invalid input syntax", "is a generated column", "is an identity column",
      "Use ALTER TABLE ... ALTER COLUMN ... DROP IDENTITY instead"]
  | .setDropNotNull => []
  | .setStatistics => ["must be between"]
  | .setAttributeOption => ["value out of bounds for option"]
  | .resetAttributeOption => []
  | .setStorage => ["can only have storage PLAIN"]
  | .addConstraint => ["already exists", "violates check constraint"]
  | .addConstraintUsingIndex =>
    ["already exists", "is not a unique index", "is already associated with a constraint",
      "contains expressions", "is a partial index", "does not have default sorting behavior",
      "cannot create a primary key or unique constraint using such an index",
      "multiple primary keys for table", "contains null values"]
  | .validateConstraint => ["does not exist"]
  | .disableRowSecurity | .enableRowSecurity | .forceRowSecurity | .noForceRowSecurity => []
  | .clusterOn =>
    ["cannot cluster on partial index", "cannot cluster on invalid index",
      "does not support clustering"]
  | .setWithoutCluster | .setWithOids | .setWithoutOids => []
  | .setLoggedUnlogged => ["because it is temporary"]
  | .notOf => ["is not a typed table"]
  | .ownerTo | .replicaIdentity => []
  | .setIdentity | .setGenerated => []
  | .dropIdentity => ["is not an identity column", "column does not exist"]
  | .restartIdentity =>
    ["is not an identity column", "must be greater than or equal to",
      "cannot restart identity column", "column does not exist"]

/-- The database accepts all kinds but one, and that one is never kept. -/
def isSupported (k : ActionKind) : Bool := k != .setWithOids

def requiresIndex : ActionKind → Bool
  | .addConstraintUsingIndex | .clusterOn => true
  | _ => false

def isIdentity : ActionKind → Bool
  | .setIdentity | .setGenerated | .dropIdentity | .restartIdentity => true
  | _ => false

/-- Setting an identity never yields an action: a change of type earlier in the same statement
could leave it without a meaning. -/
def yieldsAction : ActionKind → Bool
  | .setIdentity | .setGenerated => false
  | _ => true

end ActionKind
end QueryForge
