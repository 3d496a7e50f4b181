import QueryForge.Binary64.Layout
import QueryForge.Catalog
import QueryForge.Statement

/-!
# ALTER TABLE statements

An action holds every choice made for it. A statement is a list of fragments, one action each,
which are executed together.
-/

namespace QueryForge

inductive DropBehavior where
  | restrict
  | cascade
deriving DecidableEq, Repr

inductive StorageMode where
  | plain
  | external
  | extended
  | main
deriving DecidableEq, Repr

inductive ConstraintKind where
  | unique
  | primaryKey
deriving DecidableEq, Repr

inductive RowSecurity where
  | disable
  | enable
  | force
  | noForce
deriving DecidableEq, Repr

inductive OwnerRole where
  | currentUser
  | sessionUser
deriving DecidableEq, Repr

inductive ReplicaIdentity where
  | default
  | full
  | nothing
deriving DecidableEq, Repr

inductive AlterAction where
  | dropColumn (ifExists : Bool) (column : String) (behavior : Option DropBehavior)
  | alterColumnType (column : String) (setData : Bool) (type : ColumnType)
  /-- Drops the default if there is no value. -/
  | columnDefault (column : String) (value : Option Int64)
  | columnNotNull (column : String) (notNull : Bool)
  | setStatistics (column : String) (target : Int32)
  | setAttributeOption (column : String) (distinctValues : Double)
  | resetAttributeOption (column : String)
  | setStorage (column : String) (storage : StorageMode)
  | addCheckConstraint (name : String)
  | addConstraintUsingIndex (name : String) (kind : ConstraintKind) (index : String)
  | validateConstraint (name : String)
  | rowSecurity (setting : RowSecurity)
  | clusterOn (index : String)
  | setWithoutCluster
  | setWithoutOids
  | setLogged (logged : Bool)
  | notOf
  | ownerTo (role : OwnerRole)
  | replicaIdentity (identity : ReplicaIdentity)
  | dropIdentity (column : String) (ifExists : Bool)
  | restartIdentity (column : String) (value : Option Int32)
deriving DecidableEq, Repr

structure AlterFragment where
  table : String
  only : Bool
  action : AlterAction
deriving DecidableEq, Repr

structure AlterTable where
  fragments : List AlterFragment
deriving DecidableEq, Repr

/-- A generated ALTER TABLE statement with its expected errors. -/
structure AlterTableQuery where
  alterTable : AlterTable
  expectedErrors : ErrorRegistry
deriving DecidableEq, Repr

def DropBehavior.sql : DropBehavior → String
  | .restrict => "RESTRICT"
  | .cascade => "CASCADE"

namespace StorageMode

def all : List StorageMode := [.plain, .external, .extended, .main]

def sql : StorageMode → String
  | .plain => "PLAIN"
  | .external => "EXTERNAL"
  | .extended => "EXTENDED"
  | .main => "MAIN"

end StorageMode

def ConstraintKind.sql : ConstraintKind → String
  | .unique => "UNIQUE"
  | .primaryKey => "PRIMARY KEY"

def RowSecurity.sql : RowSecurity → String
  | .disable => "DISABLE"
  | .enable => "ENABLE"
  | .force => "FORCE"
  | .noForce => "NO FORCE"

def OwnerRole.sql : OwnerRole → String
  | .currentUser => "CURRENT_USER"
  | .sessionUser => "SESSION_USER"

def ReplicaIdentity.sql : ReplicaIdentity → String
  | .default => "DEFAULT"
  | .full => "FULL"
  | .nothing => "NOTHING"

namespace AlterAction

/-- Never an exponent, and no fraction digit on a whole number. -/
def numberLayout : NumberLayout := ⟨.up, none, false, false⟩

def alterColumn (column tail : String) : String := "ALTER COLUMN " ++ column ++ " " ++ tail

def sql : AlterAction → String
  | .dropColumn ifExists column behavior =>
    "DROP COLUMN " ++ (if ifExists then "IF EXISTS " else "") ++ column ++
      Sql.optional behavior fun b => " " ++ b.sql
  | .alterColumnType column setData type =>
    alterColumn column ((if setData then "SET DATA " else "") ++ "TYPE " ++ type.sql)
  | .columnDefault column (some value) =>
    alterColumn column ("SET DEFAULT " ++ Sql.integer value.toInt)
  | .columnDefault column none => alterColumn column "DROP DEFAULT"
  | .columnNotNull column notNull =>
    alterColumn column ((if notNull then "SET" else "DROP") ++ " NOT NULL")
  | .setStatistics column target =>
    alterColumn column ("SET STATISTICS " ++ Sql.integer target.toInt)
  | .setAttributeOption column distinctValues =>
    alterColumn column ("SET (n_distinct=" ++ numberLayout.text distinctValues ++ ")")
  | .resetAttributeOption column => alterColumn column "RESET (n_distinct)"
  | .setStorage column storage => alterColumn column ("SET STORAGE " ++ storage.sql)
  | .addCheckConstraint name => "ADD CONSTRAINT " ++ name ++ " CHECK (TRUE)"
  | .addConstraintUsingIndex name kind index =>
    "ADD CONSTRAINT " ++ name ++ " " ++ kind.sql ++ " USING INDEX " ++ index
  | .validateConstraint name => "VALIDATE CONSTRAINT " ++ name
  | .rowSecurity setting => setting.sql ++ " ROW LEVEL SECURITY"
  | .clusterOn index => "CLUSTER ON " ++ index
  | .setWithoutCluster => "SET WITHOUT CLUSTER"
  | .setWithoutOids => "SET WITHOUT OIDS"
  | .setLogged true => "SET LOGGED"
  | .setLogged false => "SET UNLOGGED"
  | .notOf => "NOT OF"
  | .ownerTo role => "OWNER TO " ++ role.sql
  | .replicaIdentity identity => "REPLICA IDENTITY " ++ identity.sql
  | .dropIdentity column ifExists =>
    alterColumn column ("DROP IDENTITY" ++ (if ifExists then " IF EXISTS" else ""))
  | .restartIdentity column value =>
    alterColumn column
      ("RESTART" ++ Sql.optional value fun v => " WITH " ++ Sql.integer v.toInt)

/-- The errors that depend on a choice made for the action. -/
def expectedErrors : AlterAction → List String
  | .columnNotNull _ true => ["contains null values"]
  | .columnNotNull _ false => ["is in a primary key", "is an identity column"]
  | _ => []

/-- Numbers are compared by value, so the two zeros are equal and a NaN is not equal to itself. -/
def sameValue : AlterAction → AlterAction → Bool
  | .setAttributeOption c x, .setAttributeOption d y => c == d && x.sameValue y
  | a, b => a == b

end AlterAction

namespace AlterFragment

def sql (f : AlterFragment) : String :=
  "ALTER TABLE " ++ (if f.only then "ONLY " else "") ++ f.table ++ " " ++ f.action.sql

def sameValue (f g : AlterFragment) : Bool :=
  f.table == g.table && f.only == g.only && f.action.sameValue g.action

end AlterFragment

namespace AlterTable

def sql (a : AlterTable) : String := Sql.separated "; " (a.fragments.map AlterFragment.sql)

def sameValue (a b : AlterTable) : Bool :=
  sameItems AlterFragment.sameValue a.fragments b.fragments

end AlterTable

def AlterTableQuery.statement (q : AlterTableQuery) : Statement :=
  ⟨q.alterTable.sql, q.expectedErrors, true⟩

end QueryForge
