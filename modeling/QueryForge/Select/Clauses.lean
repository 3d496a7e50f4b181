import QueryForge.Select.Modifier
import QueryForge.Select.NamedWindows

/-!
# The clauses of one statement

The parts of a SELECT statement over a type `Q` of nested statements: those in FROM and JOIN, the
queries of its WITH clause, and the next arm of its set operation. `nested` lists them in the
order in which a reader meets them.
-/

namespace QueryForge

inductive SetOperator where
  | union
  | unionAll
  | intersect
  | except
deriving DecidableEq, Repr

inductive JoinKind where
  | inner
  | left
  | right
  | full
  | cross
deriving DecidableEq, Repr

inductive ResultColumn where
  | expr (value : Expr) (asName : Option String)
  | star

inductive FromItem (Q : Type) where
  | table (name : String) (only : Bool) (asName : Option String)
  | subquery (query : Q) (asName : String)

structure Join (Q : Type) where
  kind : JoinKind
  item : FromItem Q
  /-- Not looked at for a cross join. -/
  on : Option Expr

/-- A common table expression; `columns` is a snapshot of the catalog columns that it reads. -/
structure Cte (Q : Type) where
  name : String
  columnAliases : List String
  query : Q
  columns : List Column

structure WithClause (Q : Type) where
  ctes : List (Cte Q)

structure SetOperation (Q : Type) where
  operator : SetOperator
  query : Q

structure Clauses (Q : Type) where
  withClause : Option (WithClause Q) := none
  modifier : SelectModifier := .all
  columns : List ResultColumn := []
  windowFunctions : List (WindowFunction Expr) := []
  fromItems : List (FromItem Q) := []
  joins : List (Join Q) := []
  filter : Option Expr := none
  groupBy : List Expr := []
  having : Option Expr := none
  windows : NamedWindows := .empty
  orderBy : List (OrderTerm Expr) := []
  limit : Option UInt64 := none
  offset : Option UInt64 := none
  setOperation : Option (SetOperation Q) := none

namespace SetOperator

def all : List SetOperator := [.union, .unionAll, .intersect, .except]

def sql : SetOperator → String
  | .union => "UNION"
  | .unionAll => "UNION ALL"
  | .intersect => "INTERSECT"
  | .except => "EXCEPT"

end SetOperator

namespace JoinKind

def all : List JoinKind := [.inner, .left, .right, .full, .cross]

def isOuter : JoinKind → Bool
  | .left | .right | .full => true
  | .inner | .cross => false

def sql : JoinKind → String
  | .inner => "INNER JOIN"
  | .left => "LEFT OUTER JOIN"
  | .right => "RIGHT OUTER JOIN"
  | .full => "FULL OUTER JOIN"
  | .cross => "CROSS JOIN"

end JoinKind

namespace ResultColumn

def sql : ResultColumn → String
  | .expr value asName => value.sql ++ Sql.optional asName fun a => " AS " ++ a
  | .star => "*"

def isStar : ResultColumn → Bool
  | .star => true
  | .expr .. => false

def sameValue : ResultColumn → ResultColumn → Bool
  | .expr a asName, .expr b asName' => a.sameValue b && asName == asName'
  | .star, .star => true
  | _, _ => false

end ResultColumn

namespace FromItem

variable {Q R : Type}

def ofTable (name : String) : FromItem Q := .table name false none

def map (f : Q → R) : FromItem Q → FromItem R
  | .table name only asName => .table name only asName
  | .subquery query asName => .subquery (f query) asName

def nested : FromItem Q → List Q
  | .table .. => []
  | .subquery query _ => [query]

def sql : FromItem String → String
  | .table name only asName =>
    (if only then "ONLY " else "") ++ name ++ Sql.optional asName fun a => " AS " ++ a
  | .subquery query asName => "(" ++ query ++ ") AS " ++ asName

def sameBy (same : Q → R → Bool) : FromItem Q → FromItem R → Bool
  | .table n o a, .table n' o' a' => n == n' && o == o' && a == a'
  | .subquery q a, .subquery q' a' => same q q' && a == a'
  | _, _ => false

end FromItem

namespace Join

variable {Q R : Type}

def map (f : Q → R) (j : Join Q) : Join R := ⟨j.kind, j.item.map f, j.on⟩

/-- A join without a condition holds for every pair of rows; a cross join has no condition. -/
def sql (j : Join String) : String :=
  j.kind.sql ++ " " ++ j.item.sql ++
    (if j.kind = .cross then "" else " ON " ++ (j.on.map Expr.sql).getD "TRUE")

def sameBy (same : Q → R → Bool) (j : Join Q) (k : Join R) : Bool :=
  j.kind == k.kind && j.item.sameBy same k.item && sameOption Expr.sameValue j.on k.on

end Join

namespace Cte

variable {Q R : Type}

def map (f : Q → R) (c : Cte Q) : Cte R := ⟨c.name, c.columnAliases, f c.query, c.columns⟩

def sql (c : Cte String) : String :=
  c.name ++
    (if c.columnAliases.isEmpty then ""
     else "(" ++ Sql.commaSeparated c.columnAliases ++ ")") ++
    " AS (" ++ c.query ++ ")"

def sameBy (same : Q → R → Bool) (c : Cte Q) (d : Cte R) : Bool :=
  c.name == d.name && c.columnAliases == d.columnAliases && same c.query d.query &&
    c.columns == d.columns

end Cte

namespace WithClause

variable {Q R : Type}

def map (f : Q → R) (w : WithClause Q) : WithClause R := ⟨w.ctes.map (Cte.map f)⟩

def sql (w : WithClause String) : String := "WITH " ++ Sql.commaSeparated (w.ctes.map Cte.sql)

def sameBy (same : Q → R → Bool) (w : WithClause Q) (v : WithClause R) : Bool :=
  sameItems (Cte.sameBy same) w.ctes v.ctes

end WithClause

namespace SetOperation

variable {Q R : Type}

def map (f : Q → R) (s : SetOperation Q) : SetOperation R := ⟨s.operator, f s.query⟩

def sql (s : SetOperation String) : String := " " ++ s.operator.sql ++ " " ++ s.query

def sameBy (same : Q → R → Bool) (s : SetOperation Q) (t : SetOperation R) : Bool :=
  s.operator == t.operator && same s.query t.query

end SetOperation

namespace Clauses

variable {Q R : Type}

def map (f : Q → R) (c : Clauses Q) : Clauses R where
  withClause := c.withClause.map (WithClause.map f)
  modifier := c.modifier
  columns := c.columns
  windowFunctions := c.windowFunctions
  fromItems := c.fromItems.map (FromItem.map f)
  joins := c.joins.map (Join.map f)
  filter := c.filter
  groupBy := c.groupBy
  having := c.having
  windows := c.windows
  orderBy := c.orderBy
  limit := c.limit
  offset := c.offset
  setOperation := c.setOperation.map (SetOperation.map f)

def ctes (c : Clauses Q) : List (Cte Q) :=
  match c.withClause with
  | none => []
  | some w => w.ctes

/-- WITH queries, FROM subqueries, JOIN subqueries, and the next arm. -/
def nested (c : Clauses Q) : List Q :=
  c.ctes.map Cte.query ++ c.fromItems.flatMap FromItem.nested ++
    c.joins.flatMap (fun j => j.item.nested) ++ c.setOperation.toList.map SetOperation.query

/-- The result columns and the window functions share one list. A list without any text is left
out together with the blank before it. -/
def projectionSql (c : Clauses Q) : String :=
  let text := Sql.commaSeparated
    (c.columns.map ResultColumn.sql ++ c.windowFunctions.map WindowFunction.text)
  if text.isEmpty then "" else " " ++ text

/-- The text of a statement whose nested statements are texts already. -/
def sql (c : Clauses String) : String :=
  Sql.optional c.withClause (fun w => w.sql ++ " ") ++
    "SELECT" ++ c.modifier.distinctSql ++ c.projectionSql ++
    Sql.clause " FROM " (c.fromItems.map FromItem.sql) ++
    Sql.concat (c.joins.map fun j => " " ++ j.sql) ++
    Sql.optional c.filter (fun e => " WHERE " ++ e.sql) ++
    Sql.clause " GROUP BY " (c.groupBy.map Expr.sql) ++
    Sql.optional c.having (fun e => " HAVING " ++ e.sql) ++
    c.windows.sql ++
    Sql.clause " ORDER BY " (c.orderBy.map OrderTerm.text) ++
    Sql.optional c.limit (fun n => " LIMIT " ++ n.toNat.repr) ++
    Sql.optional c.offset (fun n => " OFFSET " ++ n.toNat.repr) ++
    c.modifier.lockingSql ++
    Sql.optional c.setOperation SetOperation.sql

def sameBy (same : Q → R → Bool) (c : Clauses Q) (d : Clauses R) : Bool :=
  sameOption (WithClause.sameBy same) c.withClause d.withClause &&
    c.modifier.sameValue d.modifier &&
    sameItems ResultColumn.sameValue c.columns d.columns &&
    sameItems (WindowFunction.sameBy Expr.sameValue) c.windowFunctions d.windowFunctions &&
    sameItems (FromItem.sameBy same) c.fromItems d.fromItems &&
    sameItems (Join.sameBy same) c.joins d.joins &&
    sameOption Expr.sameValue c.filter d.filter &&
    sameItems Expr.sameValue c.groupBy d.groupBy &&
    sameOption Expr.sameValue c.having d.having &&
    c.windows.sameValue d.windows &&
    sameItems (OrderTerm.sameBy Expr.sameValue) c.orderBy d.orderBy &&
    c.limit == d.limit && c.offset == d.offset &&
    sameOption (SetOperation.sameBy same) c.setOperation d.setOperation

/-- How many columns the statement produces; unknown if one of them is a star. -/
def columnCount (c : Clauses Q) : Option Nat :=
  if c.columns.any ResultColumn.isStar then none
  else some (c.columns.length + c.windowFunctions.length)

end Clauses
end QueryForge
