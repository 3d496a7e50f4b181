/-!
# The catalog

Tables, their columns and indexes, as far as statements are generated from them, and the pieces
of SQL text that every statement is put together from: separated lists, quoted literals and whole
numbers.
-/

namespace QueryForge

namespace Sql

def separated (separator : String) : List String → String
  | [] => ""
  | [piece] => piece
  | piece :: next :: rest => piece ++ separator ++ separated separator (next :: rest)

def commaSeparated (pieces : List String) : String := separated ", " pieces

/-- A quote inside a literal is written twice. -/
def doubleQuotes : List Char → List Char
  | [] => []
  | c :: rest => if c = '\'' then '\'' :: '\'' :: doubleQuotes rest else c :: doubleQuotes rest

def quoted (s : String) : String := "'" ++ String.ofList (doubleQuotes s.toList) ++ "'"

def integer (i : Int) : String := if i < 0 then "-" ++ i.natAbs.repr else i.natAbs.repr

def concat : List String → String
  | [] => ""
  | piece :: rest => piece ++ concat rest

/-- A clause that is left out when its list is empty. -/
def clause (keyword : String) : List String → String
  | [] => ""
  | pieces => keyword ++ commaSeparated pieces

/-- A clause that is left out when its value is absent. -/
def optional {α : Type} (value : Option α) (text : α → String) : String :=
  match value with
  | none => ""
  | some a => text a

end Sql

inductive ColumnType where
  | int
  | boolean
  | text
  | decimal
  | float
  | real
  | range
  | money
  | bit
  | inet
deriving DecidableEq, Repr

namespace ColumnType

def all : List ColumnType :=
  [.int, .boolean, .text, .decimal, .float, .real, .range, .money, .bit, .inet]

def sql : ColumnType → String
  | .int => "INT"
  | .boolean => "BOOLEAN"
  | .text => "TEXT"
  | .decimal => "DECIMAL"
  | .float => "FLOAT"
  | .real => "REAL"
  | .range => "int4range"
  | .money => "MONEY"
  | .bit => "BIT VARYING"
  | .inet => "INET"

def isInteger (t : ColumnType) : Bool := t == .int

/-- The types that accept no storage mode but `PLAIN`, and that can be summed. -/
def isNumeric : ColumnType → Bool
  | .int | .decimal | .float | .real | .money => true
  | .boolean | .text | .range | .bit | .inet => false

/-- The types with an ordering, usable in ORDER BY and in comparisons by size. -/
def isOrderable (t : ColumnType) : Bool := t != .range

end ColumnType

structure Column where
  name : String
  type : ColumnType
  nullable : Bool := true
  identity : Bool := false
deriving DecidableEq, Repr

namespace Column

def notNull (c : Column) : Column := { c with nullable := false }

/-- An identity column is never null. -/
def asIdentity (c : Column) : Column := { c with identity := true, nullable := false }

def sql (c : Column) : String :=
  c.name ++ " " ++ c.type.sql ++
    (if c.identity then " GENERATED BY DEFAULT AS IDENTITY"
     else if c.nullable then "" else " NOT NULL")

end Column

structure Index where
  name : String
  columns : List String
  unique : Bool := false
deriving DecidableEq, Repr

structure Table where
  name : String
  columns : List Column
  indexes : List Index := []
deriving DecidableEq, Repr

namespace Table

def addIndex (t : Table) (i : Index) : Table := { t with indexes := t.indexes ++ [i] }

def hasIndexes (t : Table) : Bool := !t.indexes.isEmpty

def integerColumns (t : Table) : List Column := t.columns.filter fun c => c.type.isInteger

def hasIntegerColumn (t : Table) : Bool := t.columns.any fun c => c.type.isInteger

theorem columns_ne_nil {t : Table} (h : t.hasIntegerColumn) : t.columns ≠ [] := by
  intro none
  rw [hasIntegerColumn, none] at h
  exact nomatch h

/-- The first column of that name. -/
def column? (t : Table) (name : String) : Option Column :=
  t.columns.find? fun c => c.name == name

def sql (t : Table) : String :=
  "CREATE TABLE " ++ t.name ++ " (" ++ Sql.commaSeparated (t.columns.map Column.sql) ++ ")"

end Table

structure Schema where
  tables : List Table := []
deriving DecidableEq, Repr

namespace Schema

def addTable (s : Schema) (t : Table) : Schema := { s with tables := s.tables ++ [t] }

/-- The first table of that name. -/
def table? (s : Schema) (name : String) : Option Table :=
  s.tables.find? fun t => t.name == name

end Schema
end QueryForge
