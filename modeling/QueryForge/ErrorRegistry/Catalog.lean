import QueryForge.ErrorRegistry

/-!
# Catalog of expected errors

The texts are the database's own wording, so they are compared character by character.
-/

namespace QueryForge.ErrorRegistry

/-- Failures of any expression. -/
def expressionErrors : List String :=
  ["You might need to add explicit type casts",
    "invalid regular expression",
    "could not determine which collation to use",
    "invalid input syntax for",
    "value too long for type character",
    "argument of NOT must be type boolean",
    "operator does not exist",
    "operator is not unique",
    "division by zero",
    "out of range",
    "cannot cast type",
    "negative substring length not allowed",
    "function does not exist",
    "LIKE pattern must not end with escape character",
    "cannot AND bit strings of different sizes",
    "cannot OR bit strings of different sizes",
    "cannot XOR bit strings of different sizes",
    "is not a valid binary digit",
    "bit string length",
    "result of range difference would not be contiguous",
    "result of range union would not be contiguous",
    "range lower bound must be less than or equal to range upper bound",
    "invalid input syntax for type money",
    "canceling statement due to statement timeout"]

/-- Failures of inserted and updated rows, which a change of all rows of a table repeats. -/
def writeErrors : List String :=
  ["value too long for type character",
    "not found in view targetlist",
    "violates check constraint",
    "violates not-null constraint",
    "violates unique constraint",
    "violates foreign key constraint",
    "violates exclusion constraint",
    "duplicate key value violates unique constraint",
    "could not create unique index",
    "cannot insert a non-DEFAULT value into column",
    "but expression is of type"]

/-- Failures of table definitions. -/
def tableErrors : List String :=
  ["is not a table",
    "is not a typed table",
    "cannot use subquery in check constraint",
    "cannot use column reference in DEFAULT expression",
    "generation expression is not immutable",
    "cannot be used in a generation expression",
    "PRIMARY KEY containing generated column",
    "there is no unique constraint matching given keys for referenced table",
    "has no column named",
    "multiple primary keys for table",
    "could not identify an equality operator for type",
    "data type"]

/-- Failures of any ALTER TABLE statement, whatever its actions. -/
def alterTableErrors : List String :=
  ["cannot drop desired object(s) because other objects depend on them",
    "invalid input syntax for",
    "it has pending trigger events",
    "could not open relation",
    "functions in index expression must be marked IMMUTABLE",
    "functions in index predicate must be marked IMMUTABLE",
    "has no default operator class for access method",
    "does not accept data type",
    "does not exist for access method",
    "could not find cast from",
    "does not exist",
    "constraints on permanent tables may reference only permanent tables"]

/-- Failures of the shapes that generated SELECT statements take. -/
def selectErrors : List String :=
  ["is not allowed with DISTINCT clause",
    "is not allowed with GROUP BY clause",
    "is not allowed with window functions",
    "is not allowed with UNION/INTERSECT/EXCEPT",
    "cannot be applied to the nullable side of an outer join",
    "cannot be applied to a WITH query",
    "SELECT DISTINCT ON expressions must match initial ORDER BY expressions",
    "for SELECT DISTINCT, ORDER BY expressions must appear in select list",
    "must appear in the GROUP BY clause or be used in an aggregate function",
    "each UNION query must have the same number of columns",
    "each INTERSECT query must have the same number of columns",
    "each EXCEPT query must have the same number of columns",
    "could not identify an equality operator for type",
    "could not identify an ordering operator for type",
    "could not identify a comparison function for type",
    "frame starting from",
    "frame ending at",
    "frame starting offset must not be",
    "frame ending offset must not be",
    "requires exactly one ORDER BY column",
    "GROUPS mode requires an ORDER BY clause",
    "window functions are not allowed in"]

def addExpressionErrors (r : ErrorRegistry) : ErrorRegistry := r.addAll expressionErrors

def addWriteErrors (r : ErrorRegistry) : ErrorRegistry := r.addAll writeErrors

def addTableErrors (r : ErrorRegistry) : ErrorRegistry := r.addAll tableErrors

end QueryForge.ErrorRegistry
