import QueryForge.Select.Modifier

/-!
# Errors of building

A violated invariant comes from a setter that would have put clauses together which exclude each
other. The other errors say that something required is missing, or that an option is unusable.
-/

namespace QueryForge

/-- An option outside its range, named by its path. -/
structure RangeViolation where
  path : String
  /-- Whether the value lies below the range; otherwise it lies above. -/
  isLow : Bool
  bound : Nat
deriving DecidableEq, Repr

namespace RangeViolation

def line (v : RangeViolation) : String :=
  v.path ++ (if v.isLow then ": lower than " else ": greater than ") ++ v.bound.repr ++ "\n"

end RangeViolation

inductive BuildError where
  | lockingWithDistinct (clause : LockingClause)
  | lockingWithGroupBy (clause : LockingClause)
  | distinctOnWithoutDistinct
  | emptyCteName
  | missingCteQuery (name : String)
  | emptyCteList
  | optionsOutOfRange (violations : List RangeViolation)
  | optionsUnreadable
deriving DecidableEq, Repr

namespace BuildError

/-- What is wrong with a text of options is not told. -/
def message : BuildError → String
  | .lockingWithDistinct clause => "FOR " ++ clause.sql ++ " is not allowed with DISTINCT clause"
  | .lockingWithGroupBy clause => "FOR " ++ clause.sql ++ " is not allowed with GROUP BY clause"
  | .distinctOnWithoutDistinct => "DISTINCT ON requires SELECT DISTINCT"
  | .emptyCteName => "CTE name cannot be empty"
  | .missingCteQuery name => "CTE " ++ name ++ " has no defining query"
  | .emptyCteList => "CTE list cannot be empty"
  | .optionsOutOfRange violations =>
    "invalid generation options: " ++ Sql.concat (violations.map RangeViolation.line)
  | .optionsUnreadable => "<parse>"

def isInvariantViolation : BuildError → Bool
  | .lockingWithDistinct _ | .lockingWithGroupBy _ | .distinctOnWithoutDistinct => true
  | _ => false

end BuildError
end QueryForge
