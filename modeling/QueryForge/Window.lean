import QueryForge.Catalog

/-!
# Windows

Order terms, frames, window definitions and window functions. They are built over a type of
operands `E`, so that the same shapes serve expressions, their SQL texts and their documents.
-/

namespace QueryForge

inductive SortOrder where
  | ascending
  | descending
deriving DecidableEq, Repr

inductive NullsOrder where
  | first
  | last
deriving DecidableEq, Repr

structure OrderTerm (E : Type) where
  expr : E
  order : Option SortOrder := none
  nulls : Option NullsOrder := none
deriving DecidableEq, Repr

inductive FrameMode where
  | range
  | rows
  | groups
deriving DecidableEq, Repr

inductive FrameBound where
  | unboundedPreceding
  | preceding (offset : UInt32)
  | currentRow
  | following (offset : UInt32)
  | unboundedFollowing
deriving DecidableEq, Repr

inductive FrameExclusion where
  | currentRow
  | group
  | ties
  | noOthers
deriving DecidableEq, Repr

structure WindowFrame where
  mode : FrameMode
  start : FrameBound
  stop : Option FrameBound
  exclusion : Option FrameExclusion
deriving DecidableEq, Repr

/-- The body of a window, without the parentheses around it. -/
structure WindowDefinition (E : Type) where
  partitionBy : List E := []
  orderBy : List (OrderTerm E) := []
  frame : Option WindowFrame := none
deriving DecidableEq, Repr

inductive WindowKind where
  | rowNumber
  | rank
  | denseRank
  | count
  | sum
  | min
  | max
deriving DecidableEq, Repr

/-- What stands behind `OVER`: a name of the statement's WINDOW clause, or a window in place. -/
inductive WindowReference (E : Type) where
  | named (name : String)
  | inline (definition : WindowDefinition E)
deriving DecidableEq, Repr

structure WindowFunction (E : Type) where
  kind : WindowKind
  argument : Option E
  window : WindowReference E
deriving DecidableEq, Repr

namespace SortOrder

def sql : SortOrder → String
  | .ascending => "ASC"
  | .descending => "DESC"

end SortOrder

namespace NullsOrder

def sql : NullsOrder → String
  | .first => "NULLS FIRST"
  | .last => "NULLS LAST"

end NullsOrder

namespace FrameMode

def sql : FrameMode → String
  | .range => "RANGE"
  | .rows => "ROWS"
  | .groups => "GROUPS"

end FrameMode

namespace FrameBound

def sql : FrameBound → String
  | .unboundedPreceding => "UNBOUNDED PRECEDING"
  | .preceding offset => offset.toNat.repr ++ " PRECEDING"
  | .currentRow => "CURRENT ROW"
  | .following offset => offset.toNat.repr ++ " FOLLOWING"
  | .unboundedFollowing => "UNBOUNDED FOLLOWING"

end FrameBound

namespace FrameExclusion

def sql : FrameExclusion → String
  | .currentRow => "EXCLUDE CURRENT ROW"
  | .group => "EXCLUDE GROUP"
  | .ties => "EXCLUDE TIES"
  | .noOthers => "EXCLUDE NO OTHERS"

end FrameExclusion

namespace WindowFrame

def sql (f : WindowFrame) : String :=
  f.mode.sql ++
    (match f.stop with
     | some stop => " BETWEEN " ++ f.start.sql ++ " AND " ++ stop.sql
     | none => " " ++ f.start.sql) ++
    Sql.optional f.exclusion fun e => " " ++ e.sql

end WindowFrame

namespace WindowKind

def all : List WindowKind := [.rowNumber, .rank, .denseRank, .count, .sum, .min, .max]

def sql : WindowKind → String
  | .rowNumber => "ROW_NUMBER"
  | .rank => "RANK"
  | .denseRank => "DENSE_RANK"
  | .count => "COUNT"
  | .sum => "SUM"
  | .min => "MIN"
  | .max => "MAX"

/-- Ranking functions take no argument. -/
def takesArgument : WindowKind → Bool
  | .rowNumber | .rank | .denseRank => false
  | .count | .sum | .min | .max => true

end WindowKind

namespace OrderTerm

variable {E F : Type}

def map (f : E → F) (t : OrderTerm E) : OrderTerm F := ⟨f t.expr, t.order, t.nulls⟩

/-- The text of a term whose operand is a text already. -/
def sql (t : OrderTerm String) : String :=
  t.expr ++ Sql.optional t.order (fun o => " " ++ o.sql) ++
    Sql.optional t.nulls fun n => " " ++ n.sql

def sameBy (same : E → F → Bool) (t : OrderTerm E) (u : OrderTerm F) : Bool :=
  same t.expr u.expr && t.order == u.order && t.nulls == u.nulls

end OrderTerm

/-- Lists of one length whose items agree pairwise. -/
def sameItems {E F : Type} (same : E → F → Bool) : List E → List F → Bool
  | [], [] => true
  | a :: as, b :: bs => same a b && sameItems same as bs
  | _, _ => false

def sameOption {E F : Type} (same : E → F → Bool) : Option E → Option F → Bool
  | none, none => true
  | some a, some b => same a b
  | _, _ => false

namespace WindowDefinition

variable {E F : Type}

def map (f : E → F) (d : WindowDefinition E) : WindowDefinition F :=
  ⟨d.partitionBy.map f, d.orderBy.map (OrderTerm.map f), d.frame⟩

/-- The parts that are there, with a blank between two of them. -/
def sql (d : WindowDefinition String) : String :=
  Sql.separated " "
    ((if d.partitionBy.isEmpty then []
      else ["PARTITION BY " ++ Sql.commaSeparated d.partitionBy]) ++
     (if d.orderBy.isEmpty then []
      else ["ORDER BY " ++ Sql.commaSeparated (d.orderBy.map OrderTerm.sql)]) ++
     d.frame.toList.map WindowFrame.sql)

def operands (d : WindowDefinition E) : List E := d.partitionBy ++ d.orderBy.map OrderTerm.expr

def sameBy (same : E → F → Bool) (d : WindowDefinition E) (e : WindowDefinition F) : Bool :=
  sameItems same d.partitionBy e.partitionBy &&
    sameItems (OrderTerm.sameBy same) d.orderBy e.orderBy && d.frame == e.frame

end WindowDefinition

namespace WindowReference

variable {E F : Type}

def map (f : E → F) : WindowReference E → WindowReference F
  | .named name => .named name
  | .inline definition => .inline (definition.map f)

def sql : WindowReference String → String
  | .named name => name
  | .inline definition => "(" ++ definition.sql ++ ")"

def operands : WindowReference E → List E
  | .named _ => []
  | .inline definition => definition.operands

def sameBy (same : E → F → Bool) : WindowReference E → WindowReference F → Bool
  | .named a, .named b => a == b
  | .inline d, .inline e => d.sameBy same e
  | _, _ => false

end WindowReference

namespace WindowFunction

variable {E F : Type}

def map (f : E → F) (w : WindowFunction E) : WindowFunction F :=
  ⟨w.kind, w.argument.map f, w.window.map f⟩

def sql (w : WindowFunction String) : String :=
  w.kind.sql ++ "(" ++ w.argument.getD "" ++ ") OVER " ++ w.window.sql

def operands (w : WindowFunction E) : List E := w.argument.toList ++ w.window.operands

def sameBy (same : E → F → Bool) (w : WindowFunction E) (v : WindowFunction F) : Bool :=
  w.kind == v.kind && sameOption same w.argument v.argument && w.window.sameBy same v.window

end WindowFunction
end QueryForge
