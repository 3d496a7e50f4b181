import QueryForge.Expr

/-!
# Distinctness and row locking

A statement that is DISTINCT cannot lock rows, so the two share one slot.
-/

namespace QueryForge

inductive SelectOption where
  | all
  | distinct
deriving DecidableEq, Repr

/-- The strength of a row lock, written behind `FOR`. -/
inductive LockingClause where
  | update
  | noKeyUpdate
  | share
  | keyShare
deriving DecidableEq, Repr

namespace LockingClause

def all : List LockingClause := [.update, .noKeyUpdate, .share, .keyShare]

def sql : LockingClause → String
  | .update => "UPDATE"
  | .noKeyUpdate => "NO KEY UPDATE"
  | .share => "SHARE"
  | .keyShare => "KEY SHARE"

end LockingClause

inductive SelectModifier where
  | all
  | distinct (on : Option Expr)
  | locked (clause : LockingClause)

namespace SelectModifier

def option : SelectModifier → SelectOption
  | .distinct _ => .distinct
  | .all | .locked _ => .all

def distinctOn : SelectModifier → Option Expr
  | .distinct on => on
  | .all | .locked _ => none

def lockingClause : SelectModifier → Option LockingClause
  | .locked clause => some clause
  | .all | .distinct _ => none

def distinctSql : SelectModifier → String
  | .distinct on => " DISTINCT" ++ Sql.optional on fun e => " ON (" ++ e.sql ++ ")"
  | .all | .locked _ => ""

def lockingSql : SelectModifier → String
  | .locked clause => " FOR " ++ clause.sql
  | .all | .distinct _ => ""

def sameValue : SelectModifier → SelectModifier → Bool
  | .all, .all => true
  | .distinct a, .distinct b => sameOption Expr.sameValue a b
  | .locked a, .locked b => a == b
  | _, _ => false

end SelectModifier
end QueryForge
