import QueryForge.Binary64

/-!
# The fewest decimal digits that read back

A decimal stands for a number if reading it gives that number again. For one, two, and more
digits `shortest` looks at the two decimals of that many digits around the number. The first
count with one that reads back wins, and of two the nearer.
-/

namespace QueryForge

/-- The value `digits * 10 ^ exponent`. -/
structure Decimal where
  digits : Nat
  exponent : Int
deriving DecidableEq, Repr

/-- Which of two equally near decimals is taken. -/
inductive TieRule where
  | toEven
  | up
deriving DecidableEq, Repr

namespace Decimal

def ReadsBack (x : Binary64) (d : Decimal) : Prop :=
  Binary64.ofDecimal? x.negative d.digits d.exponent = some x

instance (x : Binary64) (d : Decimal) : Decidable (d.ReadsBack x) :=
  inferInstanceAs (Decidable (_ = _))

/-- The power of ten just above a magnitude: 1 for the numbers from 1 to below 10, 0 for those
from 0.1 to below 1. The smallest magnitude has 323 zeros behind the point. -/
def leadingPlace (units : Nat) : Int :=
  (Nat.toDigits 10 (units * Nat.pow 10 400 / Binary64.unitsPerOne)).length - 400

/-- A magnitude as a quotient of whole numbers, counted in steps of `10 ^ exponent`. -/
def steps (units : Nat) (exponent : Int) : Nat × Nat :=
  if 0 ≤ exponent then (units, Binary64.unitsPerOne * Nat.pow 10 exponent.toNat)
  else (units * Nat.pow 10 (-exponent).toNat, Binary64.unitsPerOne)

/-- The greatest decimal of `count` digits that is not above a magnitude. -/
def lower (units count : Nat) : Decimal :=
  let exponent := leadingPlace units - count
  let quotient := steps units exponent
  ⟨quotient.1 / quotient.2, exponent⟩

/-- The decimal of `count` digits behind one of them. -/
def next (count : Nat) (d : Decimal) : Decimal :=
  if d.digits + 1 = Nat.pow 10 count then ⟨1, d.exponent + count⟩ else ⟨d.digits + 1, d.exponent⟩

/-- The two decimals of `count` digits around a magnitude, the nearer first. -/
def around (tie : TieRule) (units count : Nat) : List Decimal :=
  let lower := lower units count
  let upper := lower.next count
  let quotient := steps units lower.exponent
  let twiceRest := 2 * (quotient.1 % quotient.2)
  let upperFirst := quotient.2 < twiceRest ∨
    quotient.2 = twiceRest ∧ (tie = .up ∨ lower.digits % 2 = 1)
  if upperFirst then [upper, lower] else [lower, upper]

/-- Seventeen digits always suffice; the written-out value of the units stands for the rest. -/
def shortest (tie : TieRule) (x : Binary64) : Decimal :=
  let found := (List.range 17).findSome? fun i =>
    (around tie x.units (i + 1)).find? fun d => d.ReadsBack x
  found.getD ⟨x.units * Nat.pow 5 1074, -1074⟩

end Decimal
end QueryForge
