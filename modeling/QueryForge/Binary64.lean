/-!
# Binary floating-point numbers of 64 bits

A finite number is a sign and the rank of its magnitude among all finite magnitudes, so consecutive
ranks are neighbouring numbers. Every finite number is a whole multiple of 2^-1074 and `units`
counts them; `nearestRank` takes an exact quotient to the closest rank, a tie to the even one. Each
operation computes its exact result as a quotient of whole numbers and rounds once. A `Double` may
also be an infinity or no number at all.
-/

namespace QueryForge

/-- How many ranks lie between two powers of two. -/
def Binary64.binade : Nat := 1 <<< 52

/-- The number of finite magnitudes. -/
def Binary64.rankLimit : Nat := 2047 * Binary64.binade

/-- A finite number: what a token of a text denotes and what arithmetic on such numbers gives. -/
structure Binary64 where
  negative : Bool
  rank : Nat
  finite : rank < Binary64.rankLimit
deriving DecidableEq, Repr

namespace Binary64

/-- Units of 2^-1074 in the number one. -/
def unitsPerOne : Nat := 1 <<< 1074

/-- The ranks of the first two binades are spaced by one unit; from there the spacing doubles in
every binade. -/
def unitsOfRank (rank : Nat) : Nat :=
  if rank < binade then rank else (binade + rank % binade) <<< (rank / binade - 1)

/-- The magnitude, counted in units of 2^-1074. -/
def units (x : Binary64) : Nat := unitsOfRank x.rank

def signedUnits (x : Binary64) : Int := if x.negative then -(x.units : Int) else x.units

/-- The whole number closest to `num / den`; a tie goes to the even one. -/
def roundHalfEven (num den : Nat) : Nat :=
  let low := num / den
  let rest := num % den
  if den < 2 * rest ∨ den = 2 * rest ∧ low % 2 = 1 then low + 1 else low

/-- The rank closest to `num / den`. A magnitude keeps 53 leading bits, so `dropped` counts the
bits below them. Rounding up to a power of two carries into the next binade by itself. -/
def nearestRank (num den : Nat) : Nat :=
  let dropped := (num * unitsPerOne / den).log2 - 52
  dropped * binade + roundHalfEven (num * unitsPerOne) (den <<< dropped)

def ofRank? (negative : Bool) (rank : Nat) : Option Binary64 :=
  if h : rank < rankLimit then some ⟨negative, rank, h⟩ else none

/-- A magnitude beyond the largest finite number is replaced by that number. -/
def ofRank (negative : Bool) (rank : Nat) : Binary64 :=
  have positive : 0 < rankLimit := by decide
  ⟨negative, min rank (rankLimit - 1), by omega⟩

def zero (negative : Bool) : Binary64 := ofRank negative 0

def ofFraction (num den : Nat) : Binary64 := ofRank false (nearestRank num den)

def ofNat (n : Nat) : Binary64 := ofFraction n 1

/-- The number closest to `digits * 10 ^ exponent`, or `none` beyond the finite range. The first
two tests keep the powers of ten small: a number of more than 310 integer places overflows, and
one with 330 zeros behind the point is closer to zero than to any other number. -/
def ofDecimal? (negative : Bool) (digits : Nat) (exponent : Int) : Option Binary64 :=
  let places := (Nat.toDigits 10 digits).length + exponent
  if digits = 0 ∨ places < -330 then some (zero negative)
  else if 310 < places then none
  else if 0 ≤ exponent then ofRank? negative (nearestRank (digits * Nat.pow 10 exponent.toNat) 1)
  else ofRank? negative (nearestRank digits (Nat.pow 10 (-exponent).toNat))

/-- Equality of values: the two zeros are equal. -/
def sameValue (x y : Binary64) : Bool := x.signedUnits == y.signedUnits

def neg (x : Binary64) : Binary64 := ⟨!x.negative, x.rank, x.finite⟩

def mul (x y : Binary64) : Binary64 :=
  ofRank (x.negative ^^ y.negative) (nearestRank (x.units * y.units) (unitsPerOne * unitsPerOne))

/-- A zero divisor yields zero. -/
def div (x y : Binary64) : Binary64 :=
  if y.units = 0 then zero (x.negative ^^ y.negative)
  else ofRank (x.negative ^^ y.negative) (nearestRank x.units y.units)

/-- Equal operands give +0, except that -0 - (+0) keeps its sign. -/
def sub (x y : Binary64) : Binary64 :=
  let difference := x.signedUnits - y.signedUnits
  if difference = 0 then zero (x.rank == 0 && x.negative && !y.negative)
  else ofRank (difference < 0) (nearestRank difference.natAbs unitsPerOne)

def add (x y : Binary64) : Binary64 := x.sub y.neg

instance : Neg Binary64 := ⟨neg⟩
instance : Mul Binary64 := ⟨mul⟩
instance : Div Binary64 := ⟨div⟩
instance : Sub Binary64 := ⟨sub⟩
instance : Add Binary64 := ⟨add⟩

/-- The nearest whole number; a half goes away from zero, and the sign is kept for zero too. -/
def roundHalfAway (x : Binary64) : Binary64 :=
  ofRank x.negative (nearestRank ((2 * x.units + unitsPerOne) / (2 * unitsPerOne)) 1)

/-- The whole part of a number that is not negative; a negative number gives zero. -/
def floor (x : Binary64) : Nat := if x.negative then 0 else x.units / unitsPerOne

end Binary64

/-- Any number of 64 bits: the finite ones, the two infinities, and NaN, which is no number. -/
inductive Double where
  | finite (x : Binary64)
  | infinite (negative : Bool)
  | nan
deriving DecidableEq, Repr

namespace Double

instance : Coe Binary64 Double := ⟨finite⟩

def ofFraction (num den : Nat) : Double := finite (.ofFraction num den)

def ofNat (n : Nat) : Double := finite (.ofNat n)

def IsFinite : Double → Prop
  | finite _ => True
  | _ => False

instance : DecidablePred IsFinite
  | finite _ => inferInstanceAs (Decidable True)
  | infinite _ => inferInstanceAs (Decidable False)
  | nan => inferInstanceAs (Decidable False)

/-- Equality of values: the two zeros are equal, and a NaN equals nothing, not even itself. -/
def sameValue : Double → Double → Bool
  | finite x, finite y => x.sameValue y
  | infinite negative, infinite negative' => negative == negative'
  | _, _ => false

/-- The order of the numbers. It holds of no pair with a NaN. -/
def lt : Double → Double → Bool
  | finite x, finite y => x.signedUnits < y.signedUnits
  | finite _, infinite negative => !negative
  | infinite negative, finite _ => negative
  | infinite negative, infinite negative' => negative && !negative'
  | _, _ => false

/-- Whether a number is a probability: from zero to one. -/
def IsChance : Double → Prop
  | finite x => 0 ≤ x.signedUnits ∧ x.signedUnits ≤ Binary64.unitsPerOne
  | _ => False

instance : (p : Double) → Decidable p.IsChance
  | finite _ => inferInstanceAs (Decidable (_ ∧ _))
  | infinite _ => inferInstanceAs (Decidable False)
  | nan => inferInstanceAs (Decidable False)

def IsImpossible : Double → Prop
  | finite x => x.signedUnits = 0
  | _ => False

def IsCertain : Double → Prop
  | finite x => x.signedUnits = Binary64.unitsPerOne
  | _ => False

instance : (p : Double) → Decidable p.IsImpossible
  | finite _ => inferInstanceAs (Decidable (_ = _))
  | infinite _ => inferInstanceAs (Decidable False)
  | nan => inferInstanceAs (Decidable False)

instance : (p : Double) → Decidable p.IsCertain
  | finite _ => inferInstanceAs (Decidable (_ = _))
  | infinite _ => inferInstanceAs (Decidable False)
  | nan => inferInstanceAs (Decidable False)

end Double
end QueryForge
