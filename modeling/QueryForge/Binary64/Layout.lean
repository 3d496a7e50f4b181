import QueryForge.Binary64.Shortest

/-!
# Layout of decimal text

The digits of a number are the shortest that read back. A layout decides the rest: between which
powers of ten the number is written with a point in place, whether a whole number carries a
fraction digit, and how an exponent is signed.
-/

namespace QueryForge

structure NumberLayout where
  tie : TieRule
  /-- The least and the greatest leading place that are written positionally; `none` puts no
  bound and so rules out exponents. -/
  positional : Option (Int × Int)
  /-- Whether a whole number in positional form ends in `.0`. -/
  fractionDigit : Bool
  /-- Whether a positive exponent carries a plus sign. -/
  signedExponent : Bool
deriving DecidableEq, Repr

namespace NumberLayout

def zeros (n : Int) : List Char := List.replicate n.toNat '0'

/-- Digits with the decimal point behind the first `place` of them. -/
def pointed (layout : NumberLayout) (digits : List Char) (place : Int) : List Char :=
  if place ≤ 0 then '0' :: '.' :: (zeros (-place) ++ digits)
  else if place < digits.length then
    digits.take place.toNat ++ '.' :: digits.drop place.toNat
  else
    digits ++ zeros (place - digits.length) ++ (if layout.fractionDigit then ['.', '0'] else [])

/-- The first digit before the point, then the exponent of ten. -/
def scientific (layout : NumberLayout) (digits : List Char) (place : Int) : List Char :=
  let exponent := place - 1
  let mark := if exponent < 0 then ['-'] else if layout.signedExponent then ['+'] else []
  let fraction := match digits.drop 1 with
    | [] => []
    | rest => '.' :: rest
  digits.take 1 ++ fraction ++ 'e' :: (mark ++ Nat.toDigits 10 exponent.natAbs)

def isPositional (layout : NumberLayout) (place : Int) : Bool :=
  match layout.positional with
  | none => true
  | some (least, greatest) => least ≤ place && place ≤ greatest

def magnitude (layout : NumberLayout) (x : Binary64) : List Char :=
  if x.rank = 0 then layout.pointed ['0'] 1
  else
    let d := Decimal.shortest layout.tie x
    let digits := Nat.toDigits 10 d.digits
    let place := digits.length + d.exponent
    if layout.isPositional place then layout.pointed digits place
    else layout.scientific digits place

/-- A minus sign stands before every negative number, the negative zero included. -/
def chars (layout : NumberLayout) (x : Binary64) : List Char :=
  if x.negative then '-' :: layout.magnitude x else layout.magnitude x

/-- What is not finite is written as a word. -/
def text (layout : NumberLayout) : Double → String
  | .finite x => String.ofList (layout.chars x)
  | .infinite false => "inf"
  | .infinite true => "-inf"
  | .nan => "NaN"

end NumberLayout
end QueryForge
