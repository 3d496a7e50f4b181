import QueryForge.Draw.Choice
import QueryForge.Literal

/-!
# Random literals

For every column type a literal that a column of that type accepts; one in twenty is NULL.
-/

namespace QueryForge

open Draw

def ColumnType.random : Draw ColumnType := pick ColumnType.all (by decide)

namespace Literal

/-- One half. -/
def even : Double := .ofFraction 1 2

def randomLetter : Draw Char := do
  let code ← within 97 122
  return Char.ofNat code.toNat

def randomBit : Draw Char := do
  if ← chance even then return '1' else return '0'

/-- A number from 0 to 255. -/
def randomByte : Draw Nat := do
  let word ← word32
  return word.toNat % 256

/-- So many characters, each drawn for itself. -/
def randomString (character : Draw Char) (length : Nat) : Draw String := do
  let characters ← each (fun _ => character) (List.range length)
  return String.ofList characters

def twoDigits (n : Nat) : String := if n < 10 then "0" ++ n.repr else n.repr

/-- A range of whole numbers; it is empty if both bounds are equal. -/
def randomRange : Draw String := do
  let lower ← within (-100) 99
  let length ← within 0 99
  fits .signed32 (lower + length)
  return "[" ++ Sql.integer lower ++ "," ++ Sql.integer (lower + length) ++ ")"

def randomAmount : Draw String := do
  let whole ← within 0 9999
  let cents ← within 0 99
  return Sql.integer whole ++ "." ++ twoDigits cents.toNat

def randomAddress : Draw String := do
  let bytes ← each (fun _ => randomByte) (List.range 4)
  return Sql.separated "." (bytes.map Nat.repr)

/-- A number from -10 to 10 with two decimal places. -/
def randomNumber : Draw Binary64 := do
  let x ← unit
  return (x * .ofNat 2000 - .ofNat 1000).roundHalfAway / .ofNat 100

def randomOf : ColumnType → Draw Literal
  | .int => do
    let i ← withinWide (-1000) 1000
    return .integer (.ofInt i)
  | .boolean => do
    let b ← chance even
    return .boolean b
  | .text => do
    let length ← within 0 7
    let s ← randomString randomLetter length.toNat
    return .text s
  | .decimal | .float | .real => do
    let x ← randomNumber
    return .number x
  | .range => do
    let literal ← randomRange
    return .typed literal .range
  | .money => do
    let literal ← randomAmount
    return .typed literal .money
  | .bit => do
    let length ← within 1 8
    let literal ← randomString randomBit length.toNat
    return .typed literal .bit
  | .inet => do
    let literal ← randomAddress
    return .typed literal .inet

def random (type : ColumnType) : Draw Literal := do
  if ← chance (.ofFraction 5 100) then return .null else randomOf type

end Literal
end QueryForge
