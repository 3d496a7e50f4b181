import QueryForge.Json

/-!
# Reading JSON

The grammar is strict: no blanks other than space, tab, line feed and carriage return, no leading
zeros, no raw control characters inside strings, and nothing but blanks behind the document.
-/

namespace QueryForge.Json

namespace Reader

def isBlank (c : Char) : Bool := c == ' ' || c == '\t' || c == '\n' || c == '\r'

def skipBlanks (cs : List Char) : List Char := cs.dropWhile isBlank

/-- A string is a row of characters; an escape may also name half of a surrogate pair. -/
inductive StringPart where
  | char (c : Char)
  | half (unit : Nat)
deriving DecidableEq, Repr

def hexValue (c : Char) : Option Nat :=
  if '0' ≤ c ∧ c ≤ '9' then some (c.toNat - '0'.toNat)
  else if 'a' ≤ c ∧ c ≤ 'f' then some (c.toNat - 'a'.toNat + 10)
  else if 'A' ≤ c ∧ c ≤ 'F' then some (c.toNat - 'A'.toNat + 10)
  else none

/-- The unit named by four hexadecimal digits. -/
def escapedUnit (a b c d : Char) : Option StringPart := do
  let unit := (((← hexValue a) * 16 + (← hexValue b)) * 16 + (← hexValue c)) * 16 + (← hexValue d)
  if 0xD800 ≤ unit ∧ unit ≤ 0xDFFF then some (.half unit) else some (.char (Char.ofNat unit))

def shortEscape (c : Char) : Option Char :=
  if c = '"' ∨ c = '\\' ∨ c = '/' then some c
  else if c = 'b' then some '\x08'
  else if c = 'f' then some '\x0c'
  else if c = 'n' then some '\n'
  else if c = 'r' then some '\r'
  else if c = 't' then some '\t'
  else none

/-- The parts of a string up to its closing quote, and the text behind that quote. -/
def stringParts : List Char → Option (List StringPart × List Char)
  | [] => none
  | '"' :: rest => some ([], rest)
  | '\\' :: 'u' :: a :: b :: c :: d :: rest => do
    let part ← escapedUnit a b c d
    let (parts, behind) ← stringParts rest
    some (part :: parts, behind)
  | '\\' :: c :: rest => do
    let part ← shortEscape c
    let (parts, behind) ← stringParts rest
    some (.char part :: parts, behind)
  | c :: rest =>
    if c.toNat < 0x20 then none
    else do
      let (parts, behind) ← stringParts rest
      some (.char c :: parts, behind)

/-- A high half joins the low half behind it; any other half stands alone and has no value. -/
def joinHalves : List StringPart → Option (List Char)
  | [] => some []
  | .char c :: rest => (joinHalves rest).map (c :: ·)
  | .half high :: .half low :: rest =>
    if high < 0xDC00 ∧ 0xDC00 ≤ low then
      (joinHalves rest).map (Char.ofNat (0x10000 + (high - 0xD800) * 0x400 + (low - 0xDC00)) :: ·)
    else none
  | .half _ :: _ => none

/-- The string behind an opening quote; `none` inside the pair marks one without a value. -/
def string (cs : List Char) : Option (Option String × List Char) := do
  let (parts, behind) ← stringParts cs
  some ((joinHalves parts).map String.ofList, behind)

/-- The parts of a number token; a missing part is `none`. -/
structure NumberToken where
  negative : Bool
  whole : List Char
  fraction : Option (List Char)
  /-- Whether the exponent is negative, and its digits. -/
  exponent : Option (Bool × List Char)
deriving DecidableEq, Repr

def takeDigits (cs : List Char) : List Char × List Char :=
  (cs.takeWhile Char.isDigit, cs.dropWhile Char.isDigit)

def fractionPart : List Char → Option (Option (List Char) × List Char)
  | '.' :: rest =>
    match takeDigits rest with
    | ([], _) => none
    | (digits, behind) => some (some digits, behind)
  | cs => some (none, cs)

def exponentSign : List Char → Bool × List Char
  | '-' :: rest => (true, rest)
  | '+' :: rest => (false, rest)
  | cs => (false, cs)

def exponentPart : List Char → Option (Option (Bool × List Char) × List Char)
  | c :: rest =>
    if c = 'e' ∨ c = 'E' then
      let (negative, cs) := exponentSign rest
      match takeDigits cs with
      | ([], _) => none
      | (digits, behind) => some (some (negative, digits), behind)
    else some (none, c :: rest)
  | [] => some (none, [])

/-- The whole part is a lone zero or starts with another digit. -/
def wholePart (cs : List Char) : Option (List Char × List Char) :=
  match takeDigits cs with
  | ([], _) => none
  | ('0' :: _ :: _, _) => none
  | (digits, behind) => some (digits, behind)

def numberToken (cs : List Char) : Option (NumberToken × List Char) := do
  let (negative, cs) := match cs with
    | '-' :: rest => (true, rest)
    | _ => (false, cs)
  let (whole, cs) ← wholePart cs
  let (fraction, cs) ← fractionPart cs
  let (exponent, cs) ← exponentPart cs
  some (⟨negative, whole, fraction, exponent⟩, cs)

def NumberToken.realValue (t : NumberToken) : Json :=
  let fraction := t.fraction.getD []
  let exponent : Int := match t.exponent with
    | none => 0
    | some (true, digits) => -(Nat.ofDigitChars 10 digits 0 : Int)
    | some (false, digits) => Nat.ofDigitChars 10 digits 0
  match Binary64.ofDecimal? t.negative (Nat.ofDigitChars 10 (t.whole ++ fraction) 0)
      (exponent - fraction.length) with
  | some x => .real x
  | none => .unusable

/-- A token without fraction and exponent is a whole number if it is in range; minus zero keeps
its sign and is therefore a floating-point number. -/
def NumberToken.value (t : NumberToken) : Json :=
  if t.fraction.isSome || t.exponent.isSome then t.realValue
  else
    let magnitude := Nat.ofDigitChars 10 t.whole 0
    if t.negative && magnitude == 0 then t.realValue
    else
      let i : Int := if t.negative then -magnitude else magnitude
      if integerRange i then .integer i else t.realValue

mutual

/-- One value and the text behind it. Every step that reads a value or enters a list costs one
unit of fuel, and twice the length of the text is enough for all of them. -/
def value : Nat → List Char → Option (Json × List Char)
  | 0, _ => none
  | fuel + 1, cs =>
    match skipBlanks cs with
    | 'n' :: 'u' :: 'l' :: 'l' :: rest => some (.null, rest)
    | 't' :: 'r' :: 'u' :: 'e' :: rest => some (.boolean true, rest)
    | 'f' :: 'a' :: 'l' :: 's' :: 'e' :: rest => some (.boolean false, rest)
    | '"' :: rest => do
      let (s, behind) ← string rest
      some (s.elim .unusable .string, behind)
    | '[' :: rest =>
      match skipBlanks rest with
      | ']' :: behind => some (.array [], behind)
      | _ => do
        let (found, behind) ← items fuel rest
        some (.array found, behind)
    | '\x7b' :: rest =>
      match skipBlanks rest with
      | '\x7d' :: behind => some (.object [], behind)
      | _ => do
        let (found, behind) ← members fuel rest
        some (found.elim .unusable .object, behind)
    | rest => do
      let (token, behind) ← numberToken rest
      some (token.value, behind)

/-- The items up to the closing bracket, of which there is at least one. -/
def items : Nat → List Char → Option (List Json × List Char)
  | 0, _ => none
  | fuel + 1, cs => do
    let (item, behind) ← value fuel cs
    match skipBlanks behind with
    | ',' :: rest => do
      let (found, behind) ← items fuel rest
      some (item :: found, behind)
    | ']' :: rest => some ([item], rest)
    | _ => none

/-- The members up to the closing brace, of which there is at least one; `none` inside the pair
if a name has no value. -/
def members : Nat → List Char → Option (Option (List (String × Json)) × List Char)
  | 0, _ => none
  | fuel + 1, cs =>
    match skipBlanks cs with
    | '"' :: rest => do
      let (name, behind) ← string rest
      match skipBlanks behind with
      | ':' :: rest => do
        let (found, behind) ← value fuel rest
        let first := name.map fun name => (name, found)
        match skipBlanks behind with
        | ',' :: rest => do
          let (others, behind) ← members fuel rest
          some (first.bind fun first => others.map (first :: ·), behind)
        | '\x7d' :: rest => some (first.map ([·]), rest)
        | _ => none
      | _ => none
    | _ => none

end

end Reader

/-- The document that is the whole text, if it is one. -/
def read? (cs : List Char) : Option Json :=
  match Reader.value (2 * cs.length + 2) cs with
  | some (found, behind) => if (Reader.skipBlanks behind).isEmpty then some found else none
  | none => none

def ofText? (s : String) : Option Json := read? s.toList

end QueryForge.Json
