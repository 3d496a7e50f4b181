import QueryForge.Json
import QueryForge.Binary64.Layout

/-!
# Writing JSON

The text is compact: no blanks, members in the order they are held. Characters outside the
control range are written raw, apart from the quote and the backslash.
-/

namespace QueryForge.Json

/-- Positional from 0.00001 to below 10^16, always with a fraction digit. -/
def numberLayout : NumberLayout := ⟨.toEven, some (-4, 16), true, true⟩

def hexDigit (n : Nat) : Char := Nat.digitChar n

/-- Five control characters have a short escape, the others a numeric one. -/
def escapeChar (c : Char) : List Char :=
  if c = '"' then ['\\', '"']
  else if c = '\\' then ['\\', '\\']
  else if c = '\x08' then ['\\', 'b']
  else if c = '\x0c' then ['\\', 'f']
  else if c = '\n' then ['\\', 'n']
  else if c = '\r' then ['\\', 'r']
  else if c = '\t' then ['\\', 't']
  else if c.toNat < 0x20 then
    ['\\', 'u', '0', '0', hexDigit (c.toNat / 16), hexDigit (c.toNat % 16)]
  else [c]

def stringChars (s : String) : List Char := '"' :: (s.toList.flatMap escapeChar ++ ['"'])

def integerChars (i : Int) : List Char :=
  if i < 0 then '-' :: Nat.toDigits 10 i.natAbs else Nat.toDigits 10 i.natAbs

mutual

def chars : Json → List Char
  | .null => "null".toList
  | .boolean true => "true".toList
  | .boolean false => "false".toList
  | .integer i => integerChars i
  | .real x => numberLayout.chars x
  | .string s => stringChars s
  | .array items => '[' :: (itemsChars items ++ [']'])
  | .object members => '\x7b' :: (membersChars members ++ ['\x7d'])
  | .unusable => "null".toList

/-- The items with a comma between two of them. -/
def itemsChars : List Json → List Char
  | [] => []
  | [item] => item.chars
  | item :: next :: rest => item.chars ++ ',' :: itemsChars (next :: rest)

def membersChars : List (String × Json) → List Char
  | [] => []
  | [(name, value)] => stringChars name ++ ':' :: value.chars
  | (name, value) :: next :: rest =>
    stringChars name ++ ':' :: (value.chars ++ ',' :: membersChars (next :: rest))

end

def text (j : Json) : String := String.ofList j.chars

end QueryForge.Json
