import QueryForge.Binary64

/-!
# JSON documents

A document keeps the members of an object in written order, repeated names included, since
readers differ in what they make of both. `sorted` is the view of a reader that keeps an object
as a map: names in code point order, the last value of a repeated name.
-/

namespace QueryForge

inductive Json where
  | null
  | boolean (value : Bool)
  | integer (value : Int)
  | real (value : Binary64)
  | string (value : String)
  | array (items : List Json)
  | object (members : List (String × Json))
  /-- A well-formed token without a value: a string with an unpaired surrogate, a number beyond
  the finite range, or an object with such a name. It may stand where nothing looks at it. -/
  | unusable

namespace Json

/-- An infinity and a NaN have no token and are written as null. -/
def ofDouble : Double → Json
  | .finite x => .real x
  | _ => .null

/-- Whole numbers have their own form between the least signed and the greatest unsigned number
of 64 bits; beyond it a number is a floating-point one. -/
def integerRange (value : Int) : Prop :=
  -9223372036854775808 ≤ value ∧ value < 18446744073709551616

instance (value : Int) : Decidable (integerRange value) :=
  inferInstanceAs (Decidable (_ ∧ _))

mutual

/-- How many arrays and objects lie inside each other. -/
def depth : Json → Nat
  | .array items => depthOfItems items + 1
  | .object members => depthOfMembers members + 1
  | _ => 0

def depthOfItems : List Json → Nat
  | [] => 0
  | item :: rest => max item.depth (depthOfItems rest)

def depthOfMembers : List (String × Json) → Nat
  | [] => 0
  | (_, value) :: rest => max value.depth (depthOfMembers rest)

end

mutual

/-- Whether every token has a value. -/
def isUsable : Json → Bool
  | .unusable => false
  | .array items => itemsUsable items
  | .object members => membersUsable members
  | _ => true

def itemsUsable : List Json → Bool
  | [] => true
  | item :: rest => item.isUsable && itemsUsable rest

def membersUsable : List (String × Json) → Bool
  | [] => true
  | (_, value) :: rest => value.isUsable && membersUsable rest

end

/-- Puts a member into a list that is sorted by name; an equal name gives up its value. -/
def insertMember (name : String) (value : Json) : List (String × Json) → List (String × Json)
  | [] => [(name, value)]
  | (other, kept) :: rest =>
    if name = other then (name, value) :: rest
    else if name < other then (name, value) :: (other, kept) :: rest
    else (other, kept) :: insertMember name value rest

def sortMembers (members : List (String × Json)) : List (String × Json) :=
  members.foldl (fun done member => insertMember member.1 member.2 done) []

mutual

def sorted : Json → Json
  | .array items => .array (sortedItems items)
  | .object members => .object (sortMembers (sortedValues members))
  | leaf => leaf

def sortedItems : List Json → List Json
  | [] => []
  | item :: rest => item.sorted :: sortedItems rest

def sortedValues : List (String × Json) → List (String × Json)
  | [] => []
  | (name, value) :: rest => (name, value.sorted) :: sortedValues rest

end

/-- The value of the first member of that name. -/
def member? (name : String) : Json → Option Json
  | .object members => members.lookup name
  | _ => none

end Json
end QueryForge
