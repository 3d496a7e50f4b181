import QueryForge.Draw

/-!
# Random choices from lists
-/

namespace QueryForge.Draw

variable {α β : Type}

/-- Draws once for every element, in order. -/
def each (draw : α → Draw β) : List α → Draw (List β)
  | [] => return []
  | a :: rest => do
    let b ← draw a
    let bs ← each draw rest
    return b :: bs

/-- Draws with the given chance, or else not at all. -/
def sometimes (p : Double) (draw : Draw α) : Draw (Option α) := do
  if ← chance p then some <$> draw else return none

/-- An element of a list that is not empty, each with the same probability. -/
def pick (choices : List α) (h : choices ≠ []) : Draw α := do
  let i ← request (.within (.ofPosition (choices.length - 1)) 0 (choices.length - 1))
  return choices.getD i.toNat (choices.head h)

/-- An element of a list; an empty list is not asked about. -/
def pickMaybe : List α → Draw (Option α)
  | [] => return none
  | first :: rest => some <$> pick (first :: rest) (by simp)

/-- Elements at different positions in random order, as many as there are at most. -/
def pickDistinct (choices : List α) (amount : Nat) : Draw (List α) := do
  let drawn ← positions choices.length (min amount choices.length)
  let items := choices.toArray
  return drawn.filterMap (items[·]?)

/-- A number from zero to a maximum; small numbers are more likely. -/
def smallNumber (max : Nat) : Draw Nat := do
  let a ← unit
  let b ← unit
  let n := (a * b * (.ofNat max + .ofNat 1)).floor
  fits .unsigned64 n
  return min n max

/-- The elements at the given positions, in the order of the list. -/
def atPositions (choices : List α) (drawn : List Nat) : List α :=
  (choices.zipIdx.filter fun item => drawn.contains item.2).map Prod.fst

/-- Elements at different positions in the order of the list, as many as there are at most. -/
def subset (choices : List α) (amount : Nat) : Draw (List α) := do
  let drawn ← positions choices.length (min amount choices.length)
  return atPositions choices drawn

/-- A subset whose size is drawn first and is at least one. -/
def nonemptySubset (choices : List α) : Draw (List α) :=
  if choices.isEmpty then return []
  else do
    let amount ← request (.within (.ofPosition choices.length) 1 choices.length)
    subset choices amount.toNat

end QueryForge.Draw
