import QueryForge.Binary64

/-!
# Random draws

A generator is a tree of requests: it asks for a random choice and goes on with the answer. What a
request asks for, which answers it permits, and how a source of random words answers it are three
different things, so that facts about a generator hold for every source. That a computed number
stays in its type is asked for as well, without a random choice.
-/

namespace QueryForge

/-- How many random bits a range is drawn from. -/
inductive Width where
  | narrow
  | wide
deriving DecidableEq, Repr

/-- The number of words of that width. -/
def Width.words : Width → Nat
  | .narrow => 1 <<< 32
  | .wide => 1 <<< 64

/-- The width for positions in a list: narrow while they fit. -/
def Width.ofPosition (greatest : Nat) : Width :=
  if greatest < Width.narrow.words then .narrow else .wide

/-- The types in which generators compute whole numbers. -/
inductive NumberType where
  | signed32
  | unsigned64
deriving DecidableEq, Repr

/-- The numbers of a type. -/
def NumberType.Holds : NumberType → Int → Prop
  | .signed32, n => -2147483648 ≤ n ∧ n < 2147483648
  | .unsigned64, n => 0 ≤ n ∧ n < 18446744073709551616

inductive Request where
  /-- True with the given probability. -/
  | chance (p : Double)
  /-- A number between two bounds, both included. -/
  | within (width : Width) (low high : Int)
  /-- That many different positions below a length, in random order. -/
  | positions (length amount : Nat)
  | word32
  | word64
  /-- A computed number, which must not leave its type. -/
  | fits (type : NumberType) (value : Int)
deriving DecidableEq, Repr

namespace Request

@[reducible] def Answer : Request → Type
  | .chance _ => Bool
  | .within .. => Int
  | .positions .. => List Nat
  | .word32 => UInt32
  | .word64 => UInt64
  | .fits .. => Unit

/-- Whether a request makes sense: a probability from zero to one, a range that is not empty, no
more positions than there are, a number of the type. -/
def WellFormed : Request → Prop
  | .chance p => p.IsChance
  | .within _ low high => low ≤ high
  | .positions length amount => amount ≤ length
  | .word32 => True
  | .word64 => True
  | .fits type value => type.Holds value

/-- The answers that a request may get. -/
def Permits : (r : Request) → r.Answer → Prop
  | .chance p, answer => (p.IsImpossible → answer = false) ∧ (p.IsCertain → answer = true)
  | .within _ low high, answer => low ≤ answer ∧ answer ≤ high
  | .positions length amount, answer =>
    answer.length = amount ∧ answer.Nodup ∧ ∀ i ∈ answer, i < length
  | .word32, _ => True
  | .word64, _ => True
  | .fits .., _ => True

end Request

inductive Draw (α : Type) where
  | done (value : α)
  | ask (request : Request) (next : request.Answer → Draw α)

namespace Draw

variable {α β : Type}

def bind : Draw α → (α → Draw β) → Draw β
  | .done value, f => f value
  | .ask request next, f => .ask request fun answer => (next answer).bind f

instance : Monad Draw where
  pure := .done
  bind := bind

/-- A single request. -/
def request (r : Request) : Draw r.Answer := .ask r .done

def chance (p : Double) : Draw Bool := request (.chance p)

/-- A number between two bounds, drawn from 32 bits. -/
def within (low high : Int) : Draw Int := request (.within .narrow low high)

def withinWide (low high : Int) : Draw Int := request (.within .wide low high)

def positions (length amount : Nat) : Draw (List Nat) := request (.positions length amount)

def word32 : Draw UInt32 := request .word32

def word64 : Draw UInt64 := request .word64

def fits (type : NumberType) (value : Int) : Draw Unit := request (.fits type value)

/-- A number from zero to below one, of 53 random bits. -/
def unit : Draw Binary64 := do
  let word ← word64
  return .ofFraction (word.toNat >>> 11) (1 <<< 53)

end Draw
end QueryForge
