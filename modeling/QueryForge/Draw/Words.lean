import QueryForge.Draw

/-!
# Answering requests from random words

A source yields words of 32 and of 64 bits. Each request is answered from as few of them as its
method allows.
-/

namespace QueryForge

structure WordSource (σ : Type) where
  next32 : σ → UInt32 × σ
  next64 : σ → UInt64 × σ

namespace WordSource

variable {σ : Type} (source : WordSource σ)

/-- Certainty is not drawn. Any other probability is compared with a word of 64 bits. A chance that
is no finite number is no probability, and no word is taken for it. -/
def chance : Double → σ → Bool × σ
  | .finite p, s =>
    if p.signedUnits = Binary64.unitsPerOne then (true, s)
    else
      let (word, s) := source.next64 s
      (word.toNat < p.units * Width.wide.words / Binary64.unitsPerOne, s)
  | _, s => (false, s)

def nextWord (width : Width) (s : σ) : Nat × σ :=
  match width with
  | .narrow => let (word, s) := source.next32 s; (word.toNat, s)
  | .wide => let (word, s) := source.next64 s; (word.toNat, s)

/-- A word is scaled to the size of the range. If the part lost by that could still carry into
the result, a second word decides. -/
def within (width : Width) (low high : Int) (s : σ) : Int × σ :=
  let words := width.words
  let size := ((high - low + 1) % words).toNat
  let (word, s) := source.nextWord width s
  if size = 0 then (low + word, s)
  else
    let scaled := word * size
    let result := scaled / words
    let lost := scaled % words
    if words - size < lost then
      let (word, s) := source.nextWord width s
      let carry := if words ≤ lost + word * size / words then 1 else 0
      (low + result + carry, s)
    else (low + result, s)

/-- For few positions: the j-th draw is taken from all positions up to j, and a position that is
drawn again gives its place to j. -/
def fewPositions : List Nat → List Nat → σ → List Nat × σ
  | [], found, s => (found, s)
  | j :: rest, found, s =>
    let (t, s) := source.within .narrow 0 j s
    let t := t.toNat
    fewPositions rest ((found.map fun i => if i = t then j else i) ++ [t]) s

/-- For a large share of the positions: the first steps of a shuffle. -/
def shuffle : List Nat → Array Nat → σ → Array Nat × σ
  | [], items, s => (items, s)
  | i :: rest, items, s =>
    let (j, s) := source.within .narrow i (items.size - 1) s
    shuffle rest (items.swapIfInBounds i j.toNat) s

theorem scaled_lt {words word size : Nat} (hw : word < words) (hs : 0 < size) :
    word * size / words < size := by
  rw [Nat.div_lt_iff_lt_mul (by omega), Nat.mul_comm size]
  exact Nat.mul_lt_mul_of_pos_right hw hs

/-- Different positions below a length, the last one first, and no more than are asked for. -/
structure Found (length amount : Nat) where
  positions : List Nat
  different : positions.Nodup
  bounded : ∀ i ∈ positions, i < length
  few : positions.length ≤ amount

/-- The positions found with a source and its state afterwards, if they are as many as asked for. -/
structure Complete (length amount : Nat) (σ : Type) where
  found : Found length amount
  state : σ
  enough : amount ≤ found.positions.length

/-- The first positions, without a draw. -/
def Complete.first {length amount : Nat} (possible : amount ≤ length) (s : σ) :
    Complete length amount σ where
  found := ⟨List.range amount, List.nodup_range,
    fun _ hi => Nat.lt_of_lt_of_le (List.mem_range.1 hi) possible, Nat.le_of_eq List.length_range⟩
  state := s
  enough := Nat.le_of_eq List.length_range.symm

/-- Draws one more position if some are missing. A rejected word and a position that was drawn
before add nothing. -/
def attempt {length amount : Nat} (possible : amount ≤ length) :
    Found length amount × σ → (Found length amount × σ) ⊕ Complete length amount σ
  | (found, s) =>
    if missing : found.positions.length < amount then
      let draw := source.next32 s
      let scaled := draw.1.toNat * length
      let words := Width.narrow.words
      let candidate := scaled / words
      let rejected := scaled % words < (words - length) % length
      if fresh : rejected ∨ candidate ∈ found.positions then .inl (found, draw.2)
      else
        have below : candidate < length := scaled_lt draw.1.toNat_lt (by omega)
        .inl (⟨candidate :: found.positions,
          List.nodup_cons.2 ⟨fun drawn => fresh (.inr drawn), found.different⟩,
          List.forall_mem_cons.2 ⟨below, found.bounded⟩, missing⟩, draw.2)
    else .inr ⟨found, s, Nat.le_of_not_lt missing⟩

/-- For many positions of very many: draw until there are enough different ones. If a source never
yields them, nothing else is known of the result. -/
def search {length amount : Nat} (possible : amount ≤ length) (p : Found length amount × σ) :
    Complete length amount σ :=
  haveI : Nonempty (Complete length amount σ) := ⟨.first possible p.2⟩
  Id.run (repeatM (fun p => pure (source.attempt possible p)) p)

def sparsePositions {length amount : Nat} (possible : amount ≤ length) (s : σ) : List Nat × σ :=
  let result := source.search possible (⟨[], .nil, nofun, Nat.zero_le _⟩, s)
  (result.found.positions.reverse, result.state)

/-- Units of 2^-149 in the number one of single precision, which keeps 24 leading bits. -/
def singleOne : Nat := 1 <<< 149

/-- A quotient in single precision, counted in units. -/
def single (num den : Nat) : Nat :=
  let dropped := (num * singleOne / den).log2 - 23
  Binary64.roundHalfEven (num * singleOne) (den <<< dropped) <<< dropped

def singleMul (a b : Nat) : Nat := single (a * b) (singleOne * singleOne)

def singleAdd (a b : Nat) : Nat := single (a + b) singleOne

inductive PositionMethod where
  | few
  | shuffle
  | sparse
deriving DecidableEq, Repr

/-- A shuffle pays off below a length that grows with the amount; lists of half a million and
more have constants of their own. Lengths are compared in single precision. -/
def positionMethod (length amount : Nat) : PositionMethod :=
  let long := 500000 ≤ length
  let size := single amount 1
  if amount < 163 then
    let slope := if long then single 8 45 else single 16 10
    let base := if long then single 70 9 else single 10 1
    let limit := singleMul (singleAdd base (singleMul slope size)) size
    if 11 < amount && single length 1 < limit then .shuffle else .few
  else
    let factor := if long then single 330 9 else single 270 1
    if single length 1 < singleMul factor size then .shuffle else .sparse

/-- Different positions by the method that pays off. More than there are must not be asked for. -/
def positions (length amount : Nat) (s : σ) : List Nat × σ :=
  match positionMethod length amount with
  | .few => source.fewPositions ((List.range amount).map (length - amount + ·)) [] s
  | .shuffle =>
    let (items, s) := source.shuffle (List.range amount) (Array.range length) s
    ((items.take amount).toList, s)
  | .sparse =>
    if possible : amount ≤ length then source.sparsePositions possible s
    else (List.range amount, s)

def answer : (r : Request) → σ → r.Answer × σ
  | .chance p => source.chance p
  | .within width low high => source.within width low high
  | .positions length amount => source.positions length amount
  | .word32 => source.next32
  | .word64 => source.next64
  | .fits .. => fun s => ((), s)

end WordSource

/-- Runs a generator on a source of words. -/
def Draw.run {σ α : Type} (source : WordSource σ) : Draw α → σ → α × σ
  | .done value, s => (value, s)
  | .ask request next, s =>
    let (answer, s) := source.answer request s
    (next answer).run source s

end QueryForge
