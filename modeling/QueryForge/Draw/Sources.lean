import QueryForge.Draw.Words

/-!
# Sources of words

One source is the cipher ChaCha with eight rounds: the blocks of its stream, counted from zero, give
their sixteen words in order, and a word of 64 bits takes two of them, the low half first. The other
starts with given words, and a generator that steps by a fixed odd number and mixes the result
follows them; a word of 32 bits is the low half of a whole one.
-/

namespace QueryForge

namespace ChaCha

structure State where
  /-- The eight words of the key. -/
  key : List UInt32
  /-- The number of the next block. -/
  counter : UInt64
  /-- The words of the current block that are left. -/
  rest : List UInt32
deriving DecidableEq, Repr

/-- One word of the key from a seed, and the seed of the next. -/
def keyWord (seed : UInt64) : UInt32 × UInt64 :=
  let seed := seed * 6364136223846793005 + 11634580027462260723
  let mixed := (((seed >>> 18) ^^^ seed) >>> 27).toUInt32
  let turn := (seed >>> 59).toUInt32
  ((mixed >>> turn) ||| (mixed <<< ((32 - turn) % 32)), seed)

def keyWords : Nat → UInt64 → List UInt32
  | 0, _ => []
  | n + 1, seed =>
    let (word, seed) := keyWord seed
    word :: keyWords n seed

def ofSeed (seed : UInt64) : State := ⟨keyWords 8 seed, 0, []⟩

def rotateLeft (x : UInt32) (n : UInt32) : UInt32 := (x <<< n) ||| (x >>> (32 - n))

def quarterRound (a b c d : UInt32) : UInt32 × UInt32 × UInt32 × UInt32 :=
  let a := a + b
  let d := rotateLeft (d ^^^ a) 16
  let c := c + d
  let b := rotateLeft (b ^^^ c) 12
  let a := a + b
  let d := rotateLeft (d ^^^ a) 8
  let c := c + d
  let b := rotateLeft (b ^^^ c) 7
  (a, b, c, d)

/-- Mixes the columns of the four rows, and then the diagonals. -/
def doubleRound : List UInt32 → List UInt32
  | [x0, x1, x2, x3, x4, x5, x6, x7, x8, x9, x10, x11, x12, x13, x14, x15] =>
    let (x0, x4, x8, x12) := quarterRound x0 x4 x8 x12
    let (x1, x5, x9, x13) := quarterRound x1 x5 x9 x13
    let (x2, x6, x10, x14) := quarterRound x2 x6 x10 x14
    let (x3, x7, x11, x15) := quarterRound x3 x7 x11 x15
    let (x0, x5, x10, x15) := quarterRound x0 x5 x10 x15
    let (x1, x6, x11, x12) := quarterRound x1 x6 x11 x12
    let (x2, x7, x8, x13) := quarterRound x2 x7 x8 x13
    let (x3, x4, x9, x14) := quarterRound x3 x4 x9 x14
    [x0, x1, x2, x3, x4, x5, x6, x7, x8, x9, x10, x11, x12, x13, x14, x15]
  | other => other

/-- The words of a block before mixing: four constants, the key, the number of the block with
the low half first, and two zeros. -/
def input (key : List UInt32) (counter : UInt64) : List UInt32 :=
  ([0x61707865, 0x3320646e, 0x79622d32, 0x6b206574] : List UInt32) ++ key ++
    [counter.toUInt32, (counter >>> 32).toUInt32, 0, 0]

def block (key : List UInt32) (counter : UInt64) : List UInt32 :=
  let start := input key counter
  let mixed := doubleRound (doubleRound (doubleRound (doubleRound start)))
  List.zipWith (· + ·) mixed start

def next32 (s : State) : UInt32 × State :=
  match s.rest with
  | word :: rest => (word, { s with rest })
  | [] =>
    let words := block s.key s.counter
    (words.headD 0, ⟨s.key, s.counter + 1, words.tail⟩)

def next64 (s : State) : UInt64 × State :=
  let (low, s) := next32 s
  let (high, s) := next32 s
  (low.toUInt64 ||| (high.toUInt64 <<< 32), s)

def source : WordSource State := ⟨next32, next64⟩

end ChaCha

namespace Scripted

structure State where
  words : List UInt64
  seed : UInt64
deriving DecidableEq, Repr

def mix (z : UInt64) : UInt64 :=
  let z := (z ^^^ (z >>> 30)) * 0xbf58476d1ce4e5b9
  let z := (z ^^^ (z >>> 27)) * 0x94d049bb133111eb
  z ^^^ (z >>> 31)

def next64 (s : State) : UInt64 × State :=
  match s.words with
  | word :: words => (word, { s with words })
  | [] =>
    let seed := s.seed + 0x9e3779b97f4a7c15
    (mix seed, ⟨[], seed⟩)

def next32 (s : State) : UInt32 × State :=
  let (word, s) := next64 s
  (word.toUInt32, s)

def source : WordSource State := ⟨next32, next64⟩

end Scripted
end QueryForge
