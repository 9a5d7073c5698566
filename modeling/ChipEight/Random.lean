/-
**Random bytes.**

A stream of random words comes from a key, by the ChaCha generator with twelve rounds. A block of
sixteen words holds four constants, the eight words of the key, a counter of sixty-four bits and two
zeros; scrambled and added to itself it gives sixteen words of the stream. The counter numbers the
blocks from zero. Any key gives a stream, and a seed of sixty-four bits is grown into a key.

A source is a key stream and the number of words taken from it. Each random byte is the low byte of
the next word, so the bytes that a seed gives are fixed from the start.

* `KeyStream.word` — the word of the stream at a position.
* `KeyStream.expand` — the key grown from a seed.
* `RandomSource.next` — the next byte of a source.
* `RandomSource.stream` — the bytes of a seed.
-/

namespace ChipEight

namespace KeyStream

/-- Sixteen words: the state of the generator, or a piece of its stream. -/
abbrev Block := Vector UInt32 16

/-- Eight words that choose a stream. -/
abbrev Key := Vector UInt32 8

/-! ### Scrambling -/

/-- Moves the bits of a word to the left; those that fall out come in again on the right. -/
def rotateLeft (value count : UInt32) : UInt32 :=
  value <<< count ||| value >>> (32 - count)

/-- Moves the bits of a word to the right; those that fall out come in again on the left. -/
def rotateRight (value count : UInt32) : UInt32 :=
  value >>> count ||| value <<< (32 - count)

/-- Mixes the words at four places of a block. -/
def quarterRound (i j k l : Fin 16) (block : Block) : Block :=
  let a := block.get i + block.get j
  let d := rotateLeft (block.get l ^^^ a) 16
  let c := block.get k + d
  let b := rotateLeft (block.get j ^^^ c) 12
  let a := a + b
  let d := rotateLeft (d ^^^ a) 8
  let c := c + d
  let b := rotateLeft (b ^^^ c) 7
  (((block.set i a i.isLt).set j b j.isLt).set k c k.isLt).set l d l.isLt

/-- Mixes the four columns of a block, read as four rows, and then its four diagonals. -/
def doubleRound (block : Block) : Block :=
  let columns := quarterRound 3 7 11 15 <| quarterRound 2 6 10 14 <|
    quarterRound 1 5 9 13 <| quarterRound 0 4 8 12 block
  quarterRound 3 4 9 14 <| quarterRound 2 7 8 13 <|
    quarterRound 1 6 11 12 <| quarterRound 0 5 10 15 columns

/-- Applies a number of double rounds. -/
def scramble : Nat → Block → Block
  | 0, block => block
  | rounds + 1, block => scramble rounds (doubleRound block)

/-! ### The stream -/

/-- The words that every block begins with. -/
def constants : Vector UInt32 4 :=
  #v[0x61707865, 0x3320646e, 0x79622d32, 0x6b206574]

/-- The words that every block ends with: the counter, low half first, and two zeros. -/
def counterWords (counter : Nat) : Vector UInt32 4 :=
  #v[UInt32.ofNat counter, UInt32.ofNat (counter / 0x100000000), 0, 0]

/-- The block for a key and a counter, before it is scrambled. -/
def initialBlock (key : Key) (counter : Nat) : Block :=
  constants ++ key ++ counterWords counter

/-- Sixteen words of the stream. -/
def block (key : Key) (counter : Nat) : Block :=
  let initial := initialBlock key counter
  Vector.zipWith (· + ·) initial (scramble 6 initial)

/-- The word of the stream at a position. -/
def word (key : Key) (position : Nat) : UInt32 :=
  (block key (position / 16)).get ⟨position % 16, Nat.mod_lt _ (by decide)⟩

/-! ### Keys from seeds -/

/-- The next state of the generator of keys. -/
def advance (state : UInt64) : UInt64 :=
  state * 6364136223846793005 + 11634580027462260723

/-- The word that the generator of keys gives out in a state. -/
def output (state : UInt64) : UInt32 :=
  rotateRight (((state >>> 18 ^^^ state) >>> 27).toUInt32) (state >>> 59).toUInt32

/-- The state of the generator of keys after a number of steps from a seed. -/
def advanced (seed : UInt64) : Nat → UInt64
  | 0 => seed
  | steps + 1 => advance (advanced seed steps)

/-- The key for a seed. -/
def expand (seed : UInt64) : Key :=
  Vector.ofFn fun place => output (advanced seed (place.val + 1))

end KeyStream

/-- A key stream, read up to some position. -/
structure RandomSource where
  key : KeyStream.Key
  position : Nat
deriving DecidableEq

namespace RandomSource

/-- The source for a seed, from its first byte on. -/
def ofSeed (seed : UInt64) : RandomSource :=
  ⟨KeyStream.expand seed, 0⟩

/-- A seed stands for its source. -/
instance : Coe UInt64 RandomSource := ⟨ofSeed⟩

/-- The next byte, and the source behind it. -/
def next (source : RandomSource) : UInt8 × RandomSource :=
  ((KeyStream.word source.key source.position).toUInt8,
    { source with position := source.position + 1 })

/-- The next few bytes, and the source behind them. -/
def take (source : RandomSource) : Nat → List UInt8 × RandomSource
  | 0 => ([], source)
  | count + 1 =>
    let (byte, rest) := source.next
    let (bytes, last) := rest.take count
    (byte :: bytes, last)

/-- The bytes of a seed, by position. -/
def stream (seed : UInt64) (position : Nat) : UInt8 :=
  (KeyStream.word (KeyStream.expand seed) position).toUInt8

end RandomSource

end ChipEight
