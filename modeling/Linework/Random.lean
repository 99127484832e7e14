import Linework.Feed

/-!
# Random numbers

A seed determines a feed of numbers in `[0, 1)`: the output of the ChaCha block function with twelve
rounds under a key made from the seed, blocks of sixteen words in the order of their counter, two
words for each number.
-/

namespace Linework.Random

/-- Turns the bits of a word to the right. -/
def rotateRight (x : UInt32) (n : UInt32) : UInt32 := (x >>> n) ||| (x <<< (32 - n))

/-- Turns the bits of a word to the left. -/
def rotateLeft (x : UInt32) (n : UInt32) : UInt32 := (x <<< n) ||| (x >>> (32 - n))

/-- The next state in the making of a key. -/
def advance (state : UInt64) : UInt64 := state * 6364136223846793005 + 11634580027462260723

/-- The key word that a state gives: its upper bits, folded and turned by its highest five. -/
def keyWord (state : UInt64) : UInt32 :=
  rotateRight ((((state >>> 18) ^^^ state) >>> 27).toUInt32) ((state >>> 59).toUInt32)

/-- The state after `n` steps. -/
def advanceMany : (n : Nat) → UInt64 → UInt64
  | 0, state => state
  | n + 1, state => advanceMany n (advance state)

/-- The key of a seed. -/
def key (seed : UInt64) : Vector UInt32 8 :=
  Vector.ofFn fun i => keyWord (advanceMany (i.val + 1) seed)

/-- Sixteen words, the state of the block function. -/
abbrev Words := Vector UInt32 16

/-- One step of a quarter round: `x` takes in `y`, and `z` is mixed with the sum and turned. -/
def mix (w : Words) (x y z : Fin 16) (turn : UInt32) : Words :=
  let sum := w[x] + w[y]
  let turned := rotateLeft (w[z] ^^^ sum) turn
  (w.set x.val sum x.isLt).set z.val turned z.isLt

/-- Mixes four of the words. -/
def quarterRound (w : Words) (a b c d : Fin 16) : Words :=
  let w := mix w a b d 16
  let w := mix w c d b 12
  let w := mix w a b d 8
  mix w c d b 7

/-- Mixes the columns, then the diagonals. -/
def doubleRound (w : Words) : Words :=
  let w := quarterRound w 0 4 8 12
  let w := quarterRound w 1 5 9 13
  let w := quarterRound w 2 6 10 14
  let w := quarterRound w 3 7 11 15
  let w := quarterRound w 0 5 10 15
  let w := quarterRound w 1 6 11 12
  let w := quarterRound w 2 7 8 13
  quarterRound w 3 4 9 14

/-- So many double rounds. -/
def doubleRounds : (n : Nat) → Words → Words
  | 0, w => w
  | n + 1, w => doubleRounds n (doubleRound w)

/-- The words before the first round: constants, key and counter. -/
def initial (key : Vector UInt32 8) (counter : UInt64) : Words :=
  #v[0x61707865, 0x3320646e, 0x79622d32, 0x6b206574,
     key[0], key[1], key[2], key[3], key[4], key[5], key[6], key[7],
     counter.toUInt32, (counter >>> 32).toUInt32, 0, 0]

/-- The block of a counter. -/
def block (key : Vector UInt32 8) (counter : UInt64) : Words :=
  let w := initial key counter
  (doubleRounds 6 w).zipWith (· + ·) w

/-- The 64 bits of the draw with the given index. -/
def bitsAt (key : Vector UInt32 8) (index : Nat) : UInt64 :=
  let words := block key (UInt64.ofNat (index / 8))
  let low : Fin 16 := ⟨2 * (index % 8), by omega⟩
  let high : Fin 16 := ⟨2 * (index % 8) + 1, by omega⟩
  words[low].toUInt64 + (words[high].toUInt64 <<< 32)

/-- The double `2 ^ -53`. -/
def unit : Float := Float.ofBits 0x3ca0000000000000

/-- The numbers of a seed, from their beginning. -/
def ofSeed (seed : UInt64) : Feed Float :=
  let key := key seed
  Feed.ofSource fun i => (bitsAt key i >>> 11).toFloat * unit

end Linework.Random
