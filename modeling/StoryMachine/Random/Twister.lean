/-!
# A seeded generator

The generator with 624 words of state and a period of `2 ^ 19937 - 1`. A seed of
any size is spread over the state; numbers below a bound are drawn by rejection
from the high bits of its outputs.
-/

namespace StoryMachine

/-- The state of the generator: its words and the next one to use. -/
structure Twister where
  words : Array UInt32
  next : Nat
deriving DecidableEq, Repr, Inhabited

namespace Twister

/-- The number of words of state. -/
def size : Nat := 624

/-- The distance of the words that are mixed. -/
def middle : Nat := 397

/-- The word after a word of the initial state. -/
def baseStep (last : UInt32) (index : Nat) : UInt32 :=
  (last ^^^ (last >>> 30)) * (1812433253 : UInt32) + UInt32.ofNat index

/-- The state that the spreading of a seed starts from. -/
def base : Array UInt32 :=
  (List.range (size - 1)).foldl
    (fun words index => words.push (baseStep (words.getD index 0) (index + 1)))
    #[19650218]

/-- The digits of a seed in base `2 ^ 32`, lowest first; zero has one digit. -/
def seedDigits (seed : Nat) : List UInt32 :=
  if seed < 0x100000000 then [UInt32.ofNat seed]
  else UInt32.ofNat seed :: seedDigits (seed / 0x100000000)
termination_by seed
decreasing_by
  apply Nat.div_lt_self <;> omega

/-- One step around the state: the word at `index` is mixed with the one before it. Past the end,
the last word becomes the first. -/
def mixAt (words : Array UInt32) (index : Nat) (mix : UInt32 → UInt32 → UInt32) :
    Array UInt32 × Nat :=
  let previous := words.getD (index - 1) 0
  let spread := previous ^^^ (previous >>> 30)
  let words := words.setIfInBounds index (mix (words.getD index 0) spread)
  if index + 1 < size then (words, index + 1)
  else (words.setIfInBounds 0 (words.getD (size - 1) 0), 1)

/-- Mixes the digits of a seed into the state, `count` times round the digits. -/
def mixSeed (digits : Array UInt32) : Nat → Array UInt32 × Nat → Nat → Array UInt32 × Nat
  | 0, state, _ => state
  | count + 1, (words, index), digit =>
      let next := mixAt words index fun word spread =>
        (word ^^^ (spread * 1664525)) + digits.getD digit 0 + UInt32.ofNat digit
      mixSeed digits count next (if digit + 1 < digits.size then digit + 1 else 0)

/-- Mixes the positions into the state. -/
def mixPositions : Nat → Array UInt32 × Nat → Array UInt32
  | 0, (words, _) => words
  | count + 1, (words, index) =>
      mixPositions count
        (mixAt words index fun word spread =>
          (word ^^^ (spread * 1566083941)) - UInt32.ofNat index)

/-- The generator for a seed. -/
def ofSeed (seed : Nat) : Twister :=
  let digits := (seedDigits seed).toArray
  let mixed := mixSeed digits (max size digits.size) (base, 1) 0
  let words := mixPositions (size - 1) mixed
  { words := words.setIfInBounds 0 0x80000000, next := size }

/-- Renews the word at an index from the one after it and one further on. -/
def renewAt (words : Array UInt32) (index : Nat) : Array UInt32 :=
  let joined := (words.getD index 0 &&& 0x80000000) |||
    (words.getD ((index + 1) % size) 0 &&& 0x7fffffff)
  let twist : UInt32 := if joined &&& 1 = 1 then 0x9908b0df else 0
  words.setIfInBounds index (words.getD ((index + middle) % size) 0 ^^^ (joined >>> 1) ^^^ twist)

/-- Renews every word of the state. -/
def renew (words : Array UInt32) : Array UInt32 :=
  (List.range size).foldl renewAt words

/-- Spreads the bits of a word for output. -/
def temper (word : UInt32) : UInt32 :=
  let word := word ^^^ (word >>> 11)
  let word := word ^^^ ((word <<< 7) &&& 0x9d2c5680)
  let word := word ^^^ ((word <<< 15) &&& 0xefc60000)
  word ^^^ (word >>> 18)

/-- The next 32 bits. -/
def next32 (twister : Twister) : UInt32 × Twister :=
  let twister :=
    if twister.next < size then twister else { words := renew twister.words, next := 0 }
  (temper (twister.words.getD twister.next 0), { twister with next := twister.next + 1 })

/-- The next `count` bits, the low 32 first; the last draw gives its high bits. -/
def bits (count : Nat) (twister : Twister) : Nat × Twister :=
  if count ≤ 32 then
    let (word, twister) := twister.next32
    (word.toNat >>> (32 - count), twister)
  else
    let (word, twister) := twister.next32
    let (rest, twister) := bits (count - 32) twister
    (word.toNat + rest * 0x100000000, twister)

/-- A number below a bound of `count` bits: the first draw below it. At least half of all draws
are below, and the last of `attempts` draws is reduced so that the answer is always below. -/
def draw (bound count : Nat) : Nat → Twister → Nat × Twister
  | 0, twister =>
      let (value, twister) := twister.bits count
      (value % bound, twister)
  | attempts + 1, twister =>
      let (value, twister) := twister.bits count
      if value < bound then (value, twister) else draw bound count attempts twister

/-- A number below a positive bound. -/
def below (bound : Nat) (twister : Twister) : Nat × Twister :=
  draw bound (Nat.log2 bound + 1) 4096 twister

end Twister

end StoryMachine
