import StoryMachine.Random.Twister

/-!
# Random numbers

A story draws numbers from one to a bound. It can seed the generator, or make it
count `1, 2, …` up to a range and start again, so that a run can be repeated.
-/

namespace StoryMachine

/-- The random number generator of a machine. -/
structure Random where
  predictable : Bool := false
  range : Int := 0
  counter : Int := 0
  /-- The seed given last; none when the host's entropy was used. -/
  seed : Option Int := none
  /-- What the host supplies when no seed is given, one number for each time. -/
  entropy : List Nat := []
  generator : Twister
deriving DecidableEq, Repr, Inhabited

namespace Random

/-- Seeds below this count instead. -/
def predictableLimit : Nat := 1000

/-- A generator that is seeded by the first number of the host; the others are for later. -/
def ofEntropy (first : Nat) (others : List Nat := []) : Random :=
  { entropy := others, generator := Twister.ofSeed first }

/-- Seeds the generator, by the next number of the host if no seed is given. -/
def enterRandom (random : Random) (seed : Option Int := none) : Random :=
  match seed with
  | some number =>
      { entropy := random.entropy, seed, generator := Twister.ofSeed number.natAbs }
  | none =>
      { entropy := random.entropy.tail, generator := Twister.ofSeed (random.entropy.headD 0) }

/-- Counts from one to a range, over and over. -/
def enterPredictable (random : Random) (range : Int) : Random :=
  { random with predictable := true, range, counter := 0, seed := some range }

/-- Reseeds as a story asks: zero for entropy, a small number to count up to it, any other number
for a seed. The sign does not matter. -/
def reseed (random : Random) (value : Int) : Random :=
  if value = 0 then random.enterRandom
  else if value.natAbs < predictableLimit then random.enterPredictable value.natAbs
  else random.enterRandom (some value.natAbs)

/-- What is logged of a reseeding. -/
def reseedNote (value : Int) : String :=
  if value = 0 then "RNG reseeded from entropy"
  else if value.natAbs < predictableLimit then
    s!"RNG entering predictable mode with range {value.natAbs}"
  else s!"RNG seeded with {value.natAbs}"

/-- A number from one to a bound; zero if the bound is not positive. -/
def next (random : Random) (bound : Int) : Int × Random :=
  if bound < 1 then (0, random)
  else if random.predictable then
    let counter := random.counter % max random.range 1 + 1
    ((counter - 1) % bound + 1, { random with counter })
  else
    let (value, generator) := random.generator.below bound.toNat
    (value + 1, { random with generator })

end Random

end StoryMachine
