import StoryMachine.Random

/-!
# Predictable random numbers

A generator that counts answers by the place that it has reached in its count,
folded into the bound of the request. A request for less than one is answered
with zero and leaves the count where it is. The answers since the generator was
told to count are therefore known in advance, and nothing that was drawn before
has a part in them.
-/

namespace StoryMachine

namespace Random

/-- The answers to requests one after the other, and the generator after them. -/
def draws (random : Random) : List Int → List Int × Random
  | [] => ([], random)
  | bound :: rest =>
      let (value, random) := random.next bound
      let (values, random) := random.draws rest
      (value :: values, random)

/-- How many of the requests go on with the count: those for at least one. -/
def advances (requests : List Int) : Nat :=
  requests.countP (1 ≤ ·)

/-- The answer to a request when the count up to a range has gone on so many times. -/
def counted (range passed : Nat) (bound : Int) : Int :=
  if bound < 1 then 0 else (passed % range : Nat) % bound + 1

/-- The generator when its count up to a range has gone on so many times. -/
def counting (random : Random) (range passed : Nat) : Random :=
  { random with
    predictable := true
    range
    counter := if passed = 0 then 0 else ((passed - 1) % range + 1 : Nat)
    seed := some (range : Int) }

variable {range passed : Nat} {value bound : Int}

@[simp] theorem predictable_counting (random : Random) (range passed : Nat) :
    (random.counting range passed).predictable = true :=
  rfl

@[simp] theorem range_counting (random : Random) (range passed : Nat) :
    (random.counting range passed).range = range :=
  rfl

private theorem advances_cons (bound : Int) (rest : List Int) :
    advances (bound :: rest) = advances [bound] + advances rest := by
  simp only [advances, List.countP_cons, List.countP_nil]
  omega

private theorem counted_of_lt_one (small : bound < 1) : counted range passed bound = 0 :=
  if_pos small

/-- An answer from the count is at least one and at most the bound of its request. -/
theorem counted_bounds (range passed : Nat) (positive : 1 ≤ bound) :
    1 ≤ counted range passed bound ∧ counted range passed bound ≤ bound := by
  have least := Int.emod_nonneg (passed % range : Nat) (show bound ≠ 0 by omega)
  have most := Int.emod_lt_of_pos (passed % range : Nat) (show 0 < bound by omega)
  rw [counted, if_neg (by omega)]
  constructor <;> omega

private theorem counter_counting_bounds (random : Random) (positive : 0 < range) (passed : Nat) :
    0 ≤ (random.counting range passed).counter ∧
      (random.counting range passed).counter ≤ range := by
  have below := Nat.mod_lt (passed - 1) positive
  simp only [counting]
  split
  · exact ⟨Int.le_refl _, Int.natCast_nonneg _⟩
  · constructor <;> omega

/-- From one to the range and from the range to one, the counter goes on like the count modulo the
range. -/
theorem counter_counting_emod (random : Random) (positive : 0 < range) (passed : Nat) :
    (random.counting range passed).counter % max (range : Int) 1 = (passed % range : Nat) := by
  have whole : max (range : Int) 1 = range := by omega
  rw [whole]
  cases passed with
  | zero => simp [counting]
  | succ passed =>
      have step : (passed % range + 1) % range = (passed + 1) % range := Nat.mod_add_mod ..
      simp only [counting, Nat.succ_ne_zero, ↓reduceIte, Nat.add_one_sub_one]
      rw [← step]
      rfl

/-- One request: what it is answered with, and how far the count is then. -/
theorem next_counting (random : Random) (positive : 0 < range) (passed : Nat) (bound : Int) :
    (random.counting range passed).next bound =
      (counted range passed bound, random.counting range (passed + advances [bound])) := by
  by_cases small : bound < 1
  · have still : advances [bound] = 0 := by simp [advances, small]
    rw [still, counted_of_lt_one small, next, if_pos small, Nat.add_zero]
  · have onward : advances [bound] = 1 := by simp [advances]; omega
    have place := random.counter_counting_emod positive passed
    rw [onward, next, if_neg small, if_pos (random.predictable_counting range passed), counted,
      if_neg small, range_counting, place]
    simp [counting]

/-- All requests: each is answered by how far the count was before it. -/
theorem draws_counting (random : Random) (positive : 0 < range) (passed : Nat)
    (requests : List Int) :
    (random.counting range passed).draws requests =
      (requests.mapIdx fun place bound =>
          counted range (passed + advances (requests.take place)) bound,
        random.counting range (passed + advances requests)) := by
  induction requests generalizing passed with
  | nil => rfl
  | cons bound rest ih =>
      have before (place : Nat) : passed + advances ((bound :: rest).take (place + 1)) =
          passed + advances [bound] + advances (rest.take place) := by
        rw [List.take_succ_cons, advances_cons, Nat.add_assoc]
      simp only [draws, next_counting random positive, ih, List.mapIdx_cons, before]
      rw [advances_cons bound rest, ← Nat.add_assoc]
      rfl

private theorem reseed_eq_counting (random : Random) (counts : 1 ≤ value.natAbs)
    (small : value.natAbs < predictableLimit) :
    random.reseed value = random.counting value.natAbs 0 := by
  have some : value ≠ 0 := Int.natAbs_pos.mp counts
  rw [reseed, if_neg some, if_pos small]
  rfl

/-- The count leaves nothing behind that a seed would not replace. -/
theorem reseed_counting (random : Random) (range passed : Nat) (value : Int) :
    (random.counting range passed).reseed value = random.reseed value :=
  rfl

/-- Told to count up to a range, a generator answers the requests that follow, whatever they are,
by how many of them asked for at least one before: a number from one to the bound, or zero for a
bound below one, which leaves the generator as it was. Its counter stays within the range, and a
new seed makes of it what the seed would have made of the generator before the count. -/
theorem predictable_numbers (random : Random) {value : Int} (counts : 1 ≤ value.natAbs)
    (small : value.natAbs < predictableLimit) (requests : List Int) :
    ((random.reseed value).draws requests).1 =
        (requests.mapIdx fun place bound =>
          counted value.natAbs (advances (requests.take place)) bound) ∧
      (∀ (place : Nat) (bound : Int), requests[place]? = some bound → 1 ≤ bound →
        ∃ number, ((random.reseed value).draws requests).1[place]? = some number ∧
          1 ≤ number ∧ number ≤ bound) ∧
      (∀ (place : Nat) (bound : Int), requests[place]? = some bound → bound < 1 →
        ((random.reseed value).draws requests).1[place]? = some 0 ∧
          ((random.reseed value).draws (requests.take (place + 1))).2 =
            ((random.reseed value).draws (requests.take place)).2) ∧
      (∀ place, 0 ≤ ((random.reseed value).draws (requests.take place)).2.counter ∧
        ((random.reseed value).draws (requests.take place)).2.counter ≤ value.natAbs) ∧
      ∀ again, ((random.reseed value).draws requests).2.reseed again = random.reseed again := by
  have drawn (asked : List Int) := random.draws_counting counts 0 asked
  simp only [Nat.zero_add] at drawn
  simp only [random.reseed_eq_counting counts small, drawn]
  refine ⟨trivial, ?_, ?_, ?_, fun again => random.reseed_counting _ _ again⟩
  · intro place bound asked positive
    refine ⟨_, ?_, counted_bounds value.natAbs (advances (requests.take place)) positive⟩
    rw [List.getElem?_mapIdx, asked, Option.map_some]
  · intro place bound asked less
    constructor
    · rw [List.getElem?_mapIdx, asked, Option.map_some, counted_of_lt_one less]
    · have still : advances [bound] = 0 := by simp [advances, less]
      have same : advances (requests.take (place + 1)) = advances (requests.take place) := by
        rw [List.take_add_one, asked, Option.toList_some, advances, List.countP_append]
        exact congrArg _ still
      rw [same]
  · exact fun place => random.counter_counting_bounds counts _

/-- A count up to three, with requests for nothing and for less than the count has reached. -/
theorem predictable_numbers_three :
    (((ofEntropy 7).reseed (-3)).draws [10, 0, 2, 10, 10, -4, 1]).1 = [1, 0, 2, 3, 1, 0, 1] ∧
      ∀ again, (((ofEntropy 7).reseed (-3)).draws [10, 0, 2, 10, 10, -4, 1]).2.reseed again =
        (ofEntropy 7).reseed again := by
  obtain ⟨answers, -, -, -, anew⟩ :=
    @predictable_numbers (ofEntropy 7) (-3) (by decide) (by decide) [10, 0, 2, 10, 10, -4, 1]
  exact ⟨answers.trans (by decide), anew⟩

end Random

end StoryMachine
