/-!
# Clamped spans

A span of a sequence is named by two positions. A negative position counts from
the end, and a position beyond either end is moved to that end, so that every
pair of numbers names a (possibly empty) part of the sequence.
-/

namespace StoryMachine

namespace Span

/-- The position that an index names in a sequence of the given size. -/
def position (size : Nat) (index : Int) : Nat :=
  if index < 0 then (size + index).toNat else min index.toNat size

/-- The part of a list from one index up to another. -/
def ofList {α : Type} (xs : List α) (start stop : Int) : List α :=
  (xs.take (position xs.length stop)).drop (position xs.length start)

/-- The part of an array from one index up to another. -/
def ofArray {α : Type} (xs : Array α) (start stop : Int) : Array α :=
  xs.extract (position xs.size start) (position xs.size stop)

/-- A part of an array is the part of its list. -/
theorem toList_ofArray {α : Type} (xs : Array α) (start stop : Int) :
    (ofArray xs start stop).toList = ofList xs.toList start stop := by
  simp [ofArray, ofList, List.drop_take]

end Span

end StoryMachine
