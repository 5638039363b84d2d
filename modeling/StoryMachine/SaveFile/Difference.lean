import StoryMachine.Effect

/-!
# Compressed memory

Saved memory is written as its difference from the memory of the fresh story: the
exclusive or of the two, without the zeros at the end, and with every run of up
to 256 zeros as a zero followed by the length of the run less one.
-/

namespace StoryMachine

namespace Difference

/-- The exclusive or of two memories, as far as both go. -/
def ofMemories (current fresh : List UInt8) : List UInt8 :=
  List.zipWith (· ^^^ ·) current fresh

/-- Data without the zeros at its end. -/
def withoutTrailingZeros (data : List UInt8) : List UInt8 :=
  (data.reverse.dropWhile (· == 0)).reverse

/-- Writes runs of zeros by their length. -/
def pack : List UInt8 → List UInt8
  | [] => []
  | byte :: rest =>
      if byte = 0 then
        let more := ((rest.take 255).takeWhile (· == 0)).length
        0 :: UInt8.ofNat more :: pack (rest.drop more)
      else byte :: pack rest
termination_by data => data.length
decreasing_by
  · simp only [List.length_drop, List.length_cons]
    omega
  · simp

/-- Reads runs of zeros back. -/
def unpack : List UInt8 → Result (List UInt8)
  | [] => .ok []
  | byte :: rest =>
      if byte = 0 then
        match rest with
        | [] => .fault .unfinishedRun
        | more :: rest => do
            let data ← unpack rest
            return List.replicate (more.toNat + 1) 0 ++ data
      else do
        let data ← unpack rest
        return byte :: data

/-- The compressed form of a memory. -/
def compress (current fresh : List UInt8) : List UInt8 :=
  pack (withoutTrailingZeros (ofMemories current fresh))

/-- The memory of a compressed form. -/
def decompress (data fresh : List UInt8) : Result (List UInt8) := do
  let difference ← unpack data
  if fresh.length < difference.length then
    .fault (.expandsBeyond difference.length fresh.length)
  let padded := difference ++ List.replicate (fresh.length - difference.length) 0
  return ofMemories padded fresh

end Difference

end StoryMachine
