import StoryMachine.Memory

/-!
# Game memory

A story may read its whole image but write only dynamic memory, the part below
`dynamicEnd`. A word is written only where both of its bytes may be, so that a
refused word changes nothing.
-/

namespace StoryMachine

/-- The regions of a story's memory. -/
inductive Region where
  | dynamic
  | static
  | high
deriving DecidableEq, Repr

/-- An image whose writes are restricted to dynamic memory. -/
structure GameMemory extends Image where
  dynamicEnd : Int
  highStart : Int
deriving DecidableEq, Repr, Inhabited

namespace GameMemory

/-- Protects an image. High memory never starts inside dynamic memory. -/
def protect (image : Image) (dynamicEnd highStart : Int) : GameMemory :=
  { image with dynamicEnd, highStart := max highStart dynamicEnd }

/-- The region of an address. -/
def region (memory : GameMemory) (address : Int) : Result Region :=
  if ¬ memory.Holds address then .fault (.outsideRegions address)
  else if address < memory.dynamicEnd then .ok .dynamic
  else if address < memory.highStart then .ok .static
  else .ok .high

/-- A copy of dynamic memory. -/
def dynamicBytes (memory : GameMemory) : Array UInt8 :=
  memory.span 0 memory.dynamicEnd

/-- Actions on game memory. -/
abbrev Edit := Action GameMemory

/-- Changes the image behind the protection, for the parts of the header that the machine owns. -/
def overImage (memory : GameMemory) (change : Image → Image) : GameMemory :=
  { memory with toImage := change memory.toImage }

/-- Writes the low eight bits of a value. -/
def write (address value : Int) : Edit Unit := fun memory =>
  if address < 0 ∨ memory.dynamicEnd ≤ address then
    .error (.ofCause (.notDynamic address memory.dynamicEnd)) memory
  else if address < memory.size then
    .ok () { memory with bytes := memory.bytes.setIfInBounds address.toNat (Byte.ofInt value) }
  else .error (.breach .indexOutOfRange) memory

/-- Writes a word, or nothing. -/
def writeWord (address value : Int) : Edit Unit := do
  let dynamicEnd := (← get).dynamicEnd
  if address < 0 ∨ dynamicEnd ≤ address + 1 then
    Action.fault (.wordNotDynamic address dynamicEnd)
  write address (Word.high (Word.ofInt value))
  write (address + 1) (Word.low (Word.ofInt value))

/-- Replaces all of dynamic memory in one step. -/
def replaceDynamic (data : Array UInt8) : Edit Unit := fun memory =>
  if (data.size : Int) = memory.dynamicEnd then
    .ok () { memory with bytes := data ++ memory.bytes.extract data.size memory.bytes.size }
  else .error (.ofCause (.replacementSize data.size memory.dynamicEnd)) memory

end GameMemory

end StoryMachine
