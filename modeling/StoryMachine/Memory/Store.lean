import StoryMachine.Memory.Game

/-!
# Stores

What an image and protected game memory have in common for a table that is
written into them: bytes that can be read, and bytes and words that may be
refused.
-/

namespace StoryMachine

/-- Memory with its own rule on which writes are refused. -/
class Store (σ : Type) where
  /-- The bytes as they are now. -/
  image : σ → Image
  /-- Writes the low eight bits of a value. -/
  write : Int → Int → Action σ Unit
  /-- Writes the low sixteen bits of a value. -/
  writeWord : Int → Int → Action σ Unit

namespace Store

instance : Store Image where
  image := id
  write := Image.put
  writeWord := Image.putWord

instance : Store GameMemory where
  image := GameMemory.toImage
  write := GameMemory.write
  writeWord := GameMemory.writeWord

variable {σ : Type} [Store σ]

/-- The byte at an address. -/
def byte (address : Int) : Action σ Nat := do
  (image (← get)).byte address

/-- Writes a signed word. -/
def writeSigned (address value : Int) : Action σ Unit := do
  if value < -32768 ∨ 32767 < value then
    Action.fault (.signedOutOfRange value address)
  writeWord address value

/-- Sets or clears one bit of a byte. -/
def writeFlag (address bit : Int) (on : Bool) : Action σ Unit := do
  let byte ← (image (← get)).byte address
  if bit < 0 then Action.refuse .valueOutOfRange
  write address (Image.withBit byte bit.toNat on)

/-- Writes bytes at successive addresses, up to the first refusal. -/
def writeRun (address : Int) : List Int → Action σ Unit
  | [] => pure ()
  | value :: rest => do
      write address value
      writeRun (address + 1) rest

end Store

end StoryMachine
