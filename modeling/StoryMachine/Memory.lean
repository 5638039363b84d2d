import StoryMachine.Effect
import StoryMachine.Span
import StoryMachine.Word

/-!
# Memory images

The bytes of a story, read and written at checked addresses. Words are
big-endian. A word that is written across the end of the image leaves its first
byte behind.
-/

namespace StoryMachine

/-- The bytes of a story in memory. -/
structure Image where
  bytes : Array UInt8
deriving DecidableEq, Repr, Inhabited

namespace Image

/-- The number of bytes. -/
def size (image : Image) : Nat :=
  image.bytes.size

/-- Whether an address lies in the image. -/
def Holds (image : Image) (address : Int) : Prop :=
  0 ≤ address ∧ address < image.size

instance (image : Image) (address : Int) : Decidable (image.Holds address) :=
  inferInstanceAs (Decidable (_ ∧ _))

/-- The byte at an address that is known to be inside; zero elsewhere. -/
def peek (image : Image) (address : Nat) : Nat :=
  (image.bytes.getD address 0).toNat

/-- The word at an address that is known to be inside. -/
def peekWord (image : Image) (address : Nat) : Nat :=
  image.peek address * 256 + image.peek (address + 1)

/-- One bit of a byte at an address that is known to be inside. -/
def peekFlag (image : Image) (address bit : Nat) : Bool :=
  (image.peek address).testBit bit

/-- The byte at an address. -/
def byte (image : Image) (address : Int) : Result Nat :=
  if image.Holds address then .ok (image.peek address.toNat)
  else .fault (.outsideMemory address image.size)

/-- The word at an address. -/
def word (image : Image) (address : Int) : Result Nat := do
  let high ← image.byte address
  let low ← image.byte (address + 1)
  return high * 256 + low

/-- The signed word at an address. -/
def signedWord (image : Image) (address : Int) : Result Int := do
  let word ← image.word address
  return Word.signed word

/-- One bit of the byte at an address; bits beyond the eighth are clear. -/
def flag (image : Image) (address bit : Int) : Result Bool := do
  let byte ← image.byte address
  if bit < 0 then .refuse .valueOutOfRange
  return bit < 8 && byte.testBit bit.toNat

/-- The bytes at `count` successive addresses. -/
def byteRun (image : Image) (address : Int) : Nat → Result (List Nat)
  | 0 => .ok []
  | count + 1 => do
      let first ← image.byte address
      let rest ← image.byteRun (address + 1) count
      return first :: rest

/-- The bytes between two clamped positions. -/
def span (image : Image) (start stop : Int) : Array UInt8 :=
  Span.ofArray image.bytes start stop

/-- The image in hexadecimal. -/
def toHex (image : Image) : String :=
  Numeral.bytes image.bytes.toList

/-- One row of a memory listing. -/
def listingRow (label : Int) (row : List UInt8) : String :=
  Numeral.hexAtLeast 8 label ++ " " ++ " ".intercalate (row.map Numeral.byte) ++ "\n"

/-- Rows of `width` bytes, labelled by their addresses. -/
def listingRows (width : Nat) (label : Int) (data : List UInt8) : String :=
  if _finished : width = 0 ∨ data = [] then ""
  else
    listingRow label (data.take width) ++ listingRows width (label + width) (data.drop width)
termination_by data.length
decreasing_by
  simp only [not_or] at _finished
  have := List.length_pos_iff.mpr _finished.2
  simp only [List.length_drop]
  omega

/-- A byte with one of its bits set or cleared; other bits than the eight are not there to set. -/
def withBit (byte : Nat) (bit : Nat) (on : Bool) : Nat :=
  if bit < 8 then
    if on then byte ||| 1 <<< bit else byte - (byte &&& 1 <<< bit)
  else byte

/-- Writes the low eight bits of a value at an address that is known to be inside. -/
def poke (image : Image) (address : Nat) (value : Int) : Image :=
  { image with bytes := image.bytes.setIfInBounds address (Byte.ofInt value) }

/-- Writes a word at an address that is known to be inside. -/
def pokeWord (image : Image) (address : Nat) (value : Int) : Image :=
  (image.poke address (Word.high (Word.ofInt value))).poke (address + 1)
    (Word.low (Word.ofInt value))

/-- Sets or clears one bit at an address that is known to be inside. -/
def pokeFlag (image : Image) (address bit : Nat) (on : Bool) : Image :=
  image.poke address (withBit (image.peek address) bit on)

/-- Actions on an image. -/
abbrev Edit := Action Image

/-- Writes the low eight bits of a value. -/
def put (address value : Int) : Edit Unit := fun image =>
  if image.Holds address then .ok () (image.poke address.toNat value)
  else .error (.ofCause (.outsideMemory address image.size)) image

/-- Writes a word, its first byte first. -/
def putWord (address value : Int) : Edit Unit := do
  put address (Word.high (Word.ofInt value))
  put (address + 1) (Word.low (Word.ofInt value))

/-- Poking a byte leaves the size of the image. -/
theorem size_poke (image : Image) (address : Nat) (value : Int) :
    (image.poke address value).size = image.size := by
  simp [poke, size]

/-- What is looked at is a byte. -/
theorem peek_lt (image : Image) (address : Nat) : image.peek address < 256 :=
  UInt8.toNat_lt _

end Image

end StoryMachine
