import StoryMachine.Memory.Game
import StoryMachine.Version

/-!
# The story header

The first 64 bytes of a story. An image of at least that size has every field of
the header; the extension table lies elsewhere and is read with checks. The
header is always read from the image as it is now: a story can change it.
-/

namespace StoryMachine

namespace Header

/-- The bytes that a header takes. -/
def size : Nat := 0x40

end Header

namespace Image

/-- An image that has a header. -/
def withHeader (image : Image) : Result Image :=
  if image.size < Header.size then .fault .storyTooShort else .ok image

variable (image : Image)

def version : Nat := image.peek 0x00
def releaseNumber : Nat := image.peekWord 0x02
def highMemoryAddress : Nat := image.peekWord 0x04
def mainRoutine : Nat := image.peekWord 0x06
def dictionaryAddress : Nat := image.peekWord 0x08
def objectTableAddress : Nat := image.peekWord 0x0a
def globalsAddress : Nat := image.peekWord 0x0c
def staticMemoryAddress : Nat := image.peekWord 0x0e
def flags2 : Nat := image.peekWord 0x10
def serial : List UInt8 := (image.bytes.extract 0x12 0x18).toList
def abbreviationsAddress : Nat := image.peekWord 0x18
def checksum : Nat := image.peekWord 0x1c
def revisionNumber : Nat := image.peekWord 0x32
def terminatingCharsAddress : Nat := image.peekWord 0x2e
def alphabetTableAddress : Nat := image.peekWord 0x34
def extensionAddress : Nat := image.peekWord 0x36

/-- The version and its offsets, as the header gives them now. -/
def versionInfo : Result Version :=
  if image.version = 6 ∨ image.version = 7 then
    Version.ofNumber image.version (image.peekWord 0x28) (image.peekWord 0x2a)
  else Version.ofNumber image.version

/-- The length of the story file. -/
def fileLength (multiplier : Option Int := none) : Result Int := do
  let multiplier ←
    match multiplier with
    | some multiplier => pure multiplier
    | none => (fun version => (version.fileLengthMultiplier : Int)) <$> image.versionInfo
  return image.peekWord 0x1a * multiplier

/-- A word of the header extension table; a table that is missing or too short has only zeros. -/
def extensionWord (n : Int) : Result Nat := do
  let address := image.extensionAddress
  if address = 0 ∨ image.size ≤ address + 1 then return 0
  let count ← image.word address
  if count < n then return 0
  image.word (address + n * 2)

def unicodeTableAddress : Result Nat := image.extensionWord 3

/-- Whether the status line shows the time rather than the score. -/
def showsTime : Bool := image.peekFlag 0x01 1
def isTwoDisk : Bool := image.peekFlag 0x01 2
def lacksStatusLine : Bool := image.peekFlag 0x01 4
def canSplitScreen : Bool := image.peekFlag 0x01 5
def variablePitch : Bool := image.peekFlag 0x01 6
def transcriptOn : Bool := image.peekFlag 0x11 0

def setFlags2 (value : Int) : Image := image.pokeWord 0x10 value
def setCanSplitScreen (on : Bool) : Image := image.pokeFlag 0x01 5 on
def setTranscriptOn (on : Bool) : Image := image.pokeFlag 0x11 0 on

/-- The second flags with the bits that a restart or a restored game keeps, the transcript and the
fixed pitch, taken from an earlier value. -/
def keepFlags (earlier : Nat) : Image :=
  image.setFlags2 (image.flags2 - image.flags2 % 4 + earlier % 4)

end Image

/-- What the machine tells a story about its surroundings. -/
structure Surroundings where
  screenLines : Int := 25
  screenColumns : Int := 80
  foreground : Int := 9
  background : Int := 2
  splitAvailable : Bool := false
  soundAvailable : Bool := false
  coloursAvailable : Bool := false
deriving DecidableEq, Repr, Inhabited

namespace Image

/-- The first flags of the early versions: a status line, perhaps a split screen, no variable
pitch. -/
def announceEarly (image : Image) (about : Surroundings) : Image :=
  ((image.pokeFlag 0x01 4 false).pokeFlag 0x01 5 about.splitAvailable).pokeFlag 0x01 6 false

/-- The first flags and the screen size from version 4 on. -/
def announceScreen (image : Image) (about : Surroundings) : Image :=
  let image := image.pokeFlag 0x01 0 (about.coloursAvailable && decide (4 < image.version))
  let image := image.pokeFlag 0x01 1 false
  let image := image.pokeFlag 0x01 2 true
  let image := image.pokeFlag 0x01 3 true
  let image := image.pokeFlag 0x01 4 true
  let image := image.pokeFlag 0x01 5 about.soundAvailable
  let image := image.pokeFlag 0x01 7 true
  (image.poke 0x20 (min about.screenLines 255)).poke 0x21 (min about.screenColumns 255)

/-- The units, colours and refused requests from version 5 on. -/
def announceUnits (image : Image) (about : Surroundings) : Image :=
  let image := (image.pokeWord 0x22 about.screenColumns).pokeWord 0x24 about.screenLines
  let image := (image.poke 0x26 1).poke 0x27 1
  let image := (image.poke 0x2d about.foreground).poke 0x2c about.background
  let image := image.pokeFlag 0x11 3 false
  if about.soundAvailable then image else image.pokeFlag 0x11 7 false

/-- The interpreter's number and version, and the revision of the standard. -/
def announceInterpreter (image : Image) : Image :=
  (((image.poke 0x1e 6).poke 0x1f 0x5a).poke 0x32 1).poke 0x33 1

/-- Writes the fields that the machine owns, at a start, a restart or a restored game. -/
def announce (image : Image) (about : Surroundings) : Image :=
  let version := image.version
  let image := if version < 4 then image.announceEarly about else image.announceScreen about
  let image := if 5 ≤ version then image.announceUnits about else image
  image.announceInterpreter

end Image

end StoryMachine
