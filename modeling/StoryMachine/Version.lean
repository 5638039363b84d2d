import StoryMachine.Effect

/-!
# Story versions

Every number that depends on the version of a story, and the packed addresses
of routines and strings.
-/

namespace StoryMachine

/-- A packed address unpacked for a version. The offset counts only in versions 6 and 7. -/
def unpackAddress (packed version offset : Int) : Int :=
  if version < 4 then packed * 2
  else if version < 6 then packed * 4
  else if version < 8 then packed * 4 + offset * 8
  else packed * 8

/-- A version that the machine runs, with the offsets of its packed addresses. -/
structure Version where
  number : Nat
  routinesOffset : Int := 0
  stringsOffset : Int := 0
  supported : number ∈ [1, 2, 3, 4, 5, 7, 8] := by decide
deriving DecidableEq, Repr

namespace Version

instance : Inhabited Version := ⟨{ number := 5 }⟩

/-- The version of the given number, if the machine runs it. -/
def ofNumber (number : Int) (routinesOffset stringsOffset : Int := 0) : Result Version :=
  if supported : number.toNat ∈ [1, 2, 3, 4, 5, 7, 8] then
    .ok { number := number.toNat, routinesOffset, stringsOffset, supported }
  else .fault (.unsupportedVersion number)

variable (version : Version)

/-- Whether objects, attributes, properties and words have the sizes of the early versions. -/
def isEarly : Bool :=
  version.number < 4

def attributeCount : Nat :=
  if version.isEarly then 32 else 48

def maxObject : Nat :=
  if version.isEarly then 255 else 65535

def objectEntrySize : Nat :=
  if version.isEarly then 9 else 14

def propertyDefaultCount : Nat :=
  if version.isEarly then 31 else 63

def maxProperty : Nat :=
  if version.isEarly then 31 else 63

/-- The bytes of an encoded dictionary word. -/
def dictionaryKeyBytes : Nat :=
  if version.isEarly then 4 else 6

/-- The zchars of an encoded dictionary word. -/
def encodedZchars : Nat :=
  if version.isEarly then 6 else 9

/-- What the file length in the header counts in. -/
def fileLengthMultiplier : Nat :=
  if version.number < 4 then 2
  else if version.number < 6 then 4
  else 8

/-- Whether routine headers hold the initial values of the locals. -/
def routineInitialValues : Bool :=
  version.number < 5

/-- The zchars that introduce an abbreviation. -/
def abbreviationCodes : List Nat :=
  if version.number = 1 then []
  else if version.number = 2 then [1]
  else [1, 2, 3]

/-- Whether alphabets can be locked. -/
def shiftLock : Bool :=
  version.number < 3

/-- The address of a routine. -/
def unpackRoutine (packed : Int) : Int :=
  unpackAddress packed version.number version.routinesOffset

/-- The address of a string. -/
def unpackString (packed : Int) : Int :=
  unpackAddress packed version.number version.stringsOffset

/-- The written name of a version. -/
def describe : String :=
  s!"VersionConfig({version.number})"

end Version

end StoryMachine
