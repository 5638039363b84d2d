import StoryMachine.Dictionary
import StoryMachine.Header
import StoryMachine.ObjectTable.Property
import StoryMachine.Resource

/-!
# Stories

A story file as it is read, and what is resolved from it once when it is loaded:
its version, its way of writing text, its dictionary and its object table.
-/

namespace StoryMachine

/-- A story file, with the resource file that it came in. -/
structure StoryFile where
  data : Array UInt8
  resources : Option ResourceFile := none
deriving DecidableEq, Repr, Inhabited

namespace StoryFile

/-- A story file or a resource file with a story in it. Only the container is checked. -/
def ofData (data : Array UInt8) : Result StoryFile :=
  let bytes := data.toList
  if ResourceFile.isResourceFile bytes then do
    let resources ← ResourceFile.read bytes
    return { data := resources.executable.data.toArray, resources }
  else .ok { data }

end StoryFile

/-- What is resolved from a story file when it is loaded. -/
structure Story where
  data : Array UInt8
  version : Version
  codec : Codec
  dictionary : Dictionary
  objects : ObjectTable
deriving DecidableEq, Repr, Inhabited

namespace Story

/-- Loads a story into fresh memory. -/
def load (data : Array UInt8) : Result (Story × GameMemory) := do
  let image ← Image.withHeader ⟨data⟩
  let version ← image.versionInfo
  let staticStart := image.staticMemoryAddress
  if staticStart < Header.size ∨ data.size < staticStart then
    .fault (.invalidStaticStart staticStart)
  let memory := GameMemory.protect image staticStart image.highMemoryAddress
  let unicodeTable ← image.unicodeTableAddress
  let codec ← Codec.load image.version (some image) image.abbreviationsAddress
    image.alphabetTableAddress unicodeTable
  let dictionary ← Dictionary.load codec image image.dictionaryAddress
  let objects : ObjectTable := { address := image.objectTableAddress, version }
  return ({ data, version, codec, dictionary, objects }, memory)

/-- The dynamic memory of the fresh story. -/
def freshDynamic (story : Story) (memory : GameMemory) : List UInt8 :=
  (story.data.extract 0 memory.dynamicEnd.toNat).toList

/-- The sum of the bytes after the header, up to the length that the header gives now. -/
def computedChecksum (story : Story) (image : Image) : Result Nat := do
  let length ← image.fileLength
  let stop := if length = 0 then (story.data.size : Int) else length
  return (Span.ofArray story.data 0x40 stop).foldl (fun sum byte => sum + byte.toNat) 0 % 65536

/-- The name of an object. -/
def objectName (story : Story) (image : Image) (id : Int) : Result Text := do
  let (address, length) ← story.objects.shortName image id
  if length = 0 then return []
  story.codec.decode image address length

end Story

end StoryMachine
