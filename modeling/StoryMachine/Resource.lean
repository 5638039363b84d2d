import StoryMachine.Chunk

/-!
# Resource files

A resource file holds a story together with its sounds and pictures. An index
chunk names each resource by its usage and number and gives the offset of the
chunk with its data; every entry must point at a chunk, and exactly one must be
an executable story.
-/

namespace StoryMachine

/-- A resource and the chunk that it names. -/
structure Resource where
  usage : String
  number : Nat
  offset : Nat
  chunk : String
  data : List UInt8
deriving DecidableEq, Repr, Inhabited

namespace Resource

/-- The written form of a resource. -/
def describe (resource : Resource) : String :=
  s!"Resource({resource.usage} #{resource.number}: {resource.chunk}, " ++
    s!"{resource.data.length} bytes at 0x{Numeral.hexWidth 8 resource.offset})"

/-- Resources are listed by usage, then by number. -/
def before (left right : Resource) : Bool :=
  left.usage < right.usage || (left.usage == right.usage && left.number ≤ right.number)

end Resource

/-- A resource file that was accepted. -/
structure ResourceFile where
  chunks : List Chunk
  identity : Option (List UInt8)
  /-- How often sounds repeat, by sound number. -/
  loops : List (Nat × Nat)
  resources : List Resource
  executable : Resource
deriving DecidableEq, Repr, Inhabited

namespace ResourceFile

/-- The type of the form. -/
def formType : String := "IFRS"

/-- The versions of the stories that are accepted as executables. -/
def storyVersions : List Nat := [1, 2, 3, 4, 5, 7, 8]

/-- Whether data looks like a resource file. -/
def isResourceFile (data : List UInt8) : Bool :=
  12 ≤ data.length && Chunk.latin (data.take 4) == "FORM" &&
    Chunk.latin ((data.drop 8).take 4) == formType

/-- Pairs of four-byte numbers; an incomplete pair at the end is dropped. -/
def numberPairs (data : List UInt8) : List (Nat × Nat) :=
  if _enough : 8 ≤ data.length then
    (Chunk.number (data.take 4), Chunk.number ((data.drop 4).take 4)) :: numberPairs (data.drop 8)
  else []
termination_by data.length
decreasing_by
  simp only [List.length_drop]
  omega

/-- Adds an entry to a table with unique keys; a later entry replaces an earlier one in place. -/
def put {κ ν : Type} [BEq κ] (key : κ) (value : ν) : List (κ × ν) → List (κ × ν)
  | [] => [(key, value)]
  | (k, v) :: rest => if k == key then (k, value) :: rest else (k, v) :: put key value rest

/-- The repeats of all loop chunks. -/
def readLoops (chunks : List Chunk) : List (Nat × Nat) :=
  ((chunks.filter (·.id == "Loop")).flatMap fun chunk => numberPairs chunk.data).foldl
    (fun loops (number, repeats) => put number repeats loops) []

/-- An entry of the index: usage, number and offset. -/
def readEntry (data : List UInt8) : String × Nat × Nat :=
  (Chunk.latin (data.take 4), Chunk.number ((data.drop 4).take 4),
    Chunk.number ((data.drop 8).take 4))

/-- The entries of the index. -/
def readEntries (data : List UInt8) : Nat → List (String × Nat × Nat)
  | 0 => []
  | count + 1 => readEntry data :: readEntries (data.drop 12) count

/-- The entries that an index chunk claims to have. -/
def readIndex (data : List UInt8) : Result (List (String × Nat × Nat)) :=
  if data.length < 4 then .fault .truncatedIndex
  else
    let count := Chunk.number (data.take 4)
    if data.length < 4 + count * 12 then .fault (.indexTooShort count data.length)
    else .ok (readEntries (data.drop 4) count)

/-- The resources of index entries. Each must point at a chunk; of two entries for one resource the
later counts. -/
def resolve (chunks : List Chunk) :
    List (String × Nat × Nat) → List ((String × Nat) × Resource) →
    Result (List ((String × Nat) × Resource))
  | [], found => .ok found
  | (usage, number, offset) :: rest, found =>
      match chunks.find? fun chunk => chunk.offset = (offset : Int) with
      | none => .fault (.danglingResource usage number offset)
      | some chunk =>
          let resource := { usage, number, offset, chunk := chunk.id, data := chunk.data }
          resolve chunks rest (put (usage, number) resource found)

/-- The one executable story among resources. -/
def findExecutable (resources : List Resource) : Result Resource :=
  match resources.filter (·.usage == "Exec") with
  | [] => .fault .noExecutable
  | [executable] =>
      if executable.chunk ≠ "ZCOD" then .fault (.executableNotStory executable.chunk)
      else
        match executable.data with
        | [] => .fault .executableUnsupported
        | version :: _ =>
            if storyVersions.contains version.toNat then .ok executable
            else .fault .executableUnsupported
  | executables => .fault (.manyExecutables executables.length)

/-- Reads a resource file. -/
def read (data : List UInt8) : Result ResourceFile := do
  let chunks ← Chunk.readForm .resources formType data
  let last (id : String) := (chunks.filter (·.id == id)).getLast?
  match last "RIdx" with
  | none => .fault .noResourceIndex
  | some index =>
      let entries ← readIndex index.data
      let resources := (← resolve chunks entries []).map Prod.snd
      let executable ← findExecutable resources
      return {
        chunks, resources, executable
        identity := (last "IFhd").map Chunk.data
        loops := readLoops chunks }

/-- The resources in the order in which they are listed. -/
def sorted (file : ResourceFile) : List Resource :=
  file.resources.mergeSort Resource.before

/-- The resource of a usage and number. -/
def find? (file : ResourceFile) (usage : String) (number : Int) : Option Resource :=
  file.resources.find? fun resource => resource.usage == usage && (resource.number : Int) = number

def sound? (file : ResourceFile) (number : Int) : Option Resource :=
  file.find? "Snd " number

def picture? (file : ResourceFile) (number : Int) : Option Resource :=
  file.find? "Pict" number

/-- The sounds, in the order of their numbers. -/
def sounds (file : ResourceFile) : List Resource :=
  file.sorted.filter (·.usage == "Snd ")

/-- How often a sound repeats, if the file says so. -/
def repeats? (file : ResourceFile) (number : Int) : Option Nat :=
  (file.loops.find? fun entry => (entry.1 : Int) = number).map Prod.snd

end ResourceFile

end StoryMachine
