import StoryMachine.CommandLine
import StoryMachine.Instruction.Decode
import StoryMachine.Machine
import StoryMachine.Text.Integer

/-!
# Inspecting a story

A listing of a story file: its header, its first bytes and instructions, and on
demand a part of its memory, its dictionary, its objects and its resources. What
was printed before a failure stays printed.
-/

namespace StoryMachine

namespace Inspector

/-- What to list. -/
structure Options where
  file : String
  dictionary : Bool := false
  objects : Bool := false
  resources : Bool := false
  /-- The address to list memory from; zero lists nothing. -/
  address : Nat := 0
deriving DecidableEq, Repr

/-- The flags of the command line. -/
def flags : List Flag :=
  [⟨"--dictionary", false⟩, ⟨"--objects", false⟩, ⟨"--resources", false⟩, ⟨"--address", true⟩]

/-- Printing, the newest text first. -/
abbrev Printer := Action (List Text)

/-- Prints a text. -/
def put (text : Text) : Printer Unit :=
  modify (text :: ·)

/-- Prints a string. -/
def write (s : String) : Printer Unit :=
  put (Text.ofString s)

/-- Prints a line. -/
def line (s : String) : Printer Unit :=
  write (s ++ "\n")

/-- A story with its memory and the resources that came with it. -/
structure Subject where
  story : Story
  image : Image
  resources : Option ResourceFile

/-- Rows of memory, sixteen bytes each, from an address on. -/
def listMemory (image : Image) (start length : Nat) : Printer Unit :=
  write (Image.listingRows 16 start (image.bytes.extract start (start + length)).toList)

/-- The fields of the header. -/
def listHeader (subject : Subject) : Printer Unit := do
  let image := subject.image
  let word (n : Nat) : String := "0x" ++ Numeral.hexWidth 4 n
  line s!"Version:                  {image.version}"
  line s!"Release:                  {image.releaseNumber}"
  write "Serial:                   "
  put (image.serial.map UInt8.toNat)
  line ""
  line s!"Himem address:            {word image.highMemoryAddress}"
  line s!"PC Address:               {word image.mainRoutine}"
  line s!"Dictionary address:       {word image.dictionaryAddress}"
  line s!"Object table address:     {word image.objectTableAddress}"
  line s!"Global variables address: {word image.globalsAddress}"
  line s!"Static memory address:    {word image.staticMemoryAddress}"
  line s!"Abbrev table address:     {word image.abbreviationsAddress}"
  line ("File length:              0x" ++ Numeral.hexWidth 8 (← image.fileLength))
  let computed ← subject.story.computedChecksum image
  line s!"Checksum:                 {word image.checksum} (calculated {word computed})"
  line s!"Revision number:          {word image.revisionNumber}"
  line "Flags:"
  line (if image.showsTime then "   hours:mins" else "   score/turns")
  if image.isTwoDisk then line "   two disk"
  if image.lacksStatusLine then line "   no status line"
  if image.canSplitScreen then line "   screen split available"
  if image.variablePitch then line "   variable pitch is default"

/-- The entries of the dictionary. -/
def listDictionary (subject : Subject) : Printer Unit := do
  let dictionary := subject.story.dictionary
  line s!"Entries       : {dictionary.count}"
  line s!"Entry length  : {dictionary.entryLength}"
  line ("Sorted        : " ++ if dictionary.isSorted then "True" else "False")
  let separators := dictionary.separators.map fun code => subject.story.codec.zsciiText (code : Nat)
  write "Separators    : "
  put (Text.joinWith [0x20] separators)
  line ""
  let words ← dictionary.words subject.image
  words.zipIdx.forM fun (word, index) => do
    write s!" {index}: "
    put word
    line ""

/-- One object: its name and its place in the tree. -/
def listObject (subject : Subject) (id : Int) : Printer Unit := do
  let objects := subject.story.objects
  let image := subject.image
  let name ← subject.story.objectName image id
  let parent ← objects.parent image id
  let sibling ← objects.sibling image id
  let child ← objects.child image id
  write s!"{id}. "
  put name
  line s!" parent={parent} sibling={sibling} child={child}"

/-- All objects. A broken object does not end the list. -/
def listObjects (subject : Subject) : Printer Unit := do
  let count ← subject.story.objects.estimatedCount subject.image
  (List.range count.toNat).forM fun index => do
    let id : Int := index + 1
    (listObject subject id).onFault fun fault => line s!"{id}. Error. {fault.message}"

/-- The resources that came with the story. -/
def listResources (subject : Subject) : Printer Unit :=
  match subject.resources with
  | none => line "Not a blorb"
  | some resources => resources.sorted.forM fun resource => line resource.describe

/-- A number of instructions from an address on, up to the first that cannot be read. -/
def listInstructions (subject : Subject) : Nat → Int → Printer Unit
  | 0, _ => pure ()
  | count + 1, address => do
      let image := subject.image
      match Instruction.read subject.story.codec (some image) image address image.version with
      | .error (.fault fault) => line s!"Error. {fault.message}"
      | .error (.breach breach) => Action.refuse breach
      | .ok instruction =>
          line s!"{Numeral.hexWidth 5 address} {instruction.describe}"
          listInstructions subject count instruction.nextAddress

/-- A part of the listing under a heading. -/
def part (title rule : String) (body : Printer Unit) : Printer Unit := do
  line ""
  line s!"{title}\n{rule}\n"
  body

/-- The whole listing. -/
def list (options : Options) (subject : Subject) : Printer Unit := do
  listHeader subject
  part "Raw memory" "---------" (listMemory subject.image 0 0x40)
  part "Starting instructions" "--------"
    (listInstructions subject 10 subject.image.mainRoutine)
  line ""
  if options.address ≠ 0 then
    line ""
    line s!"Dumping from 0x{Numeral.hex options.address}"
    listMemory subject.image options.address 160
  if options.dictionary then part "Dictionary" "--------------" (listDictionary subject)
  if options.objects then part "Objects" "--------------" (listObjects subject)
  if options.resources then part "Resources" "--------------" (listResources subject)

/-- Reads a story and loads it into fresh memory. -/
def load (data : List UInt8) : Result Subject := do
  let file ← StoryFile.ofData data.toArray
  let (story, memory) ← Story.load file.data
  return { story, image := memory.toImage, resources := file.resources }

/-- Lists a file of a disk. -/
def listFile (disk : Disk) (options : Options) : Printer Unit := do
  match load (← disk.read options.file) with
  | .ok subject => list options subject
  | .error (.fault fault) => line s!"Unable to load story file. {fault.message}"
  | .error (.breach breach) => Action.refuse breach

/-- The address that a flag gives, or what is wrong with it. -/
def addressOf (value : Option String) : Except String Nat :=
  match value.filter (· != "") with
  | none => .ok 0
  | some written =>
      if !written.startsWith "0x" then .error "address must start with 0x"
      else
        match (Text.ofString written).readInteger 16 with
        | .ok address => .ok address.toNat
        | .error _ => .error "address must start with 0x and be a valid hex address"

/-- The listing for a command line. -/
def run (disk : Disk) (command : CommandLine) : Printer Unit :=
  match addressOf (command.value? "--address") with
  | .error message => line message
  | .ok address =>
      listFile disk
        { file := command.operand
          dictionary := command.has "--dictionary"
          objects := command.has "--objects"
          resources := command.has "--resources"
          address }

/-- An inspection from the command line to its report. -/
def inspect (disk : Disk) (words : List String) : Report :=
  match CommandLine.read flags words with
  | .error status => { ending := .refused status, disk }
  | .ok command =>
      match run disk command [] with
      | .ok _ printed => { ending := .finished none, out := printed.reverse.flatten, disk }
      | .error failure printed =>
          { ending := .broken failure, out := printed.reverse.flatten, disk }

end Inspector

end StoryMachine
