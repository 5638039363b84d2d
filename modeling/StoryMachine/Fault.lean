import StoryMachine.Instruction.Group
import StoryMachine.Text.Quoted

/-!
# Faults

A fault is a rule of the machine that a story, a save file, a container or a
setting breaks. Each cause is a constructor of `Cause`; its kind and its wording
are functions of it. A fault records in addition the address of the instruction
that raised it and whether the story can go on.

A `Breach` is different: a request that the machine refuses to carry out at all,
such as a character beyond the end of a shortened alphabet or a number that does
not fit its field in a file. No recovery policy applies to it.
-/

namespace StoryMachine

/-- The kinds of fault. -/
inductive FaultKind where
  | memoryAccess
  | object
  | stack
  | arithmetic
  | opcode
  | saveRestore
  | resource
  | storyFile
  | config
deriving DecidableEq, Repr

namespace FaultKind

/-- The written name of a kind. -/
def label : FaultKind → String
  | memoryAccess => "MemoryAccess"
  | object => "Object"
  | stack => "Stack"
  | arithmetic => "Arithmetic"
  | opcode => "Opcode"
  | saveRestore => "SaveRestore"
  | resource => "Resource"
  | storyFile => "StoryFile"
  | config => "Config"

/-- Every kind. -/
def all : List FaultKind :=
  [memoryAccess, object, stack, arithmetic, opcode, saveRestore, resource, storyFile, config]

/-- The kind with the given written name. -/
def ofLabel? (name : String) : Option FaultKind :=
  all.find? (·.label == name)

/-- Whether the machine can usually go on after a fault of this kind. -/
def recoverable : FaultKind → Bool
  | storyFile => false
  | config => false
  | _ => true

end FaultKind

/-- What a chunk file is read as, which decides the kind of its faults. -/
inductive ContainerUse where
  | resources
  | save
deriving DecidableEq, Repr

namespace ContainerUse

/-- The kind of fault that a malformed file of this use raises. -/
def faultKind : ContainerUse → FaultKind
  | resources => .resource
  | save => .saveRestore

end ContainerUse

/-- What is wrong with a chunk file. -/
inductive ContainerFlaw where
  | truncatedHeader (offset : Int)
  | truncatedChunk (id : String) (offset : Int) (claimed : Nat) (available : Int)
  | notContainer
  | wrongType (expected found : String)
  | truncatedForm (claimed : Nat) (available : Nat)
deriving DecidableEq, Repr

namespace ContainerFlaw

/-- The wording of a flaw. -/
def message : ContainerFlaw → String
  | truncatedHeader offset => s!"Truncated chunk header at 0x{Numeral.hex offset}"
  | truncatedChunk id offset claimed available =>
      s!"Chunk {id} at 0x{Numeral.hex offset} claims {claimed} bytes, only {available} available"
  | notContainer => "Not an IFF file"
  | wrongType expected found => s!"Expected IFF type {expected}, found {found}"
  | truncatedForm claimed available => s!"FORM claims {claimed} bytes, only {available} available"

end ContainerFlaw

/-- The causes of faults. -/
inductive Cause where
  /-- A fault described by the host rather than raised by the machine. -/
  | described (kind : FaultKind) (text : String)
  -- memory
  | outsideMemory (address : Int) (size : Nat)
  | outsideRegions (address : Int)
  | notDynamic (address dynamicEnd : Int)
  | wordNotDynamic (address dynamicEnd : Int)
  | signedOutOfRange (value address : Int)
  | replacementSize (size : Nat) (dynamicEnd : Int)
  -- story files
  | storyTooShort
  | unsupportedVersion (version : Int)
  | invalidStaticStart (address : Nat)
  -- text
  | nestedAbbreviation
  | abbreviationWithoutTables (index : Int)
  -- objects
  | invalidObject (id : Int)
  | invalidAttribute (number id : Int)
  | endlessSiblings (parent : Int)
  | missingFromParent (id parent : Int)
  | insertIntoDescendant (id parent : Int)
  | endlessParents (id : Int)
  | invalidProperty (property : Int)
  | endlessProperties (id : Int)
  | propertyNotReadable (property id : Int) (length : Nat)
  | noSuchProperty (property id : Int)
  | setMissingProperty (property id value : Int)
  | propertyNotWritable (property id : Int) (length : Nat)
  -- routines and variables
  | tooManyLocals (count : Nat) (address : Int)
  | noSuchLocal (number : Int) (count : Nat)
  | peekEmpty
  | replaceEmpty
  | popEmpty
  | callOverflow (depth : Nat)
  | returnFromMain
  | throwOutside (depth : Int) (frames : Nat)
  | variableOutOfRange (number : Int)
  | memoryStreamsNested (limit : Nat)
  -- instructions
  | unknownOpcode (group : OpcodeGroup) (number : Nat) (address : Int)
  | tooFewOperands (name : String) (least count : Nat)
  | emptyScanField
  | divisionByZero (name : String) (dividend : Int)
  | shiftOutOfRange (name : String) (places : Int)
  -- chunk files, resources and saves
  | container (use : ContainerUse) (flaw : ContainerFlaw)
  | noResourceIndex
  | danglingResource (usage : String) (number offset : Nat)
  | truncatedIndex
  | indexTooShort (count size : Nat)
  | noExecutable
  | manyExecutables (count : Nat)
  | executableNotStory (chunk : String)
  | executableUnsupported
  | unfinishedRun
  | expandsBeyond (size expected : Nat)
  | truncatedFrameHeader (position : Nat)
  | truncatedFrameData (position : Nat)
  | noSavedFrames
  | shortIdentity (size : Nat)
  | plainMemorySize (size expected : Nat)
  | noIdentityChunk
  | noMemoryChunk
  | noStackChunk
  | foreignSave (release : Nat) (serial : List UInt8)
  | savedMemorySize (size : Nat) (dynamicEnd : Int)
  | noCallFrames
  | resumeOutside (address : Int)
  | resumeReturnsFromMain
  | resumeNoSuchLocal (number count : Nat)
  -- settings and the console
  | settingsNotMapping (found : String)
  | invalidColour (reason : String)
  | settingsUnparsable (path : String) (reason : String)
  | settingsUnreadable (path : String) (reason : String)
  /-- A text is no settings document. -/
  | notDocument
  | savePathNotDirectory (path : String)
  | transcriptExtension
  | transcriptIsDirectory
deriving DecidableEq, Repr

namespace Cause

open FaultKind in
/-- The kind of a cause. Faults of text are counted with the opcodes. -/
def kind : Cause → FaultKind
  | described kind _ => kind
  | outsideMemory .. | outsideRegions .. | notDynamic .. | wordNotDynamic ..
  | signedOutOfRange .. | replacementSize .. => memoryAccess
  | storyTooShort | unsupportedVersion .. | invalidStaticStart .. => storyFile
  | nestedAbbreviation | abbreviationWithoutTables .. => opcode
  | invalidObject .. | invalidAttribute .. | endlessSiblings .. | missingFromParent ..
  | insertIntoDescendant .. | endlessParents .. | invalidProperty .. | endlessProperties ..
  | propertyNotReadable .. | noSuchProperty .. | setMissingProperty ..
  | propertyNotWritable .. => object
  | tooManyLocals .. | noSuchLocal .. | peekEmpty | replaceEmpty | popEmpty | callOverflow ..
  | returnFromMain | throwOutside .. | variableOutOfRange .. | memoryStreamsNested .. => stack
  | unknownOpcode .. | tooFewOperands .. | emptyScanField => opcode
  | divisionByZero .. | shiftOutOfRange .. => arithmetic
  | container use _ => use.faultKind
  | noResourceIndex | danglingResource .. | truncatedIndex | indexTooShort .. | noExecutable
  | manyExecutables .. | executableNotStory .. | executableUnsupported => resource
  | unfinishedRun | expandsBeyond .. | truncatedFrameHeader .. | truncatedFrameData ..
  | noSavedFrames | shortIdentity .. | plainMemorySize .. | noIdentityChunk | noMemoryChunk
  | noStackChunk | foreignSave .. | savedMemorySize .. | noCallFrames | resumeOutside ..
  | resumeReturnsFromMain | resumeNoSuchLocal .. => saveRestore
  | settingsNotMapping .. | invalidColour .. | settingsUnparsable .. | settingsUnreadable ..
  | notDocument | savePathNotDirectory .. | transcriptExtension
  | transcriptIsDirectory => config

open Numeral in
/-- The wording of a cause. -/
def message : Cause → String
  | described _ text => text
  | outsideMemory address size =>
      s!"Address 0x{hex address} is outside of memory (0x{hex size} bytes)"
  | outsideRegions address => s!"Address 0x{hex address} is outside of memory"
  | notDynamic address dynamicEnd =>
      s!"Address 0x{hex address} is not in dynamic memory (ends at 0x{hex dynamicEnd})"
  | wordNotDynamic address dynamicEnd =>
      s!"Word address 0x{hex address} is not in dynamic memory (ends at 0x{hex dynamicEnd})"
  | signedOutOfRange value address => s!"Storing too large signed int {value} to {address}"
  | replacementSize size dynamicEnd =>
      s!"Dynamic memory replacement is 0x{hex size} bytes, expected 0x{hex dynamicEnd}"
  | storyTooShort => "Story file is too short"
  | unsupportedVersion version => s!"Story file version {version} is not supported."
  | invalidStaticStart address => s!"Static memory starts at invalid address 0x{hex address}"
  | nestedAbbreviation => "Abbreviation text may not contain an abbreviation"
  | abbreviationWithoutTables index => s!"No memory available for abbreviation {index}"
  | invalidObject id => s!"Invalid object number {id}"
  | invalidAttribute number id => s!"Invalid attribute number {number} on object {id}"
  | endlessSiblings parent => s!"Sibling chain of object {parent} does not terminate"
  | missingFromParent id parent =>
      s!"Object {id} is not in the child list of its parent {parent}"
  | insertIntoDescendant id parent =>
      s!"Cannot insert object {id} into its own descendant {parent}"
  | endlessParents id => s!"Parent chain of object {id} does not terminate"
  | invalidProperty property => s!"Invalid property number {property}"
  | endlessProperties id => s!"Property list of object {id} does not terminate"
  | propertyNotReadable property id length =>
      s!"get_prop on property {property} of object {id} with length {length}"
  | noSuchProperty property id => s!"No property {property} for object id {id}"
  | setMissingProperty property id value =>
      s!"Request to set non-existent property {property} of obj {id} to {value}."
  | propertyNotWritable property id length =>
      s!"Request to set property {property} of obj {id} which is {length} bytes long."
  | tooManyLocals count address =>
      s!"Invalid number {count} of local vars for routine at 0x{hex address}"
  | noSuchLocal number count =>
      s!"Reference to local var {number} when only {count} local vars"
  | peekEmpty => "Cannot peek at empty stack"
  | replaceEmpty => "Cannot replace top of empty stack"
  | popEmpty => "Cannot pop from empty stack"
  | callOverflow depth => s!"Call stack overflow ({depth} frames)"
  | returnFromMain => "Return with no calling routine"
  | throwOutside depth frames => s!"Throw to frame {depth} with {frames} frames"
  | variableOutOfRange number => s!"Var {number} is out of range 0 to 255"
  | memoryStreamsNested limit => s!"Output stream 3 nested more than {limit} deep"
  | unknownOpcode group number address =>
      s!"Unknown opcode {group.label}:{number} at 0x{hex address}"
  | tooFewOperands name least count => s!"{name} takes at least {least} operands, got {count}"
  | emptyScanField => "scan_table with zero field length"
  | divisionByZero name dividend => s!"{name} of {dividend} by zero"
  | shiftOutOfRange name places => s!"{name} by {places} places"
  | container _ flaw => flaw.message
  | noResourceIndex => "Blorb has no resource index"
  | danglingResource usage number offset =>
      s!"{usage} resource {number} points at 0x{hex offset}, which is not a chunk"
  | truncatedIndex => "Resource index is truncated"
  | indexTooShort count size => s!"Resource index claims {count} entries but is {size} bytes"
  | noExecutable => "Blorb has no executable resource"
  | manyExecutables count => s!"Blorb has {count} executable resources"
  | executableNotStory chunk => s!"Executable is a {chunk} chunk, not ZCOD"
  | executableUnsupported => "Executable is not a supported story file"
  | unfinishedRun => "CMem ends in the middle of a run"
  | expandsBeyond size expected =>
      s!"CMem expands to {size} bytes, dynamic memory is {expected}"
  | truncatedFrameHeader position => s!"Truncated frame header in Stks at {position}"
  | truncatedFrameData position => s!"Truncated frame data in Stks at {position}"
  | noSavedFrames => "Stks chunk has no frames"
  | shortIdentity size => s!"IFhd chunk is {size} bytes, expected 13"
  | plainMemorySize size expected => s!"UMem is {size} bytes, dynamic memory is {expected}"
  | noIdentityChunk => "Save has no IFhd chunk"
  | noMemoryChunk => "Save has no CMem or UMem chunk"
  | noStackChunk => "Save has no Stks chunk"
  | foreignSave release serial =>
      s!"Save is for release {release} serial {Quoted.ofBytes serial}, not this story"
  | savedMemorySize size dynamicEnd =>
      s!"Save has {size} bytes of dynamic memory, story has {dynamicEnd}"
  | noCallFrames => "Save has no call frames"
  | resumeOutside address => s!"Save resumes at 0x{hex address}, outside of memory"
  | resumeReturnsFromMain => "Save returns from the main routine on resume"
  | resumeNoSuchLocal number count =>
      s!"Save stores to local {number} when only {count} locals"
  | settingsNotMapping found => s!"Configuration must be a mapping, not {found}"
  | invalidColour reason => s!"Invalid colour in configuration: {reason}"
  | settingsUnparsable path reason => s!"Unable to parse {path}: {reason}"
  | settingsUnreadable path reason => s!"Unable to read {path}: {reason}"
  | notDocument => "not a settings document"
  | savePathNotDirectory path => s!"Save path {path} is not a directory"
  | transcriptExtension => "All transcripts must end with the .transcript extension"
  | transcriptIsDirectory => "Transcript path must be to a file that ends in .transcript"

/-- Whether the machine can go on after this cause. An unknown opcode has no length, so that the
next instruction cannot be found. -/
def recoverable : Cause → Bool
  | unknownOpcode .. => false
  | cause => cause.kind.recoverable

end Cause

/-- A broken rule, with the instruction that broke it where that is known. -/
structure Fault where
  cause : Cause
  pc : Option Int := none
  recoverable : Bool := cause.recoverable
deriving DecidableEq, Repr

namespace Fault

/-- The kind of a fault. -/
def kind (fault : Fault) : FaultKind :=
  fault.cause.kind

/-- The full report of a fault. -/
def message (fault : Fault) : String :=
  let severity := if fault.recoverable then "Recoverable" else "Fatal"
  let place :=
    match fault.pc with
    | none => ""
    | some address => s!" at 0x{Numeral.hexWidth 5 address}"
  s!"{severity} {fault.kind.label} error{place}: {fault.cause.message}"

/-- A fault is charged to the first instruction that claims it. -/
def located (fault : Fault) (address : Int) : Fault :=
  { fault with pc := some (fault.pc.getD address) }

end Fault

/-- Why the file system refused a request. -/
inductive SystemError where
  | noSuchFile (path : String)
  | notDirectory (path : String)
  | isDirectory (path : String)
  | nameTooLong (path : String)
  | noDisk
deriving DecidableEq, Repr

namespace SystemError

/-- The wording of a refusal with its number. -/
def wording (number : Nat) (text path : String) : String :=
  s!"[Errno {number}] {text}: {Quoted.ofText (Text.ofString path)}"

/-- The wording of a refusal. -/
def message : SystemError → String
  | noSuchFile path => wording 2 "No such file or directory" path
  | notDirectory path => wording 20 "Not a directory" path
  | isDirectory path => wording 21 "Is a directory" path
  | nameTooLong path => wording 36 "File name too long" path
  | noDisk => "no disk"

end SystemError

/-- Requests that the machine does not carry out at all. -/
inductive Breach where
  /-- A place beyond the end of a sequence was asked for. -/
  | indexOutOfRange
  /-- A byte outside `0..255`, a negative shift, or more operands than an operation has places. -/
  | valueOutOfRange
  /-- A number does not fit its field in a file. -/
  | fieldOverflow
  /-- A number is too large to be counted. -/
  | numberTooLarge
  /-- A character has no place in the encoding of a file. -/
  | unencodable
  /-- Bytes are not text. -/
  | undecodable
  /-- There is no log level of the given name. -/
  | unknownLogLevel
  /-- A word does not stand for a truth value. -/
  | unknownWord
  /-- A text is no date and no time. -/
  | notTime
  /-- A text was needed, and something else is there. -/
  | notText
  /-- A document has too many levels. -/
  | nestedTooDeep
  /-- A key was given where a line was read. -/
  | keyForLine
  /-- The machine was told to run before its first start. -/
  | notInitialized
  /-- A story was asked about before the first start. -/
  | noStory
  /-- Bytes were asked for where there are none: no memory, or no saved game. -/
  | noBytes
  /-- An input request other than the pending one was completed. -/
  | staleRequest (request : String)
  /-- The file system refused. -/
  | system (error : SystemError)
deriving DecidableEq, Repr

namespace Breach

/-- The wording of the breaches that carry one. -/
def message? : Breach → Option String
  | notInitialized => some "Interpreter is not yet initialized"
  | staleRequest request => some s!"{request} is not the pending input request"
  | system error => some error.message
  | _ => none

end Breach

/-- Why an action did not complete. -/
inductive Failure where
  | fault (fault : Fault)
  | breach (breach : Breach)
deriving DecidableEq, Repr

namespace Failure

/-- The failure of a fault that no instruction has claimed yet. -/
def ofCause (cause : Cause) : Failure :=
  .fault { cause }

end Failure

end StoryMachine
