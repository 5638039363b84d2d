import StoryMachine.Instruction
import StoryMachine.Log
import StoryMachine.Policy
import StoryMachine.Random
import StoryMachine.SaveFile
import StoryMachine.Storage
import StoryMachine.Story
import StoryMachine.Stream.Input
import StoryMachine.Stream.Screen
import StoryMachine.Stream.Sink
import StoryMachine.Stream.Sound
import StoryMachine.Workspace

/-!
# The machine

The state of a machine: the story and its memory, the calls in progress, the
input that it waits for, and its surroundings (screen, files, keyboard, sound,
saved games, log). The surroundings are data, so that a run is a function of
what the player types.

Input requests are kept in a ledger by their tokens. The pending request, frames
of interrupt routines and undo snapshots only name a token, so that all of them
see what has been typed so far.
-/

namespace StoryMachine

/-- What a machine is doing. -/
inductive Phase where
  | running
  | waitingForLine
  | waitingForKey
  | halted
deriving DecidableEq, Repr, Inhabited

namespace Phase

/-- The written name of a phase. -/
def label : Phase → String
  | running => "running"
  | waitingForLine => "line"
  | waitingForKey => "char"
  | halted => "halted"

/-- Whether the machine waits for the player. -/
def isWaiting (phase : Phase) : Bool :=
  phase = waitingForLine || phase = waitingForKey

end Phase

/-- What the player entered: text, or a single key by its code. -/
inductive Entry where
  | text (text : Text)
  | key (code : Int)
deriving DecidableEq, Repr

/-- The kinds of input. -/
inductive InputKind where
  | line
  | key
deriving DecidableEq, Repr

namespace InputKind

/-- The written name of a kind. -/
def label : InputKind → String
  | line => "line"
  | key => "char"

end InputKind

/-- A read that waits for input. -/
structure InputRequest where
  kind : InputKind
  token : Nat
  instruction : Option Instruction
  textBuffer : Int := 0
  parseBuffer : Int := 0
  time : Int := 0
  routine : Int := 0
  maxLength : Int := 0
  /-- The text that counts as already typed. -/
  initial : Entry := .text []
  terminators : List Int := [13]
  /-- What had been typed when the time last ran out. -/
  typed : Option Entry := none
deriving DecidableEq, Repr

namespace InputRequest

/-- The written form of a request. -/
def describe (request : InputRequest) : String :=
  s!"InputRequest({request.kind.label},token={request.token},time={request.time})"

end InputRequest

/-- A table in memory that takes printed text. -/
structure MemoryStream where
  table : Int
  count : Nat := 0
deriving DecidableEq, Repr, Inhabited

/-- The state of a machine. -/
structure Machine where
  file : StoryFile
  /-- Whether a story has been started. -/
  ready : Bool := false
  story : Story := default
  work : Workspace := default
  pc : Int := 0
  phase : Phase := .running
  /-- The token of the request that the machine waits for. -/
  pending : Option Nat := none
  /-- All requests so far; the first has token one. -/
  requests : Array InputRequest := #[]
  lastInstruction : Option Instruction := none
  fault : Option Fault := none
  /-- Snapshots to go back to, the newest first. -/
  undo : List SavedGame := []
  /-- Sounds that play, with the routines to call when they are over. -/
  soundRoutines : List (Int × Int) := []
  classifier : Classifier
  /-- Reported faults with their instructions, the newest first. -/
  reports : List (String × String) := []
  random : Random
  colours : Int × Int := (9, 2)
  screen : Screen := {}
  transcript : Option Sink := none
  script : Option Sink := none
  /-- Open memory streams, the one in use first. -/
  memoryStreams : List MemoryStream := []
  input : Input := {}
  sound : Option SoundDevice := none
  storage : Storage := default
  disk : Disk := {}
  log : Log := {}
deriving DecidableEq, Repr, Inhabited

/-- Actions of the machine. -/
abbrev Play := Action Machine

namespace Machine

/-- An action on the workspace. -/
def onWork {α : Type} (action : Action Workspace α) : Play α :=
  action.focus Machine.work fun work machine => { machine with work }

/-- An action on memory. -/
def onMemory {α : Type} (action : GameMemory.Edit α) : Play α :=
  onWork (Workspace.onMemory action)

/-- The memory of the story as it is now. -/
def image (machine : Machine) : Image :=
  machine.work.memory.toImage

/-- Changes fields of the header that the machine owns. -/
def overHeader (change : Image → Image) : Play Unit :=
  modify fun machine =>
    { machine with work.memory := machine.work.memory.overImage change }

/-- Asks a question about memory. -/
def ask {α : Type} (question : Image → Result α) : Play α := do
  question (← get).image

/-- Refuses what needs a story before the first start, with the given breach. -/
def requireStory (breach : Breach) : Play Unit := do
  if !(← get).ready then Action.refuse breach

/-- Writes a message to the log. -/
def note (level : LogLevel) (source message : String) : Play Unit :=
  modify fun machine => { machine with log := machine.log.add level source message }

/-- Notes how many resources came with the story. -/
def announceResources (machine : Machine) : Machine :=
  match machine.file.resources with
  | none => machine
  | some resources =>
      { machine with
        log := machine.log.add .info "zmachine.blorb"
          s!"Loaded blorb with {resources.resources.length} resources" }

/-- Moves the program counter. -/
def goTo (address : Int) : Play Unit :=
  modify fun machine => { machine with pc := address }

/-- The request with a token. -/
def request? (machine : Machine) (token : Nat) : Option InputRequest :=
  if token = 0 then none else machine.requests[token - 1]?

/-- Enters a request under the next token. -/
def newRequest (request : Nat → InputRequest) : Play Nat := do
  let token := (← get).requests.size + 1
  modify fun machine => { machine with requests := machine.requests.push (request token) }
  return token

/-- Changes a request. -/
def changeRequest (token : Nat) (change : InputRequest → InputRequest) : Play Unit :=
  modify fun machine => { machine with requests := machine.requests.modify (token - 1) change }

/-- What the story is told about the surroundings. -/
def surroundings (machine : Machine) : Surroundings where
  screenLines := machine.screen.lines
  screenColumns := machine.screen.columns
  foreground := machine.colours.1
  background := machine.colours.2
  splitAvailable := machine.screen.canSplit
  soundAvailable := machine.sound.any (·.available)
  coloursAvailable := machine.screen.hasColours

/-- Writes the fields of the header that the machine owns. -/
def announce : Play Unit := do
  let about := (← get).surroundings
  overHeader (·.announce about)

end Machine

end StoryMachine
