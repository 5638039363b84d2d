import StoryMachine.CommandLine
import StoryMachine.Machine.Run
import StoryMachine.Settings

/-!
# Playing a story on the console

A session reads its command line and settings, opens the files that they name,
starts the story and steps it until it halts or the keyboard has no more lines.
A session is a function of the files that there are and of what is typed.

`Session.prepare` reads the command line and the settings, `start` opens
everything and starts the story, `advance` is one step, and `play` is a whole
session with its report.
-/

namespace StoryMachine

namespace Console

/-- What the player asked for. -/
structure Options where
  story : String
  settings : String := "~/.zmachine.yaml"
  commands : Option String := none
  saves : String := "/tmp"
  transcript : Option String := none
  seed : Option String := none
  logLevel : Option String := none
deriving DecidableEq, Repr

/-- The flags of the command line. -/
def flags : List Flag :=
  ["--config", "--commands_path", "--save_path", "--transcript_path", "--seed", "--log-level"].map
    fun name => { name }

namespace Options

/-- The options of a command line. An empty path of commands or of a transcript is none, and so is
an empty log level. -/
def ofCommandLine (line : CommandLine) : Options :=
  let nonempty (name : String) : Option String := (line.value? name).filter (· != "")
  let defaults : Options := { story := line.operand }
  { defaults with
    settings := (line.value? "--config").getD defaults.settings
    commands := nonempty "--commands_path"
    saves := (line.value? "--save_path").getD defaults.saves
    transcript := nonempty "--transcript_path"
    seed := line.value? "--seed"
    logLevel := nonempty "--log-level" }

end Options

/-! ## The log of a session -/

/-- Where the messages of a session go, and from which rank on. -/
structure Logging where
  threshold : Nat := 30
  toFile : Bool := false
deriving DecidableEq, Repr

/-- The file that the log goes to if the settings ask for one. -/
def logFile : String := "zmachine.log"

/-- The names that belong to logging without being levels, and why they are refused. -/
def otherNames : List (String × Breach) :=
  [("BASIC_FORMAT", .valueOutOfRange), ("_STYLES", .notText)]

/-- A level on the command line decides; else the settings. The case of a name does not count. -/
def chooseLogging (settings : Settings) : Option String → Result Logging
  | some level =>
      let name := Log.capitals level
      match Log.thresholds.lookup name with
      | some threshold => .ok { threshold }
      | none => .refuse ((otherNames.lookup name).getD .unknownLogLevel)
  | none => .ok (if settings.logging then { threshold := 10, toFile := true } else {})

/-- A session that is ready to start: what was asked for, and the warning about the settings. -/
structure Session where
  options : Options
  settings : Settings
  logging : Logging
  warning : String := ""
deriving DecidableEq, Repr

/-! ## Starting -/

/-- The machine of a session before anything is opened. -/
def Session.machine (session : Session) (disk : Disk) (keyboard : Keyboard) (entropy : Nat)
    (later : List Nat := []) : Machine where
  file := default
  classifier := { policy := session.settings.policy }
  random := .ofEntropy entropy later
  colours := session.settings.colours
  input := { keyboard }
  disk := if session.logging.toFile then disk.append logFile [] else disk
  log := { threshold := some session.logging.threshold }

/-- The lines of a keyboard, without the line ends. -/
def typed (text : Text) : Keyboard where
  lines :=
    let lines := text.splitOn 0x0a
    let lines := if lines.getLast? = some [] then lines.dropLast else lines
    lines.map fun line => some (line.reverse.dropWhile (· == 0x0d)).reverse
  keysFromLines := true
  ends := true

/-- The first lines of a transcript. -/
def heading (startedAt : Option String) : String :=
  let time := (startedAt.map (" at " ++ ·)).getD ""
  s!"--- Game started{time} ----\n\n"

/-- Opens the transcript, and next to it the script of commands. -/
def openTranscript (startedAt : Option String) (path : String) : Play Unit := do
  let disk := (← get).disk
  if !path.endsWith ".transcript" then Action.fault .transcriptExtension
  if disk.isDirectory path then Action.fault .transcriptIsDirectory
  let sink : Sink := { refusal := disk.refusal? path }
  let sink ← (sink.print (Text.ofString (heading startedAt))).flush
  let script : Sink := { refusal := disk.refusal? (path ++ ".commands") }
  modify fun machine => { machine with transcript := some sink, script := some script }

/-- Opens the commands that are played in place of typed lines. -/
def openCommands (path : String) : Play Unit := do
  let data ← (← get).disk.read path
  match Text.ofUtf8? data with
  | none => Action.refuse .undecodable
  | some text =>
      let commands : Commands := { lines := text.lines.map Text.trimmed, echo := .lines }
      modify fun machine => { machine with input.commands := some commands }

/-- Opens the story. -/
def openStory (path : String) : Play Unit := do
  let data ← (← get).disk.read path
  let file ← StoryFile.ofData data.toArray
  modify fun machine => { machine with file }.announceResources

/-- Opens the directory of saved games. -/
def openSaves (path : String) : Play Unit := do
  if !(← get).disk.isDirectory path then Action.fault (.savePathNotDirectory path)
  modify fun machine => { machine with storage := .directory path }

/-- Makes the random numbers of a session predictable. -/
def plantSeed (seed : String) : Play Unit :=
  match (Text.ofString seed).integer? with
  | none => Action.refuse .valueOutOfRange
  | some value => Machine.reseed (-value)

/-- Opens everything that the options name and starts the story. -/
def start (options : Options) (startedAt : Option String) : Play Unit := do
  options.transcript.forM (openTranscript startedAt)
  options.commands.forM openCommands
  openStory options.story
  openSaves options.saves
  Machine.reset
  if options.transcript.isSome then
    Machine.setTranscriptOn true
    Machine.selectOutput 4
  modify fun machine => { machine with input := machine.input.select 1 }
  options.seed.forM plantSeed

/-! ## Playing -/

/-- One step of a session. A story that waits for a keyboard without more lines is over. -/
def advance : Play Unit := do
  Machine.step
  let machine ← get
  if machine.phase.isWaiting && machine.input.keyboard.exhausted then Machine.quit

/-- Plays on until the story is over; the answer is false if that takes more than the given
steps. -/
def playOn : Nat → Play Bool
  | 0 => return (← get).phase = .halted
  | steps + 1 => do
      if (← get).phase = .halted then return true
      advance
      playOn steps

/-! ## Reporting -/

/-- What the screen showed. -/
def shown (machine : Machine) : Text :=
  machine.screen.shown.reverse.flatMap fun
    | .text text => text
    | .status status => status.line machine.screen.columns

/-- Text as bytes of a file; characters beyond ASCII become question marks. -/
def asciiBytes (text : Text) : List UInt8 :=
  text.map fun c => if c < 0x80 then UInt8.ofNat c else 0x3f

/-- Adds what a stream has written out to its file. -/
def appendSink (path : String) (sink : Option Sink) (disk : Disk) : Disk :=
  match sink.map Sink.contents with
  | none | some [] => disk
  | some text => disk.append path (asciiBytes text)

/-- The files as a session leaves them. -/
def Session.files (session : Session) (machine : Machine) : Disk :=
  let disk := machine.disk
  let disk :=
    match session.options.transcript with
    | none => disk
    | some path =>
        appendSink (path ++ ".commands") machine.script
          (appendSink path machine.transcript disk)
  if session.logging.toFile then disk.append logFile (Text.utf8 machine.log.text) else disk

/-- How a session that ran to its end closes: a fault that halted the story is printed. -/
def closing (machine : Machine) : Nat × String :=
  let thanks := "Thanks for playing!\n"
  match machine.fault with
  | none => (0, thanks)
  | some fault =>
      let last := (machine.lastInstruction.map Instruction.describe).getD "None"
      (1, s!"\n{fault.message} [{last}]\n{thanks}")

/-- How a session that could not go on closes. -/
def closingAfter : Failure → Ending × String
  | .fault fault =>
      if fault.kind = .config then (.finished (some 2), s!"{fault.message}\n")
      else (.finished (some 1), s!"Unable to start: {fault.message}\n")
  | .breach (.system error) => (.finished (some 1), s!"{error.message}\n")
  | .breach breach => (.broken (.breach breach), "")

/-- Reads the command line and the settings; the report is that of a session that got no further. -/
def Session.prepare (disk : Disk) (words : List String) : Except Report Session :=
  match CommandLine.read flags words with
  | .error status => .error { ending := .refused status, disk }
  | .ok line =>
      let options := Options.ofCommandLine line
      match Settings.load disk options.settings with
      | .error failure =>
          let (ending, text) := closingAfter failure
          .error { ending, out := Text.ofString text, disk }
      | .ok (settings, warning) =>
          let warning := (warning.map (· ++ "\n")).getD ""
          match chooseLogging settings options.logLevel with
          | .error failure => .error { ending := .broken failure, messages := warning, disk }
          | .ok logging => .ok { options, settings, logging, warning }

/-- The messages of a session that go to the console. -/
def Session.messages (session : Session) (machine : Machine) : String :=
  session.warning ++ (if session.logging.toFile then "" else machine.log.text)

/-- The report of a session that has come to an end; the answer says whether the story is over. -/
def Session.conclude (session : Session) : EStateM.Result Failure Machine Bool → Report
  | .ok ended machine =>
      let (status, text) := closing machine
      if ended then report machine (.finished (some status)) text
      else report machine .unfinished ""
  | .error failure machine =>
      let (ending, text) := closingAfter failure
      report machine ending text
where
  report (machine : Machine) (ending : Ending) (text : String) : Report :=
    { ending
      out := shown machine ++ Text.ofString text
      messages := session.messages machine
      disk := session.files machine }

/-- A session from the command line to its report. -/
def play (disk : Disk) (keyboard : Keyboard) (steps : Nat) (startedAt : Option String)
    (entropy : Nat) (words : List String) : Report :=
  match Session.prepare disk words with
  | .error report => report
  | .ok session =>
      let whole : Play Bool := do
        start session.options startedAt
        playOn steps
      session.conclude (whole (session.machine disk keyboard entropy))

end Console

end StoryMachine
