import Std.Time
import StoryMachine.Console
import StoryMachine.Inspector

/-!
# The program

`play` plays a story on the console and `inspect` lists a story file; without a
command a story is played. The library works on files and typed lines as data.
Here they are read from the real file system and the real keyboard, and what a
session wrote is written back.

A step of a session that finds no line at the keyboard is taken back: a line is
read, and the step is done again with it.
-/

namespace StoryMachine

namespace Program

/-- A path as the file system knows it: a tilde in front is the home directory. -/
def realPath (path : String) : IO String := do
  if path.startsWith "~/" then
    let home := (← IO.getEnv "HOME").getD "~"
    return home ++ (path.drop 1).toString
  return path

/-- The code of the system for a file operation on a directory. -/
def directoryCode : UInt32 := 21

/-- What stands at a path, if it can be read. -/
def entryAt? (path : String) : IO (Option DiskEntry) := do
  try
    let data ← IO.FS.readBinFile (← realPath path)
    return some (.file data.toList)
  catch error =>
    match error with
    | .inappropriateType _ code _ => return if code = directoryCode then some .directory else none
    | _ => return none

/-- The files and directories at some paths. -/
def diskOf (paths : List String) : IO Disk := do
  let mut entries := []
  for path in paths do
    if let some entry ← entryAt? path then
      entries := ((Disk.locationOf path).path, entry) :: entries
  return { entries }

/-- The directories that a path lies in. -/
def parents (path : String) : List String :=
  let names := Disk.names path
  let start := if path.startsWith "/" then "/" else ""
  (List.range names.length).map fun count => start ++ "/".intercalate (names.take count)

/-- The paths that a session may read or write, saved games apart. -/
def sessionPaths (options : Console.Options) : List String :=
  let transcripts := options.transcript.toList.flatMap fun path => [path, path ++ ".commands"]
  let direct := [options.settings, options.story, options.saves, Console.logFile] ++
    options.commands.toList ++ transcripts
  (direct ++ direct.flatMap parents).eraseDups

/-- Adds the saved game that a typed line names, in case the line is the name of one. -/
def withSavedGame (session : Console.Session) (disk : Disk) (line : Text) : IO Disk := do
  match Storage.pathFor? session.options.saves line with
  | none => return disk
  | some path =>
      match disk.find? path, ← entryAt? path with
      | none, some entry =>
          return { entries := ((Disk.locationOf path).path, entry) :: disk.entries }
      | _, _ => return disk

/-- Writes the files that differ from what is known to be there. -/
def writeFiles (known now : Disk) : IO Unit := do
  for (path, entry) in now.entries do
    if known.find? path ≠ some entry then
      if let .file data := entry then IO.FS.writeBinFile path ⟨data.toArray⟩

/-- The time of day as transcripts show it. -/
def timestamp : IO String := do
  let now ← Std.Time.PlainDateTime.now
  let two (n : Int) : String := Numeral.decimalWidth 2 n
  let day := s!"{now.year}-{two now.month.val}-{two now.day.val}"
  let micros := Numeral.decimalWidth 6 (now.time.nanosecond.val / 1000)
  return s!"{day} {two now.hour.val}:{two now.minute.val}:{two now.second.val}.{micros}"

/-- A number of the host to seed with. -/
def hostNumber : IO Nat :=
  IO.rand 0 0xffffffffffffffff

/-- Prints what a machine has shown beyond what is on the screen already. -/
def present (machine : Machine) (seen : Nat) : IO Unit := do
  let out ← IO.getStdout
  out.putStr (Text.toString ((Console.shown machine).drop seen))
  out.flush

/-- Hands out a report and gives the status of the program. -/
def deliver (known : Disk) (report : Report) (seen : Nat := 0) : IO UInt32 := do
  IO.print (Text.toString (report.out.drop seen))
  IO.eprint report.messages
  writeFiles known report.disk
  match report.ending with
  | .finished status => return (status.getD 0).toUInt32
  | .refused status => return status.toUInt32
  | .broken _ | .unfinished => return 1

/-- Steps a session until it is over. The story's text goes out as it comes; `known` are the files
that are written already, and `seen` counts the characters of a step that was taken back. A step
seeds the random numbers at most once. -/
partial def converse (session : Console.Session) (known : Disk) (machine : Machine)
    (seen : Nat) : IO UInt32 := do
  if machine.phase = .halted then
    return ← deliver known (session.conclude (.ok true machine)) seen
  let machine := { machine with random.entropy := [← hostNumber] }
  match Console.advance machine with
  | .error failure after => deliver known (session.conclude (.error failure after)) seen
  | .ok _ after =>
      present after seen
      let shownNow := (Console.shown after).length
      if !after.input.keyboard.exhausted then
        return ← converse session known { after with screen.shown := [] } 0
      let files := session.files machine
      writeFiles known files
      let line ← (← IO.getStdin).getLine
      if line.isEmpty then
        converse session files { after with screen.shown := [] } 0
      else
        let line := Text.ofString line
        let disk ← withSavedGame session machine.disk line
        let machine := { machine with disk, input.keyboard := Console.typed line }
        converse session (session.files machine) machine shownNow

/-- Plays a story. -/
def play (words : List String) : IO UInt32 := do
  match CommandLine.read Console.flags words with
  | .error status => return status.toUInt32
  | .ok line =>
      let options := Console.Options.ofCommandLine line
      let disk ← diskOf (sessionPaths options)
      match Console.Session.prepare disk words with
      | .error report => deliver disk report
      | .ok session =>
          let machine :=
            session.machine disk (Console.typed []) (← hostNumber) [← hostNumber]
          match Console.start session.options (some (← timestamp)) machine with
          | .error failure after => deliver disk (session.conclude (.error failure after))
          | .ok _ after => converse session disk after 0

/-- Lists a story file. -/
def inspect (words : List String) : IO UInt32 := do
  match CommandLine.read Inspector.flags words with
  | .error status => return status.toUInt32
  | .ok command =>
      let disk ← diskOf [command.operand]
      deliver disk (Inspector.inspect disk words)

end Program

end StoryMachine

def main (args : List String) : IO UInt32 :=
  match args with
  | "inspect" :: words => StoryMachine.Program.inspect words
  | "play" :: words => StoryMachine.Program.play words
  | words => StoryMachine.Program.play words
