import StoryMachine.Machine.Output

/-!
# Reading input streams

Lines and keys from the keyboard or from the commands. Commands are shown on the
screen as if they had been typed.
-/

namespace StoryMachine

namespace Machine

/-- Takes a line or a key from the keyboard. -/
def fromKeyboard (next : Keyboard → Option Text × Keyboard) : Play (Option Text) := do
  let (line, keyboard) := next (← get).input.keyboard
  modify fun machine => { machine with input.keyboard := keyboard }
  return line

/-- Shows a command as it is read. -/
def echoCommand (echo : Echo) (command : Text) : Play Unit :=
  match echo with
  | .silent => pure ()
  | .inline => onScreen (·.print command)
  | .lines => onScreen fun screen => (screen.print command).print [0x0a]

/-- Takes the next command. -/
def nextCommand (commands : Commands) : Play (Option Text) := do
  match commands.lines with
  | [] =>
      modify fun machine =>
        { machine with input.commands := some { commands with exhausted := true } }
      return none
  | command :: lines =>
      modify fun machine => { machine with input.commands := some { commands with lines } }
      echoCommand commands.echo command
      return some command

/-- Reads from the stream in use; when the commands have run out, from the keyboard. -/
def readInput (next : Keyboard → Option Text × Keyboard) (ofCommand : Text → Text) :
    Play (Option Text) := do
  let input := (← get).input
  match if input.fromCommands then input.commands else none with
  | none => fromKeyboard next
  | some commands =>
      match ← nextCommand commands with
      | some command => return some (ofCommand command)
      | none =>
          note .info "zmachine.io" "Command file exhausted, switching to keyboard"
          modify fun machine => { machine with input := machine.input.select 0 }
          fromKeyboard next

/-- Reads a line. -/
def readLine : Play (Option Text) :=
  readInput Keyboard.next id

/-- Reads a key. -/
def readKey : Play (Option Text) :=
  readInput Keyboard.nextKey Keyboard.keyOf

/-- Asks the player for a line, on the screen and from the keyboard. -/
def prompt (message : Text) : Play (Option Text) := do
  onScreen (·.print message)
  fromKeyboard Keyboard.next

end Machine

end StoryMachine
