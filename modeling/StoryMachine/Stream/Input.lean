import StoryMachine.Text.CodePoint

/-!
# Input streams

A machine reads from its keyboard or from a list of commands. When the commands
run out, it goes back to the keyboard.
-/

namespace StoryMachine

/-- How commands are shown as they are read. -/
inductive Echo where
  | silent
  | inline
  | lines
deriving DecidableEq, Repr

/-- The lines that wait at the keyboard. A missing line is input that is not there yet. -/
structure Keyboard where
  lines : List (Option Text) := []
  /-- Whether a key is the first character of a line. -/
  keysFromLines : Bool := false
  /-- Whether the end of the lines is the end of all input. -/
  ends : Bool := false
  exhausted : Bool := false
deriving DecidableEq, Repr, Inhabited

/-- The commands that are left. -/
structure Commands where
  lines : List Text := []
  echo : Echo := .silent
  exhausted : Bool := false
deriving DecidableEq, Repr

/-- Where a machine reads from. -/
structure Input where
  keyboard : Keyboard := {}
  commands : Option Commands := none
  fromCommands : Bool := false
deriving DecidableEq, Repr, Inhabited

namespace Keyboard

/-- The first character of a line as a key; an empty line is a line end. -/
def keyOf (line : Text) : Text :=
  if line.isEmpty then [0x0a] else line.take 1

/-- Takes the next line. -/
def next (keyboard : Keyboard) : Option Text × Keyboard :=
  match keyboard.lines with
  | [] => (none, { keyboard with exhausted := keyboard.exhausted || keyboard.ends })
  | line :: lines => (line, { keyboard with lines })

/-- Takes the next key. -/
def nextKey (keyboard : Keyboard) : Option Text × Keyboard :=
  let (line, keyboard) := keyboard.next
  (if keyboard.keysFromLines then line.map keyOf else line, keyboard)

end Keyboard

namespace Input

/-- Selects the commands, if there are any, or the keyboard. -/
def select (input : Input) (stream : Int) : Input :=
  { input with fromCommands := stream = 1 && input.commands.isSome }

end Input

end StoryMachine
