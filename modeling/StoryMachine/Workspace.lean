import StoryMachine.Frame

/-!
# Calls and variables

The frames of the calls in progress, the innermost first, together with the
memory that holds the global variables. Variable 0 is the top of the current
stack, 1 to 15 are the locals of the current routine, and 16 to 255 are globals.
The outermost frame is never left.
-/

namespace StoryMachine

/-- Calls nested deeper than this are taken for runaway recursion. -/
def maxCallDepth : Nat := 1024

/-- The number of the first global variable. -/
def firstGlobal : Int := 0x10

/-- The frames of the calls in progress; there is always a current one. -/
structure CallStack where
  current : Frame := {}
  callers : List Frame := []
deriving DecidableEq, Repr, Inhabited

namespace CallStack

/-- The number of frames. -/
def depth (calls : CallStack) : Nat :=
  calls.callers.length + 1

/-- The frames from the outermost to the current one. -/
def frames (calls : CallStack) : List Frame :=
  calls.callers.reverse ++ [calls.current]

/-- The calls with the given frames, outermost first, if there are any. -/
def ofFrames? (frames : List Frame) : Option CallStack :=
  match frames.reverse with
  | [] => none
  | current :: callers => some { current, callers }

/-- Enters a routine. -/
def push (calls : CallStack) (frame : Frame) : Result CallStack :=
  if maxCallDepth ≤ calls.depth then .fault (.callOverflow calls.depth)
  else .ok { current := frame, callers := calls.current :: calls.callers }

/-- Leaves the current routine. -/
def pop (calls : CallStack) : Result (Frame × CallStack) :=
  match calls.callers with
  | [] => .fault .returnFromMain
  | caller :: callers => .ok (calls.current, { current := caller, callers })

/-- Leaves calls until the given number of frames is left. -/
def unwind (calls : CallStack) (depth : Int) : Result CallStack :=
  if 1 ≤ depth ∧ depth ≤ calls.depth then
    match (calls.current :: calls.callers).drop (calls.depth - depth.toNat) with
    | current :: callers => .ok { current, callers }
    | [] => .ok calls
  else .fault (.throwOutside depth calls.depth)

end CallStack

/-- Memory, the calls in progress and where the globals lie. -/
structure Workspace where
  memory : GameMemory
  calls : CallStack := {}
  globals : Int := 0
deriving DecidableEq, Repr, Inhabited

namespace Workspace

/-- An action on the memory of a workspace. -/
def onMemory {α : Type} (action : GameMemory.Edit α) : Action Workspace α :=
  action.focus Workspace.memory fun memory workspace => { workspace with memory }

/-- Changes the current frame. -/
def setCurrent (frame : Frame) : Action Workspace Unit :=
  modify fun workspace => { workspace with calls.current := frame }

/-- The current frame. -/
def current : Action Workspace Frame := do
  return (← get).calls.current

/-- Puts a value on the current stack. -/
def push (value : Int) : Action Workspace Unit := do
  setCurrent ((← current).push value)

/-- Takes a value off the current stack. -/
def pop : Action Workspace Int := do
  let (value, frame) ← (← current).pop
  setCurrent frame
  return value

/-- Enters a routine. -/
def enter (frame : Frame) : Action Workspace Unit := do
  let calls ← (← get).calls.push frame
  modify fun workspace => { workspace with calls }

/-- Leaves the current routine. -/
def leave : Action Workspace Frame := do
  let (frame, calls) ← (← get).calls.pop
  modify fun workspace => { workspace with calls }
  return frame

/-- Leaves calls until the given number of frames is left. -/
def unwind (depth : Int) : Action Workspace Unit := do
  let calls ← (← get).calls.unwind depth
  modify fun workspace => { workspace with calls }

/-- The address of a global, numbered from zero. -/
def globalAddress (workspace : Workspace) (index : Int) : Int :=
  workspace.globals + index * 2

/-- The value of a global, numbered from zero. -/
def getGlobal (index : Int) : Action Workspace Int := do
  let workspace ← get
  let value ← workspace.memory.word (workspace.globalAddress index)
  return value

/-- Sets a global, numbered from zero. -/
def setGlobal (index value : Int) : Action Workspace Unit := do
  let workspace ← get
  onMemory (GameMemory.writeWord (workspace.globalAddress index) value)

/-- Checks the number of a variable. -/
def checkVariable (number : Int) : Result Unit :=
  if number < 0 ∨ 255 < number then .fault (.variableOutOfRange number) else .ok ()

/-- Reads a variable. Reading the stack takes its top off, except through a reference, which reads
the top in place. -/
def getVariable (number : Int) (indirect : Bool := false) : Action Workspace Int := do
  checkVariable number
  if number = 0 then
    if indirect then (← current).top else pop
  else if number < firstGlobal then (← current).getLocal number
  else getGlobal (number - firstGlobal)

/-- Writes a variable. Writing the stack puts a value on it, except through a reference, which
replaces the top. -/
def setVariable (number value : Int) (indirect : Bool := false) : Action Workspace Unit := do
  checkVariable number
  if number = 0 then
    if indirect then setCurrent (← (← current).setTop value) else push value
  else if number < firstGlobal then setCurrent (← (← current).setLocal number value)
  else setGlobal (number - firstGlobal) value

end Workspace

end StoryMachine
