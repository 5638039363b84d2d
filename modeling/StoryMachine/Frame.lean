import StoryMachine.Memory.Game
import StoryMachine.Version

/-!
# Routine frames

A frame holds what a running routine owns: its local variables, its evaluation
stack, and where its result goes. The stack is listed from the top.
-/

namespace StoryMachine

/-- The most local variables that a routine can have. -/
def maxLocals : Nat := 15

/-- A call of a routine in progress. -/
structure Frame where
  returnTo : Int := 0
  /-- The variable that takes the result; none if the result is dropped. -/
  storeTo : Option Int := none
  locals : List Int := []
  argumentCount : Int := 0
  routineStart : Int := 0
  codeStart : Int := 0
  /-- The token of the input request on whose behalf the routine runs. -/
  interrupt : Option Nat := none
  stack : List Int := []
deriving DecidableEq, Repr, Inhabited

namespace Frame

/-- The initial values of locals that stand in a routine header. -/
def initialValues (image : Image) (address : Int) : Nat → Result (List Int)
  | 0 => .ok []
  | count + 1 => do
      let value ← image.word address
      let rest ← initialValues image (address + 2) count
      return (value : Int) :: rest

/-- The frame of a call of the routine at an address. Arguments replace the first locals, and
arguments beyond the locals are dropped. -/
def ofRoutine (image : Image) (version : Version) (routineStart returnTo : Int)
    (storeTo : Option Int) (arguments : List Int) (interrupt : Option Nat := none) :
    Result Frame := do
  let count ← image.byte routineStart
  if maxLocals < count then .fault (.tooManyLocals count routineStart)
  let initial ←
    if version.routineInitialValues then initialValues image (routineStart + 1) count
    else pure (List.replicate count 0)
  let given := (arguments.take count).map fun value => (Word.ofInt value : Int)
  return {
    returnTo, storeTo, routineStart, interrupt
    locals := given ++ initial.drop given.length
    argumentCount := given.length
    codeStart := routineStart + 1 + if version.routineInitialValues then 2 * (count : Int) else 0 }

/-- Whether two frames agree in all that a saved game keeps. -/
def agrees (left right : Frame) : Bool :=
  left.returnTo = right.returnTo && left.storeTo = right.storeTo && left.locals = right.locals &&
    left.argumentCount = right.argumentCount && left.stack = right.stack

/-- The value of a local variable; locals are numbered from one. -/
def getLocal (frame : Frame) (number : Int) : Result Int :=
  match if 1 ≤ number then frame.locals[(number - 1).toNat]? else none with
  | some value => .ok value
  | none => .fault (.noSuchLocal number frame.locals.length)

/-- Sets a local variable. -/
def setLocal (frame : Frame) (number value : Int) : Result Frame :=
  if 1 ≤ number ∧ number ≤ frame.locals.length then
    .ok { frame with locals := frame.locals.set (number - 1).toNat (Word.ofInt value) }
  else .fault (.noSuchLocal number frame.locals.length)

/-- The top of the stack. -/
def top (frame : Frame) : Result Int :=
  match frame.stack with
  | [] => .fault .peekEmpty
  | value :: _ => .ok value

/-- Puts a value on the stack. -/
def push (frame : Frame) (value : Int) : Frame :=
  { frame with stack := (Word.ofInt value : Int) :: frame.stack }

/-- Replaces the top of the stack. -/
def setTop (frame : Frame) (value : Int) : Result Frame :=
  match frame.stack with
  | [] => .fault .replaceEmpty
  | _ :: rest => .ok { frame with stack := (Word.ofInt value : Int) :: rest }

/-- Takes the top off the stack. -/
def pop (frame : Frame) : Result (Int × Frame) :=
  match frame.stack with
  | [] => .fault .popEmpty
  | value :: rest => .ok (value, { frame with stack := rest })

/-- Numbers in brackets. -/
def numberList (values : List Int) : String :=
  "[" ++ ", ".intercalate (values.map toString) ++ "]"

/-- The written form of a frame. -/
def describe (frame : Frame) : String :=
  let store := (frame.storeTo.map toString).getD "None"
  s!"Routine(return_to=0x{Numeral.hex frame.returnTo},store_to={store}," ++
    s!"locals={numberList frame.locals},stack={numberList frame.stack.reverse})"

end Frame

end StoryMachine
