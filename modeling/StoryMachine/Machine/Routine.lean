import StoryMachine.Machine.Read

/-!
# Calling and returning

A call enters the routine at an address; a return leaves it and stores its
result. The return of an interrupt routine goes back to the read that it
interrupted.
-/

namespace StoryMachine

namespace Machine

/-- Calls the routine at an address. -/
def callRoutine (address returnTo : Int) (storeTo : Option Int) (arguments : List Int)
    (interrupt : Option Nat := none) : Play Unit := do
  let version := (← get).story.version
  let frame ← ask fun image =>
    Frame.ofRoutine image version address returnTo storeTo arguments interrupt
  onWork (Workspace.enter frame)
  goTo frame.codeStart

/-- Returns from the current routine. -/
def returnFromRoutine (value : Int) : Play Unit := do
  let frame ← onWork Workspace.leave
  match frame.interrupt with
  | some token => interruptReturned token value
  | none =>
      match frame.storeTo with
      | none => pure ()
      | some target => onWork (Workspace.setVariable target value)
      goTo frame.returnTo

/-- Follows a branch that is taken, from the address after it. -/
def takeBranch (offset next : Int) : Play Unit :=
  if offset = 0 ∨ offset = 1 then returnFromRoutine offset
  else goTo (next + offset - 2)

/-- Halts the machine. -/
def halt : Play Unit := do
  modify fun machine => { machine with phase := .halted }
  flush

/-- Ends the game. -/
def quit : Play Unit := do
  note .info "zmachine.interpreter" "Game quit"
  halt

/-- Reports a fault as its notice demands. -/
def report (notice : Notice) (fault : Fault) (description : String) : Play Unit := do
  let message := s!"{fault.message} [{description}]"
  match notice with
  | .silent => pure ()
  | .failure => note .error "zmachine.errors" message
  | .warning =>
      note .warning "zmachine.errors" message
      modify fun machine =>
        { machine with reports := (fault.message, description) :: machine.reports }

/-- Deals with a fault of an instruction: the machine goes on after the instruction, or halts. A
fault outside any instruction always halts. -/
def handleFault (fault : Fault) (instruction : Option Instruction) : Play Unit := do
  let machine ← get
  let fault := fault.located ((instruction.map Instruction.address).getD machine.pc)
  let name := (instruction.map Instruction.name).getD ""
  let description := (instruction.map Instruction.describe).getD ""
  let (recovery, notice, classifier) := machine.classifier.classify fault name
  modify fun machine => { machine with classifier }
  report notice fault description
  match recovery, instruction with
  | .proceed, some instruction => goTo instruction.nextAddress
  | _, _ =>
      modify fun machine => { machine with fault := some fault }
      halt

end Machine

end StoryMachine
