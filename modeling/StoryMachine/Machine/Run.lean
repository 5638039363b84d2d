import StoryMachine.Machine.Perform

/-!
# Running

A step of a running machine executes one instruction; a step of a waiting one
first looks for input. Faults are dealt with by the policy; a breach ends the
step and leaves the program counter on the instruction.
-/

namespace StoryMachine

namespace Machine

/-- The instruction at an address, as memory stands now. -/
def instructionAt (machine : Machine) (address : Int) : Result Instruction :=
  let image := machine.image
  Instruction.read machine.story.codec (some image) image address image.version

/-- The instructions from an address on. -/
def instructionsFrom (machine : Machine) : Nat → Int → Result (List Instruction)
  | 0, _ => .ok []
  | count + 1, address => do
      let instruction ← machine.instructionAt address
      let rest ← machine.instructionsFrom count instruction.nextAddress
      return instruction :: rest

/-- The value of an operand in the sense that the opcode gives it. -/
def operandValue (sense : Sense) (operand : Operand) : Play Int := do
  let value ←
    if operand.kind = .variable then onWork (Workspace.getVariable operand.value)
    else pure operand.value
  return match sense with
    | .signed => Word.signed value
    | .unsigned => value

/-- The values of operands, in order, from an index on. -/
def operandValuesFrom (opcode : Opcode) : Nat → List Operand → Play (List Int)
  | _, [] => pure []
  | index, operand :: rest => do
      let value ← operandValue (opcode.sense index) operand
      let values ← operandValuesFrom opcode (index + 1) rest
      return value :: values

/-- The values of an instruction's operands. -/
def operandValues (instruction : Instruction) : Play (List Int) := do
  let opcode := instruction.opcode
  if instruction.operands.length < opcode.least then
    Action.fault (.tooFewOperands opcode.name opcode.least instruction.operands.length)
  operandValuesFrom opcode 0 instruction.operands

/-- Executes a decoded instruction. -/
def executeInstruction (instruction : Instruction) : Play Unit := do
  let values ← operandValues instruction
  let next ← perform instruction values
  settle instruction next

/-- Executes the instruction at the program counter. -/
def execute : Play Unit := do
  let machine ← get
  match machine.instructionAt machine.pc with
  | .error (.fault fault) => handleFault fault none
  | .error (.breach breach) => Action.refuse breach
  | .ok instruction =>
      if machine.log.keeps .debug then
        note .debug "zmachine.interpreter"
          s!"{Numeral.hexWidth 5 machine.pc} {instruction.describe}"
      modify fun machine => { machine with lastInstruction := some instruction }
      (executeInstruction instruction).onFault fun fault => handleFault fault (some instruction)

/-- The first of the sounds with routines that is over. Without a device all of them are. -/
def soundOver? (machine : Machine) : Option (Int × Int) :=
  machine.soundRoutines.find? fun (token, _) => machine.sound.all (·.isFinished token)

/-- Calls the routine of the first sound that is over. -/
def pollSounds : Play Unit := do
  let machine ← get
  match machine.soundOver? with
  | none => pure ()
  | some (token, routine) =>
      let others := machine.soundRoutines.erase (token, routine)
      modify fun machine => { machine with soundRoutines := others }
      note .debug "zmachine.interpreter"
        s!"Sound {token} finished, calling 0x{Numeral.hex routine}"
      (callRoutine (machine.story.version.unpackRoutine routine) machine.pc none []).onFault
        fun fault => handleFault fault none

/-- Finishes a request, or notes that its time ran out and calls its routine. -/
def answerRequest (request : InputRequest) (entry : Entry) (terminator : Int) (timedOut : Bool) :
    Play Unit := do
  if timedOut then
    changeRequest request.token fun request => { request with typed := some entry }
    if request.routine ≠ 0 then
      modify fun machine => { machine with phase := .running }
      let address := (← get).story.version.unpackRoutine request.routine
      let returnTo := (request.instruction.map Instruction.address).getD 0
      callRoutine address returnTo none [] (some request.token)
  else
    match request.kind with
    | .line => finishLine request entry terminator
    | .key => finishKey request (some entry)

/-- Answers the pending request. Any other request is stale. A fault ends the read. -/
def completeInput (token : Option Nat) (entry : Entry := .text []) (terminator : Int := 13)
    (timedOut : Bool := false) : Play Unit := do
  let machine ← get
  match token.bind machine.request? with
  | none => Action.refuse (.staleRequest "None")
  | some request =>
      if machine.pending = some request.token then
        (answerRequest request entry terminator timedOut).onFault fun fault => do
          modify fun machine => { machine with pending := none, phase := .running }
          handleFault fault request.instruction
      else Action.refuse (.staleRequest request.describe)

/-- Looks for input that a waiting machine can go on with. -/
def acceptInput : Play Unit := do
  let entry ←
    match (← get).phase with
    | .waitingForLine => readLine
    | .waitingForKey => readKey
    | _ => pure none
  match entry with
  | none => pure ()
  | some text => completeInput (← get).pending (.text text)

/-- One step: a waiting machine looks for input, and a running one executes an instruction. -/
def step : Play Unit := do
  requireStory .notInitialized
  acceptInput
  if (← get).phase = .running then
    pollSounds
    execute

/-- Steps until the machine halts or waits, at most a number of times. -/
def run : Nat → Play Unit
  | 0 => pure ()
  | steps + 1 => do
      if (← get).phase = .running then
        step
        run steps

end Machine

end StoryMachine
