import StoryMachine.Proofs.Operations

/-!
# Runs

A run is a sequence of events: steps of the machine, answers to its requests, and
changes of what lies outside of it. Every event is made of moves, so an invariant
that survives every move holds after every run.
-/

namespace StoryMachine

open StoryMachine.Action (Ensures Keeps EndsIn)

private theorem Word.signed_le (value : Int) : Word.signed value ≤ 0x7fff := by
  have bound := Word.ofInt_lt value
  unfold Word.signed
  split <;> omega

/-- A jump is read as a signed number. -/
theorem Opcode.sense_jump :
    ∀ opcode ∈ Opcode.all, opcode.operation = .jump → opcode.sense 0 = .signed := by
  decide

/-- The addresses of an instruction in an image can be reached if all that are near the image
can. -/
theorem Instruction.Within.fits {reach : Int → Prop} {instruction : Instruction} {image : Image}
    (within : instruction.Within image)
    (near : ∀ address : Int, address ≤ image.size + 0x7fff → reach address) :
    instruction.Fits reach := by
  obtain ⟨start, result, next, stop, operands, target, branch⟩ := within
  refine ⟨near _ (by omega), near _ (by omega), ?_, ?_, target⟩
  · intro offset bound
    exact near _ (by omega)
  · intro found branches
    have bound := (branch found branches).2
    omega

/-- The values are those of the operands of a known instruction, of which there are enough. -/
structure Instruction.Given (instruction : Instruction) (values : List Int) : Prop where
  listed : instruction.opcode ∈ Opcode.all
  enough : instruction.opcode.least ≤ instruction.operands.length
  length : values.length = instruction.operands.length
  signed : instruction.opcode.operation = .jump → values.getD 0 0 ≤ 0x7fff

namespace Machine

variable {least : Nat} {reach : Int → Prop} {allowed : MoveKind → Prop} {I : Machine → Prop}
  {instruction : Instruction}

/-! ## Executing instructions -/

/-- Reading an operand is made of moves, and a signed one is not above the largest signed word. -/
theorem ensures_operandValue (survives : SurvivesFrom least reach allowed I) (sense : Sense)
    (operand : Operand) :
    Ensures I (fun value => sense = .signed → value ≤ 0x7fff) (operandValue sense operand) := by
  unfold operandValue
  dsimp only
  split
  · refine .seq (survives.onWork fun changes => Workspace.keeps_getVariable changes _ _) ?_
    intro value
    refine .pure ?_
    rintro rfl
    exact Word.signed_le value
  · refine .pure ?_
    rintro rfl
    exact Word.signed_le operand.value

private theorem ensures_operandValuesFrom (survives : SurvivesFrom least reach allowed I) (opcode : Opcode)
    (operands : List Operand) : ∀ index : Nat, Ensures I
      (fun values => values.length = operands.length ∧
        (opcode.sense index = .signed → values.getD 0 0 ≤ 0x7fff))
      (operandValuesFrom opcode index operands) := by
  induction operands with
  | nil =>
      intro index
      refine .pure ⟨rfl, ?_⟩
      intro _
      decide
  | cons operand rest ih =>
      intro index
      refine .bind (ensures_operandValue survives _ operand) fun value first => ?_
      refine .bind (ih (index + 1)) fun values others => .pure ⟨?_, first⟩
      exact congrArg (· + 1) others.1

/-- There are enough operands, each has its value, and a jump is a signed word away. -/
theorem ensures_given (survives : SurvivesFrom least reach allowed I)
    (listed : instruction.opcode ∈ Opcode.all) :
    Ensures I instruction.Given (operandValues instruction) := by
  unfold operandValues
  dsimp only
  refine .excluded fun enough => ?_
  refine (ensures_operandValuesFrom survives _ _ 0).weaken fun values read => ?_
  refine ⟨listed, not_lt.mp enough, read.1, ?_⟩
  intro jumps
  exact read.2 (Opcode.sense_jump _ listed jumps)

/-- Reading the operands is made of moves, and there are at most eight. -/
theorem ensures_operandValues (survives : SurvivesFrom least reach allowed I)
    (few : instruction.operands.length ≤ 8) (listed : instruction.opcode ∈ Opcode.all) : Ensures I
      (fun values => values.length ≤ 8 ∧
        (instruction.opcode.operation = .jump → values.getD 0 0 ≤ 0x7fff))
      (operandValues instruction) :=
  (ensures_given survives listed).weaken fun _ given => ⟨given.length.trans_le few, given.signed⟩

/-- An instruction keeps what survives every move. -/
theorem keeps_executeInstruction (closed : Closed reach I) (fits : instruction.Fits reach)
    (few : instruction.operands.length ≤ 8) (listed : instruction.opcode ∈ Opcode.all) :
    Keeps I (executeInstruction instruction) := by
  refine .bind (ensures_operandValues closed few listed) fun values read => ?_
  refine .bind (ensures_perform closed fits read.1 read.2 fun _ _ => trivial) fun next asked => ?_
  exact keeps_settle closed fits asked fun _ _ => trivial

/-! ## Answers and sounds -/

/-- Dealing with a fault outside any instruction is made of moves. -/
theorem keeps_handleOutside (survives : SurvivesFrom least reach allowed I) (fault : Fault) :
    Keeps I (handleFault fault none) := by
  refine keeps_handleFault survives fault ?_
  intro found none_eq
  cases none_eq

/-- Looking for sounds that are over is made of moves, one of which may be a call. -/
theorem keeps_pollSounds (survives : SurvivesFrom least reach allowed I) (calls : allowed .call) :
    Keeps I pollSounds := by
  intro machine holds
  refine EndsIn.get ?_
  split
  · exact .of_ok rfl holds trivial
  · refine EndsIn.modify (EndsIn.modify ?_)
    refine EndsIn.onFault ?_ (keeps_handleOutside survives)
    refine endsIn_callRoutine survives calls ?_ (.inr rfl) ?_ (Nat.zero_le 7)
    · exact survives.survivesAside _ _ holds ⟨rfl, rfl⟩
    · intro target none_eq
      cases none_eq

/-- Answering a read is made of moves, one of which may be a call if its time has run out. -/
theorem keeps_answerRequest (survives : SurvivesFrom least reach allowed I) {request : InputRequest}
    (fits : request.Fits reach) (entry : Entry) (terminator : Int) (timedOut : Bool)
    (calls : timedOut = true → request.routine ≠ 0 → allowed .call)
    (buffer : least = 0 ∨ 0 ≤ request.textBuffer := by exact .inl rfl) :
    Keeps I (answerRequest request entry terminator timedOut) := by
  unfold answerRequest
  split
  · rename_i late
    refine .seq (keeps_changeRequest survives _ fun _ => rfl) fun _ => ?_
    split
    · rename_i called
      refine .seq (.modify fun _ holds => survives.inner holds .interrupt) fun _ => ?_
      intro machine holds
      refine EndsIn.get (endsIn_callRoutine survives (calls late called) holds (.inl ?_) ?_
        (Nat.zero_le 7))
      · obtain ⟨instruction, asked, fits⟩ := fits
        rw [asked]
        exact fits.address
      · intro target none_eq
        cases none_eq
    · exact .pure trivial
  · split
    · exact keeps_finishLine survives fits entry terminator buffer
    · exact keeps_finishKey survives fits _

/-- A read that failed is given up. -/
theorem keeps_abandon (survives : SurvivesFrom least reach allowed I) {request : InputRequest}
    (fits : request.Fits reach) (fault : Fault) : Keeps I (do
      modify fun machine => { machine with pending := none, phase := .running }
      handleFault fault request.instruction : Play Unit) := by
  refine .seq (.modify fun _ holds => survives.inner holds .abandon) fun _ => ?_
  exact keeps_handleFault survives fault fits.instruction

/-- An answer to a read is made of moves, one of which may be a call if its time has run out. -/
theorem keeps_completeInput (survives : SurvivesFrom least reach allowed I) (token : Option Nat)
    (entry : Entry) (terminator : Int) (timedOut : Bool) (calls : timedOut = true → allowed .call) :
    Keeps I (completeInput token entry terminator timedOut) := by
  unfold completeInput
  refine .get fun machine holds => ?_
  split
  · exact .refuse _
  · rename_i request found
    obtain ⟨number, -, found⟩ := Option.bind_eq_some_iff.mp found
    have fits := survives.ledger holds found
    split
    · refine .onFault (keeps_answerRequest survives fits entry terminator timedOut ?_ ?_)
        (keeps_abandon survives fits)
      · exact fun late _ => calls late
      · exact survives.buffers holds found
    · exact .refuse _

/-- What has been typed for the read that the machine waits for. -/
def typed : Play (Option Text) := do
  match (← get).phase with
  | .waitingForLine => readLine
  | .waitingForKey => readKey
  | _ => return none

/-- Answers the pending request with what has been typed, if there is anything. -/
def answerTyped (entry : Option Text) : Play Unit := do
  match entry with
  | none => pure ()
  | some text => completeInput (← get).pending (.text text)

/-- To look for input is to read what is typed and to answer the read with it. -/
theorem acceptInput_eq : acceptInput = typed >>= answerTyped := by
  funext machine
  obtain ⟨phase, same⟩ : ∃ phase, machine.phase = phase := ⟨_, rfl⟩
  simp only [acceptInput, typed, bind, EStateM.bind, Action.get_eq, same]
  cases phase with
  | waitingForLine => rfl
  | waitingForKey => rfl
  | running => rfl
  | halted => rfl

/-- Reading what is typed is beside the game. -/
theorem keeps_typed (survives : SurvivesAside I) : Keeps I typed := by
  unfold typed
  refine .get fun machine _ => ?_
  split
  · exact keeps_readInput survives _ _
  · exact keeps_readInput survives _ _
  · exact .pure trivial

/-- Only a machine that waits is typed for. -/
theorem isWaiting_of_typed {machine after : Machine} {text : Text}
    (given : typed machine = .ok (some text) after) : machine.phase.isWaiting = true := by
  unfold typed at given
  rw [Action.get_bind] at given
  cases phase : machine.phase with
  | waitingForLine => rfl
  | waitingForKey => rfl
  | running =>
      rw [phase] at given
      cases given
  | halted =>
      rw [phase] at given
      cases given

/-- Looking for input is made of moves. -/
theorem keeps_acceptInput (survives : SurvivesFrom least reach allowed I) :
    Keeps I acceptInput := by
  rw [acceptInput_eq]
  refine .seq (keeps_typed survives.survivesAside) fun entry => ?_
  cases entry with
  | none => exact .pure trivial
  | some text => exact .get fun machine _ => keeps_completeInput survives _ _ _ _ nofun

/-- The check that there is a story keeps every invariant. -/
theorem keeps_requireStory (breach : Breach) : Keeps I (requireStory breach) := by
  unfold requireStory
  refine .get fun machine _ => ?_
  split
  · exact .refuse _
  · exact .pure trivial

/-! ## Steps -/

/-- The machine with an instruction in hand. -/
def taking (machine : Machine) (instruction : Instruction) : Machine :=
  { machine with
    lastInstruction := some instruction
    log :=
      if machine.log.keeps .debug then
        machine.log.add .debug "zmachine.interpreter"
          s!"{Numeral.hexWidth 5 machine.pc} {instruction.describe}"
      else machine.log }

/-- A step from one machine executes an instruction in another: input has been looked for, a sound
that is over has called its routine, and the instruction at the program counter has been decoded. -/
def Executes (before : Machine) (instruction : Instruction) (machine : Machine) : Prop :=
  ∃ awake polled,
    (do requireStory .notInitialized; acceptInput : Play Unit) before = .ok () awake ∧
      awake.phase = .running ∧ pollSounds awake = .ok () polled ∧
      polled.instructionAt polled.pc = .ok instruction ∧ machine = polled.taking instruction

/-- The instruction that a machine executes stands at its program counter. -/
theorem Executes.instructionAt {before machine : Machine}
    (executes : Executes before instruction machine) :
    machine.instructionAt machine.pc = .ok instruction := by
  obtain ⟨awake, polled, -, -, -, decoded, rfl⟩ := executes
  exact decoded

/-- To execute is to take in hand what is decoded, and to handle its fault. -/
theorem execute_eq {machine : Machine}
    (decoded : machine.instructionAt machine.pc = .ok instruction) : execute machine =
      (executeInstruction instruction).onFault (fun fault => handleFault fault (some instruction))
        (machine.taking instruction) := by
  unfold execute
  simp only [bind, EStateM.bind, Action.get_eq, decoded]
  unfold taking
  split <;> rfl

/-- A step of a machine that has looked for input. -/
def continues : Play Unit := do
  if (← get).phase = .running then
    pollSounds
    execute

/-- A step looks for input and then continues. -/
theorem step_eq :
    step = (do requireStory .notInitialized; acceptInput : Play Unit) >>= fun _ => continues := by
  funext machine
  unfold step continues
  cases required : requireStory .notInitialized machine with
  | error failure after => simp only [bind, EStateM.bind, required]
  | ok u after => simp only [bind, EStateM.bind, required]

private theorem SurvivesFrom.endsIn_execute (survives : SurvivesFrom least reach allowed I)
    {machine : Machine} (holds : I machine)
    (executed : ∀ instruction, machine.instructionAt machine.pc = .ok instruction →
      EndsIn I (fun _ => True) (executeInstruction instruction) (machine.taking instruction)) :
    EndsIn I (fun _ => True) execute machine := by
  cases decoded : machine.instructionAt machine.pc with
  | error failure =>
      refine EndsIn.get ?_
      rw [decoded]
      cases failure with
      | fault fault => exact keeps_handleOutside survives fault machine holds
      | breach breach => exact .of_error rfl holds
  | ok instruction =>
      have point := executed instruction decoded
      refine .of_eq (execute_eq decoded) (point.onFault fun fault => ?_)
      refine keeps_handleFault survives fault ?_
      rintro found ⟨⟩
      exact (Instruction.within_of_read decoded).fits fun _ => survives.near holds

/-- An invariant that survives the instruction that a step executes survives the step. -/
theorem SurvivesFrom.endsIn_step (survives : SurvivesFrom least reach allowed I)
    (calls : allowed .call) {machine : Machine} (holds : I machine)
    (executed : ∀ instruction point, Executes machine instruction point → I point →
      EndsIn I (fun _ => True) (executeInstruction instruction) point) :
    EndsIn I (fun _ => True) step machine := by
  refine .of_eq (congrFun step_eq machine) ?_
  have listens : Keeps I (do requireStory .notInitialized; acceptInput : Play Unit) :=
    .seq (keeps_requireStory _) fun _ => keeps_acceptInput survives
  cases listened : (do requireStory .notInitialized; acceptInput : Play Unit) machine with
  | error failure awake =>
      have kept := listens.finalState holds
      rw [Action.finalState_of_error listened] at kept
      exact .afterError listened kept
  | ok u awake =>
      have woken := (listens.of_ok holds listened).1
      refine .after listened (EndsIn.get ?_)
      by_cases running : awake.phase = .running
      · rw [if_pos running]
        have polls := keeps_pollSounds survives calls awake woken
        cases sounded : pollSounds awake with
        | error failure polled =>
            have kept := polls.finalState
            rw [Action.finalState_of_error sounded] at kept
            exact .afterError sounded kept
        | ok u polled =>
            have quiet := polls.finalState
            rw [Action.finalState_of_ok sounded] at quiet
            refine .after sounded (survives.endsIn_execute quiet fun instruction decoded => ?_)
            exact executed instruction _ ⟨awake, polled, listened, running, sounded, decoded, rfl⟩
              (survives.survivesAside _ _ quiet ⟨rfl, rfl⟩)
      · rw [if_neg running]
        exact .of_ok rfl woken trivial

private theorem keeps_step (closed : Closed reach I) : Keeps I step := by
  intro machine holds
  refine closed.endsIn_step trivial holds fun instruction point executes held => ?_
  have within := Instruction.within_of_read executes.instructionAt
  have listed := Instruction.opcode_mem_all_of_read executes.instructionAt
  have fits : instruction.Fits reach := within.fits fun _ => closed.near held
  exact keeps_executeInstruction closed fits within.operands listed point held

/-! ## Events -/

/-- What can happen to a machine. -/
inductive Event where
  /-- The machine makes a step. -/
  | step
  /-- A request is answered, or its time runs out. -/
  | answer (token : Option Nat) (entry : Entry) (terminator : Int) (timedOut : Bool)
  /-- The game is ended from outside. -/
  | quit
  /-- What lies outside of the machine changes: saved games, files, what the player types, sounds
  and the screen. -/
  | outside (storage : Storage) (disk : Disk) (input : Input) (sound : Option SoundDevice)
      (screen : Screen)

/-- The machine after an event, whether or not the event failed. -/
def Event.apply (machine : Machine) : Event → Machine
  | .step => Machine.step.finalState machine
  | .answer token entry terminator timedOut =>
      (completeInput token entry terminator timedOut).finalState machine
  | .quit => Machine.quit.finalState machine
  | .outside storage disk input sound screen =>
      { machine with storage, disk, input, sound, screen }

/-- The machine after a run. -/
def after (machine : Machine) (events : List Event) : Machine :=
  events.foldl Event.apply machine

@[simp] theorem after_nil (machine : Machine) : machine.after [] = machine :=
  rfl

/-- An invariant that survives every move holds after an event. -/
theorem Closed.event (closed : Closed reach I) {machine : Machine} (holds : I machine)
    (event : Event) : I (event.apply machine) := by
  cases event with
  | step => exact (keeps_step closed).finalState holds
  | answer token entry terminator timedOut =>
      have answers := keeps_completeInput closed token entry terminator timedOut fun _ => trivial
      exact answers.finalState holds
  | quit => exact (keeps_quit closed).finalState holds
  | outside storage disk input sound screen => exact closed.survivesAside _ _ holds ⟨rfl, rfl⟩

/-- An invariant that survives every move holds after every run. -/
theorem Closed.after (closed : Closed reach I) {machine : Machine} (holds : I machine)
    (events : List Event) : I (machine.after events) := by
  induction events generalizing machine with
  | nil => exact holds
  | cons event rest ih => exact ih (closed.event holds event)

/-! ## Points of a run -/

/-- The machine that has looked for input and for sounds. -/
def poised (machine : Machine) : Machine :=
  pollSounds.finalState
    ((do requireStory .notInitialized; acceptInput : Play Unit).finalState machine)

/-- A machine that goes on running once it has looked for input and sounds executes what it decodes
then. -/
theorem executes_poised {machine : Machine}
    (listens : (do requireStory .notInitialized; acceptInput : Play Unit).answer machine = .ok ())
    (running : ((do requireStory .notInitialized; acceptInput :
      Play Unit).finalState machine).phase = .running)
    (polls : pollSounds.answer ((do requireStory .notInitialized; acceptInput :
      Play Unit).finalState machine) = .ok ())
    (decoded : machine.poised.instructionAt machine.poised.pc = .ok instruction) :
    Executes machine instruction (machine.poised.taking instruction) :=
  ⟨_, _, Action.eq_ok_finalState listens, running, Action.eq_ok_finalState polls, decoded, rfl⟩

/-- The instruction that a machine executes stands where it is once it has looked for input and
sounds. -/
theorem Executes.instructionAt_poised {before machine : Machine}
    (executes : Executes before instruction machine) :
    before.poised.instructionAt before.poised.pc = .ok instruction := by
  obtain ⟨awake, polled, listened, -, sounded, decoded, -⟩ := executes
  have polls : before.poised = polled := by
    unfold poised
    rw [Action.finalState_of_ok listened, Action.finalState_of_ok sounded]
  rw [polls, decoded]

/-- A machine that a run comes through: between two events, or on the point of executing an
instruction. -/
inductive Passes (start : Machine) : Machine → Prop where
  | between (events : List Event) : Passes start (start.after events)
  | executing {events : List Event} {instruction : Instruction} {machine : Machine}
      (executes : Executes (start.after events) instruction machine) : Passes start machine

/-- A step executes the instruction, and handles its fault. -/
theorem step_of_executes {before machine : Machine}
    (executes : Executes before instruction machine) : step before =
      (executeInstruction instruction).onFault (fun fault => handleFault fault (some instruction))
        machine := by
  obtain ⟨awake, polled, listened, running, sounded, decoded, rfl⟩ := executes
  obtain ⟨u, started, required, accepted⟩ := Action.bind_eq_ok listened
  have polls : (do pollSounds; execute : Play Unit) awake = execute polled :=
    Action.bind_of_ok sounded
  rw [← execute_eq decoded, ← polls]
  unfold step
  rw [Action.bind_of_ok required, Action.bind_of_ok accepted, Action.get_bind, if_pos running]

/-- What happens in a step before its instruction is executed only enters calls. -/
theorem SurvivesFrom.executes (survives : SurvivesFrom least reach allowed I)
    (calls : allowed .call)
    {before machine : Machine} (holds : I before) (executes : Executes before instruction machine) :
    I machine := by
  obtain ⟨awake, polled, listened, -, sounded, -, rfl⟩ := executes
  have listen : Keeps I (do requireStory .notInitialized; acceptInput : Play Unit) :=
    .seq (keeps_requireStory _) fun _ => keeps_acceptInput survives
  have woken := listen.of_ok holds listened
  have quiet := (keeps_pollSounds survives calls).of_ok woken.1 sounded
  exact survives.survivesAside _ _ quiet.1 ⟨rfl, rfl⟩

/-- An invariant that survives every move holds at every point of a run. -/
theorem Closed.passes (closed : Closed reach I) {start machine : Machine} (holds : I start)
    (passes : Passes start machine) : I machine := by
  cases passes with
  | between events => exact closed.after holds events
  | executing executes => exact closed.executes trivial (closed.after holds _) executes

/-! ## Starts -/

/-- The machine after a start that loaded the story into fresh memory. -/
@[irreducible] def opened (machine : Machine) (story : Story) (memory : GameMemory) : Machine :=
  { machine with
    ready := true
    story
    work := { machine.work with memory }
    undo := []
    soundRoutines := []
    classifier := machine.classifier.reset
    random := machine.random.enterRandom
    screen := machine.screen.reset
    log := machine.log.add .info "zmachine.interpreter"
      s!"Loaded version {memory.version} story, release {memory.releaseNumber}" }.begun

/-- A start loads the story, or fails as the loading does. -/
theorem reset_eq (machine : Machine) :
    reset machine =
      match Story.load machine.file.data with
      | .ok (story, memory) => .ok () (machine.opened story memory)
      | .error failure => .error failure machine := by
  unfold reset loadStory opened begun
  simp only [bind, EStateM.bind, Action.get_eq]
  cases Story.load machine.file.data <;> rfl

/-- A start that succeeds opens the story that it loads. -/
theorem reset_eq_ok {fresh started : Machine} (accepted : reset fresh = .ok () started) :
    ∃ story memory, Story.load fresh.file.data = .ok (story, memory) ∧
      started = fresh.opened story memory := by
  rw [reset_eq] at accepted
  cases loaded : Story.load fresh.file.data with
  | error failure =>
      rw [loaded] at accepted
      cases accepted
  | ok pair =>
      rw [loaded] at accepted
      cases accepted
      exact ⟨pair.1, pair.2, rfl, rfl⟩

end Machine

end StoryMachine
