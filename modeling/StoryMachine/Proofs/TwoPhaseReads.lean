import StoryMachine.Proofs.WaitingPlaces

/-!
# Reads in two phases

A read that is executed enters a new request and has the machine wait for it. Beside
the values that the operands take off the stack, the game is left as it was: the
answer finishes the instruction as if the game had stood still.
-/

namespace StoryMachine

open StoryMachine.Action (Keeps EndsIn)

/-- How many values an operand takes off the stack. -/
def Operand.popCount (operand : Operand) : Nat :=
  if operand.kind = .variable ∧ operand.value = 0 then 1 else 0

/-- How many values the operands of an instruction take off the stack. -/
def Instruction.popCount (instruction : Instruction) : Nat :=
  (instruction.operands.map Operand.popCount).sum

/-- The operation that reads input of a kind. -/
def InputKind.operation : InputKind → Operation
  | line => .readLine
  | key => .readChar

namespace Workspace

variable {workspace after : Workspace}

private theorem getVariable_eq_ok {number value : Int}
    (given : getVariable number false workspace = .ok value after) :
    after = workspace.dropTop (if number = 0 then 1 else 0) := by
  unfold getVariable at given
  obtain ⟨u, checked, valid, read⟩ := Action.bind_eq_ok given
  obtain ⟨-, rfl⟩ := Action.lift_eq_ok valid
  clear given
  by_cases top : number = 0
  · rw [if_pos top, if_neg Bool.false_ne_true] at read
    rw [if_pos top]
    rw [pop_eq] at read
    split at read
    · cases read
    · cases read
      rfl
  rw [if_neg top] at read
  rw [if_neg top, dropTop_zero]
  split at read
  · exact (Action.lift_eq_ok (read : (liftM (checked.calls.current.getLocal number) :
      Action Workspace Int) checked = _)).2
  · have reads : Keeps (· = checked) (getGlobal (number - firstGlobal)) := keeps_getGlobal _
    exact (reads.of_ok rfl read).1

end Workspace

namespace Machine

variable {machine after : Machine} {instruction : Instruction} {request : InputRequest}
  {token : Nat}

/-! ## Operands -/

/-- The machine without the top values of the current stack. -/
def dropTop (machine : Machine) (count : Nat) : Machine :=
  { machine with work := machine.work.dropTop count }

private theorem onWork_eq_ok {α : Type} {action : Action Workspace α} {a : α}
    (outcome : onWork action machine = .ok a after) :
    ∃ work, action machine.work = .ok a work ∧ after = { machine with work } := by
  cases ran : action machine.work with
  | ok b work =>
      rw [onWork_of_ok ran] at outcome
      cases outcome
      exact ⟨work, rfl, rfl⟩
  | error failure work =>
      rw [onWork_of_error ran] at outcome
      cases outcome

/-- Reading an operand takes from the stack what the operand counts, and nothing else. -/
theorem operandValue_eq_ok {sense : Sense} {operand : Operand} {value : Int}
    (given : operandValue sense operand machine = .ok value after) :
    after = machine.dropTop operand.popCount := by
  unfold operandValue at given
  unfold Operand.popCount
  dsimp only at given
  split at given
  · rename_i kind
    obtain ⟨word, read, got, done⟩ := Action.bind_eq_ok given
    cases done
    obtain ⟨work, fetched, rfl⟩ := onWork_eq_ok got
    rw [Workspace.getVariable_eq_ok fetched]
    simp only [kind, true_and]
    rfl
  · rename_i kind
    cases given
    rw [if_neg (not_and_of_not_left _ kind)]
    rfl

private theorem operandValuesFrom_eq_ok {opcode : Opcode} {operands : List Operand} {index : Nat}
    {values : List Int}
    (given : operandValuesFrom opcode index operands machine = .ok values after) :
    after = machine.dropTop (operands.map Operand.popCount).sum := by
  induction operands generalizing machine index values with
  | nil =>
      cases given
      rfl
  | cons operand rest ih =>
      obtain ⟨value, first, head, tail⟩ := Action.bind_eq_ok given
      obtain ⟨others, last, tail, done⟩ := Action.bind_eq_ok tail
      cases done
      rw [ih tail, operandValue_eq_ok head, List.map_cons, List.sum_cons]
      unfold dropTop
      rw [Workspace.dropTop_dropTop]

/-- Reading the operands of an instruction takes values off the stack and nothing else. -/
theorem operandValues_eq_ok {values : List Int}
    (given : operandValues instruction machine = .ok values after) :
    after = machine.dropTop instruction.popCount := by
  unfold operandValues at given
  dsimp only at given
  split at given
  · cases given
  · exact operandValuesFrom_eq_ok given

/-! ## Requests -/

/-- The machine has entered a request, and otherwise changed only what it shows. -/
structure Enters (machine : Machine) (request : InputRequest) (after : Machine) : Prop where
  token : request.token = machine.requests.size + 1
  core : after.core = { machine.core with requests := machine.requests.push request }

private theorem enters_newRequest {request : Nat → InputRequest}
    (named : ∀ token, (request token).token = token)
    (entered : newRequest request machine = .ok token after) :
    machine.Enters (request token) after := by
  cases entered
  exact ⟨named _, rfl⟩

private theorem Enters.of_core {before : Machine} (enters : machine.Enters request after)
    (same : machine.core = before.core) : before.Enters request after := by
  have requests : machine.requests = before.requests := congrArg Core.requests same
  refine ⟨requests ▸ enters.token, ?_⟩
  rw [enters.core, same, requests]

private theorem Enters.request? (enters : machine.Enters request after) :
    after.request? request.token = some request := by
  have requests : after.requests = machine.requests.push request :=
    congrArg Core.requests enters.core
  unfold Machine.request?
  rw [requests, enters.token, if_neg (Nat.succ_ne_zero _), Nat.add_sub_cancel]
  exact Array.getElem?_push_size

/-- A read that waits for a request of an instruction, in a machine that has just entered it. -/
theorem suspend_eq_ok (found : machine.request? token = some request)
    (suspended : suspend token machine = .ok () after) :
    after.core =
      { machine.core with
        pending := some token
        pc := (request.instruction.map Instruction.address).getD machine.pc
        phase := request.kind.waiting } := by
  unfold suspend at suspended
  rw [Action.get_bind, found] at suspended
  dsimp only at suspended
  rw [Action.modify_bind] at suspended
  have flushed := ((keeps_flush (survivesAside_core _)).of_ok rfl suspended).1
  rw [flushed]
  cases request.kind <;> rfl

private theorem beginKey_eq_ok {time routine : Int}
    (begun : beginKey instruction time routine machine = .ok token after) :
    ∃ request, request.token = token ∧ request.kind = .key ∧
      request.instruction = some instruction ∧ machine.Enters request after := by
  have enters := enters_newRequest (fun _ => rfl) begun
  exact ⟨_, rfl, rfl, rfl, enters⟩

private theorem ask_eq_ok {α : Type} {question : Image → Result α} {a : α}
    (answered : ask question machine = .ok a after) : after = machine := by
  have kept : Keeps (· = machine) (ask question) := keeps_ask question
  exact (kept.of_ok rfl answered).1

private theorem beginLine_eq_ok {textBuffer parseBuffer time routine : Int}
    (begun : beginLine instruction textBuffer parseBuffer time routine machine = .ok token after) :
    ∃ request, request.token = token ∧ request.kind = .line ∧
      request.instruction = some instruction ∧ machine.Enters request after := by
  unfold beginLine at begun
  rw [Action.get_bind] at begun
  obtain ⟨shown, showed, begun⟩ := Action.check_eq_ok begun
  have same : shown.core = machine.core := by
    rcases showed with rfl | showed
    · rfl
    · exact ((keeps_showStatus (survivesAside_core _)).of_ok rfl showed).1
  obtain ⟨size, asked, sized, later⟩ := Action.bind_eq_ok begun
  obtain rfl := ask_eq_ok sized
  rw [Action.get_bind] at later
  dsimp only at later
  -- What is left once it is known what counts as typed.
  have ends {initial : Text} {maxLength : Int} (entered : (do
        let terminators ← asked.image.terminators
        newRequest fun token =>
          { kind := .line, token, instruction := some instruction, textBuffer, parseBuffer, time
            routine, maxLength, initial := .text initial, terminators } : Play Nat) asked =
          .ok token after) :
      ∃ request, request.token = token ∧ request.kind = .line ∧
        request.instruction = some instruction ∧ machine.Enters request after := by
    obtain ⟨terminators, listed, read, pushed⟩ := Action.bind_eq_ok entered
    obtain ⟨-, rfl⟩ := Action.lift_eq_ok read
    have enters := enters_newRequest (fun _ => rfl) pushed
    exact ⟨_, rfl, rfl, rfl, enters.of_core same⟩
  split at later
  · exact ends later
  · obtain ⟨codes, typed, read, later'⟩ := Action.bind_eq_ok later
    obtain ⟨-, rfl⟩ := Action.lift_eq_ok read
    exact ends later'

/-! ## Reads -/

/-- The operation of a read enters a request of the instruction. -/
theorem perform_eq_ok_of_reads {kind : InputKind} {values : List Int} {next : Next}
    (reads : instruction.opcode.operation = kind.operation)
    (performed : perform instruction values machine = .ok next after) :
    ∃ request, next = .read request.token ∧ request.kind = kind ∧
      request.instruction = some instruction ∧ machine.Enters request after := by
  unfold perform at performed
  rw [Action.get_bind] at performed
  cases kind with
  | line =>
      simp only [reads, InputKind.operation] at performed
      obtain ⟨token, entered, begun, done⟩ := Action.bind_eq_ok performed
      cases done
      obtain ⟨request, rfl, line, asked, enters⟩ := beginLine_eq_ok begun
      exact ⟨request, rfl, line, asked, enters⟩
  | key =>
      simp only [reads, InputKind.operation] at performed
      obtain ⟨token, entered, begun, done⟩ := Action.bind_eq_ok performed
      cases done
      obtain ⟨request, rfl, key, asked, enters⟩ := beginKey_eq_ok begun
      exact ⟨request, rfl, key, asked, enters⟩

/-- A read that is executed waits for a new request, and takes its operands off the stack. -/
theorem executeInstruction_eq_ok_of_reads {kind : InputKind}
    (reads : instruction.opcode.operation = kind.operation)
    (executed : executeInstruction instruction machine = .ok () after) :
    ∃ request, request.kind = kind ∧ request.instruction = some instruction ∧
      request.token = machine.requests.size + 1 ∧ after.WaitsFor request ∧
      after.pc = instruction.address ∧ after.work = machine.work.dropTop instruction.popCount := by
  obtain ⟨values, read, given, rest⟩ := Action.bind_eq_ok executed
  obtain ⟨next, entered, performed, settled⟩ := Action.bind_eq_ok rest
  obtain rfl := operandValues_eq_ok given
  obtain ⟨request, rfl, same, asked, enters⟩ := perform_eq_ok_of_reads reads performed
  have core := suspend_eq_ok enters.request? settled
  rw [asked] at core
  have work : entered.work = (machine.dropTop instruction.popCount).work :=
    congrArg Core.work enters.core
  exact ⟨request, same, asked, enters.token, .of_suspend enters.request? asked core,
    congrArg Core.pc core, (congrArg Core.work core).trans work⟩

/-- A routine that returns zero has the machine wait again for the request that it interrupted. -/
theorem interruptReturned_zero (found : machine.request? token = some request)
    (named : request.token = token) (asked : request.instruction = some instruction)
    (returned : interruptReturned token 0 machine = .ok () after) :
    ∃ again, again.token = token ∧ again.kind = request.kind ∧
      again.instruction = request.instruction ∧ after.WaitsFor again ∧
      after.work = machine.work := by
  unfold interruptReturned at returned
  rw [Action.get_bind, found] at returned
  dsimp only at returned
  rw [Action.modify_bind, if_neg (not_not.mpr rfl)] at returned
  have pending : request? { machine with pending := some token } token = some request := found
  obtain ⟨again, token', kind, instruction', found'⟩ :=
    @request?_retype _ _ _ pending token
      (fun request => { request with initial := request.typed.getD request.initial }) fun _ => rfl
  have named' : again.token = token := token'.trans named
  have core := suspend_eq_ok found' returned
  rw [instruction', asked] at core
  rw [← named'] at found' core
  exact ⟨again, named', kind, instruction', .of_suspend found' (instruction'.trans asked) core,
    congrArg Core.work core⟩

private theorem phase_of_reset {fresh started : Machine} (accepted : reset fresh = .ok () started) :
    started.phase = .running := by
  obtain ⟨story, memory, -, rfl⟩ := reset_eq_ok accepted
  unfold opened
  exact congrArg Core.phase (core_begun _)

/-- A read that is executed in a run has the machine wait for a new request of its kind, with the
program counter where it was and the game as it was, but for the values that the operands take off
the stack. Whenever the machine waits, it waits for a request of that kind on the instruction that
entered it, also when it waits again because the routine of the request returned zero. -/
theorem reads_wait_in_place {fresh started : Machine} (unused : fresh.requests = #[])
    (accepted : reset fresh = .ok () started) (events : List Event) :
    (∀ kind instruction machine after, Executes (started.after events) instruction machine →
      instruction.opcode.operation = InputKind.operation kind →
      executeInstruction instruction machine = .ok () after →
      step (started.after events) = .ok () after ∧ instruction.address = machine.pc ∧
        after.pc = machine.pc ∧ after.phase = kind.waiting ∧
        (∃ request, request.kind = kind ∧ request.instruction = some instruction ∧
          request.token = machine.requests.size + 1 ∧ after.WaitsFor request) ∧
        after.work.memory = machine.work.memory ∧
        after.work.calls = { machine.work.calls with
          current.stack := machine.work.calls.current.stack.drop instruction.popCount }) ∧
    ((started.after events).phase.isWaiting = true →
      ∃ request, (started.after events).WaitsFor request) ∧
    ∀ instruction machine ready frame calls token request after,
      Executes (started.after events) instruction machine →
      ComesToReturn instruction machine ready 0 → ready.work.calls.pop = .ok (frame, calls) →
      frame.interrupt = some token → ready.request? token = some request →
      executeInstruction instruction machine = .ok () after →
      ∃ again, again.token = token ∧ again.kind = request.kind ∧
        again.instruction = request.instruction ∧ after.WaitsFor again ∧
        after.work = { ready.work with calls } := by
  obtain ⟨story, memory, loaded, attentive⟩ := attentive_of_reset unused accepted
  have closed := closed_attentive loaded
  have idle : Idle story started :=
    ⟨attentive, congrArg Phase.isWaiting (phase_of_reset accepted)⟩
  refine ⟨?_, (parked_after loaded idle.parked events).placed, ?_⟩
  · intro kind instruction machine after executes reads executed
    obtain ⟨request, same, asked, named, waits, pc, work⟩ :=
      executeInstruction_eq_ok_of_reads reads executed
    have address : instruction.address = machine.pc :=
      (Instruction.read_eq_ok executes.instructionAt).1
    have stepped : step (started.after events) = .ok () after := by
      rw [step_of_executes executes]
      exact Action.onFault_of_ok executed
    refine ⟨stepped, address, pc.trans address, same ▸ waits.phase,
      ⟨request, same, asked, named, waits⟩, ?_, congrArg Workspace.calls work⟩
    rw [work]
    rfl
  · intro instruction machine ready frame calls token request after executes returns popped
      interrupts found executed
    have within := Instruction.within_of_read executes.instructionAt
    have held := closed.executes trivial (closed.after attentive events) executes
    have follows := follows_ready loaded held (within.fits fun _ _ => trivial) within.operands
      (Instruction.opcode_mem_all_of_read executes.instructionAt) returns token
    obtain ⟨entering, asked, -⟩ := follows.attentive.ledger.found found
    have named := follows.attentive.token_of_request? found
    have returned : returnFromRoutine 0 ready = .ok () after :=
      (executeInstruction_of_comesToReturn returns).symm.trans executed
    have left := leave_eq ready
    rw [popped] at left
    unfold returnFromRoutine at returned
    rw [Action.bind_of_ok left, interrupts] at returned
    have kept : request? { ready with work.calls := calls } token = some request := found
    exact interruptReturned_zero kept named asked returned

/-- The sample story in version four: it puts a time on the stack and reads a key with it; the
routine of the read returns zero. -/
def drowsyStory : Array UInt8 :=
  ((sampleStory.toList.take 80).set 0 4 ++
    [0xe8, 0x7f, 1, 0xf6, 0x67, 1, 0, 23, 0x10, 0xb0, 0, 0, 0, 0xb1, 0, 0]).toArray

/-- The sample machine with that story, started. -/
def drowsy : Machine :=
  reset.finalState { sample with file.data := drowsyStory }

/-- The instruction that reads the key. -/
def drowsyRead : Instruction where
  address := 83
  form := .variable
  opcode :=
    { group := .variable, number := 22, name := "read_char", operation := .readChar, stores := true,
      senses := [.unsigned, .unsigned, .unsigned], least := 1, firstVersion := 4 }
  operands := [{ kind := .small, value := 1 }, { kind := .variable, value := 0 },
    { kind := .small, value := 23 }]
  storeTo := some 16
  resultAddress := 88
  nextAddress := 89

/-- The instruction of the routine that returns zero. -/
def drowsyReturn : Instruction where
  address := 93
  form := .short
  opcode :=
    { group := .zeroOperands, number := 1, name := "rfalse", operation := .returnFalse }
  operands := []
  resultAddress := 94
  nextAddress := 94

/-- The machine on the point of reading the key, and on the point of returning to the read. -/
def drowsyReading : Machine :=
  (drowsy.after [.step]).poised.taking drowsyRead

def drowsyReturning : Machine :=
  (drowsy.after [.step, .step, .answer (some 1) (.text []) 13 true]).poised.taking drowsyReturn

private theorem reset_drowsy : reset { sample with file.data := drowsyStory } = .ok () drowsy :=
  Action.eq_ok_finalState (by decide +kernel)

private theorem executes_drowsyRead : Executes (drowsy.after [.step]) drowsyRead drowsyReading :=
  executes_poised (by decide +kernel) (by decide +kernel) (by decide +kernel) (by decide +kernel)

private theorem executes_drowsyReturn :
    Executes (drowsy.after [.step, .step, .answer (some 1) (.text []) 13 true]) drowsyReturn
      drowsyReturning :=
  executes_poised (by decide +kernel) (by decide +kernel) (by decide +kernel) (by decide +kernel)

private theorem comesToReturn_drowsy (machine : Machine) : ComesToReturn drowsyReturn machine machine 0 :=
  ⟨[], machine, .return 0, machine, rfl, rfl, .inl ⟨rfl, rfl⟩⟩

/-- The machine waits for the key, and waits for it again after its routine has returned zero. -/
theorem reads_wait_in_place_drowsy :
    drowsyReading.work.calls.current.stack = [1] ∧
      (∃ after, step (drowsy.after [.step]) = .ok () after ∧ after.pc = 83 ∧
        after.phase = .waitingForKey ∧ after.work.calls.current.stack = []) ∧
      (∃ again, (drowsy.after [.step, .step, .answer (some 1) (.text []) 13 true, .step]).WaitsFor
        again) ∧
      ∃ again after, again.token = 1 ∧ step (drowsy.after
        [.step, .step, .answer (some 1) (.text []) 13 true]) = .ok () after ∧
        after.WaitsFor again := by
  have first := reads_wait_in_place rfl reset_drowsy [.step]
  have whole := reads_wait_in_place rfl reset_drowsy
    [.step, .step, .answer (some 1) (.text []) 13 true, .step]
  have returning := reads_wait_in_place rfl reset_drowsy
    [.step, .step, .answer (some 1) (.text []) 13 true]
  have executed : executeInstruction drowsyRead drowsyReading = .ok () _ :=
    Action.eq_ok_finalState (by decide +kernel)
  have returned : executeInstruction drowsyReturn drowsyReturning = .ok () _ :=
    Action.eq_ok_finalState (by decide +kernel)
  have stack : drowsyReading.work.calls.current.stack = [1] := by decide +kernel
  refine ⟨stack, ?_, whole.2.1 (by decide +kernel), ?_⟩
  · obtain ⟨stepped, address, pc, phase, -, -, calls⟩ :=
      first.1 .key _ _ _ executes_drowsyRead rfl executed
    refine ⟨_, stepped, pc.trans address.symm, phase, ?_⟩
    rw [calls]
    dsimp only
    rw [stack]
    rfl
  · have popped : drowsyReturning.work.calls.pop = .ok
        ({ returnTo := 83, routineStart := 92, codeStart := 93, interrupt := some 1 }, {}) := by
      decide +kernel
    have found : drowsyReturning.request? 1 = some
        { kind := .key, token := 1, instruction := some drowsyRead, time := 1, routine := 23
          typed := some (.text []) } := by
      decide +kernel
    obtain ⟨again, token, -, -, waits, -⟩ := returning.2.2 _ _ _ _ _ _ _ _ executes_drowsyReturn
      (comesToReturn_drowsy _) popped rfl found returned
    refine ⟨again, _, token, ?_, waits⟩
    rw [step_of_executes executes_drowsyReturn]
    exact Action.onFault_of_ok returned

end Machine

end StoryMachine
