import StoryMachine.Proofs.CallFrames

/-!
# Calls and their returns

A call fixes where its result goes and where the machine goes on. Whatever
happens in between, a return from it, by whichever instruction, finds the frames
of the moment of the call, stores the result there and goes on after the call.
-/

namespace StoryMachine

open StoryMachine.Action (Ensures Keeps EndsIn)

namespace Workspace

@[simp] theorem depth_stored (workspace : Workspace) (storeTo : Option Int) (value : Int) :
    (workspace.stored storeTo value).calls.depth = workspace.calls.depth := by
  unfold stored assigned
  split
  · rfl
  split
  · rfl
  split <;> rfl

end Workspace

/-- A call that drops its result has no place for one. -/
theorem Opcode.stores_callDropping :
    ∀ opcode ∈ Opcode.all, opcode.operation = .callDropping → opcode.stores = false := by
  decide

private theorem Instruction.storeTo_callDropping {codec : Codec} {tables : Option Image} {image : Image}
    {address version : Int} {instruction : Instruction}
    (decoded : read codec tables image address version = .ok instruction)
    (drops : instruction.opcode.operation = .callDropping) : instruction.storeTo = none := by
  have listed := opcode_mem_all_of_read decoded
  obtain ⟨-, head, operandsEnd, branchAddress, parts⟩ := read_eq_ok decoded
  rcases readTargetIf_eq_ok parts.target with ⟨-, none, -⟩ | ⟨stores, -⟩
  · exact none
  · rw [Opcode.stores_callDropping _ listed drops] at stores
    cases stores

namespace Machine

variable {reach : Int → Prop} {I : Machine → Prop} {machine caller entered ready final : Machine}
  {instruction call : Instruction} {value : Int}

/-! ## Calls -/

/-- An instruction calls a routine: from the machine that executes it, through the machine at the
moment of the call, to the machine in the routine. -/
def Calls (call : Instruction) (machine caller entered : Machine) : Prop :=
  ∃ values read address storeTo arguments, operandValues call machine = .ok values read ∧
    perform call values read = .ok (.call address storeTo arguments) caller ∧
    callRoutine address call.nextAddress storeTo arguments none caller = .ok () entered

private theorem executeInstruction_of_calls (calls : Calls call machine caller entered) :
    executeInstruction call machine = .ok () entered := by
  obtain ⟨values, read, address, storeTo, arguments, given, asked, called⟩ := calls
  unfold executeInstruction
  rw [Action.bind_of_ok given, Action.bind_of_ok asked]
  exact called

private theorem callRoutine_eq_ok {address returnTo : Int} {storeTo : Option Int} {arguments : List Int}
    {interrupt : Option Nat}
    (called : callRoutine address returnTo storeTo arguments interrupt machine = .ok () entered) :
    ∃ frame, Frame.ofRoutine machine.image machine.story.version address returnTo storeTo arguments
        interrupt = .ok frame ∧
      machine.work.calls.push frame = .ok entered.work.calls := by
  rw [callRoutine_eq] at called
  cases opened : Frame.ofRoutine machine.image machine.story.version address returnTo storeTo
      arguments interrupt with
  | error failure =>
      rw [opened] at called
      cases called
  | ok frame =>
      rw [opened] at called
      dsimp only at called
      cases entry : machine.work.calls.push frame with
      | error failure =>
          rw [entry] at called
          cases called
      | ok calls =>
          rw [entry] at called
          cases called
          exact ⟨frame, rfl, entry⟩

/-- The frame of a call rests on the frames of the moment of the call, and remembers where the
result goes and where the machine goes on. -/
theorem rests_of_calls (closed : Closed reach I) (holds : I machine)
    (decoded : machine.instructionAt machine.pc = .ok call)
    (calls : Calls call machine caller entered) :
    I entered ∧ ∃ link, entered.work.calls.Rests caller.work.calls.innermostFirst link ∧
      link.returnTo = call.nextAddress ∧ link.storeTo = call.storeTo ∧ link.interrupt = none ∧
      entered.work.calls.depth = caller.work.calls.depth + 1 := by
  have within := Instruction.within_of_read decoded
  have listed := Instruction.opcode_mem_all_of_read decoded
  have fits : call.Fits reach := within.fits fun _ => closed.near holds
  have runs := keeps_executeInstruction closed fits within.operands listed
  refine ⟨(runs.of_ok holds (executeInstruction_of_calls calls)).1, ?_⟩
  obtain ⟨values, read, address, storeTo, arguments, given, asked, called⟩ := calls
  have operands := (ensures_operandValues closed within.operands listed).of_ok holds given
  have performs := ensures_perform closed fits operands.2.1 operands.2.2 fun _ _ => trivial
  have target : storeTo = call.storeTo := by
    rcases (performs.of_ok operands.1 asked).2.1 with ⟨-, same⟩ | ⟨drops, dropped⟩
    · exact same
    · rw [dropped, Instruction.storeTo_callDropping decoded drops]
  obtain ⟨frame, opened, entry⟩ := callRoutine_eq_ok called
  obtain ⟨returns, stores, interrupts⟩ := Frame.linkage_of_ofRoutine opened
  unfold CallStack.push at entry
  split at entry
  · cases entry
  · rw [← Except.ok.inj entry]
    exact ⟨frame.linkage, ⟨[], frame, rfl, rfl⟩, returns, stores.trans target, interrupts, rfl⟩

/-! ## Returns -/

/-- Going on as an operation asks comes to return a value, in the machine `ready`: the operation
asks for a return, or for a branch that returns. -/
def AsksReturn (instruction : Instruction) (next : Next) (performed ready : Machine)
    (value : Int) : Prop :=
  next = .return value ∧ ready = performed ∨
    ∃ outcome, instruction.ReturnsOn outcome value ∧
      (next = .branch outcome ∧ ready = performed ∨
        ∃ result, next = .storeAndBranch result outcome ∧
          storeResult instruction result performed = .ok () ready)

/-- An instruction comes to return a value from the current routine, in the machine `ready`. -/
def ComesToReturn (instruction : Instruction) (machine ready : Machine) (value : Int) : Prop :=
  ∃ values read next performed, operandValues instruction machine = .ok values read ∧
    perform instruction values read = .ok next performed ∧
    AsksReturn instruction next performed ready value

/-- A branch that returns is a return. -/
theorem followBranch_of_returnsOn {outcome : Bool}
    (returns : instruction.ReturnsOn outcome value) :
    followBranch instruction outcome = returnFromRoutine value := by
  obtain ⟨branch, branches, taken, offset, rfl⟩ := returns
  unfold followBranch takeBranch
  rw [branches]
  dsimp only
  rw [if_pos taken, if_pos offset]

/-- An instruction that comes to return a value returns it. -/
theorem executeInstruction_of_comesToReturn
    (returns : ComesToReturn instruction machine ready value) :
    executeInstruction instruction machine = returnFromRoutine value ready := by
  obtain ⟨values, read, next, performed, given, asked, returns⟩ := returns
  unfold executeInstruction
  rw [Action.bind_of_ok given, Action.bind_of_ok asked]
  rcases returns with ⟨rfl, rfl⟩ | ⟨outcome, branches, ⟨rfl, rfl⟩ | ⟨result, rfl, stored⟩⟩
  · rfl
  · exact congrFun (followBranch_of_returnsOn branches) _
  · exact (Action.bind_of_ok stored).trans (congrFun (followBranch_of_returnsOn branches) _)

/-- Before an instruction returns, it makes the moves that its operation needs. -/
theorem SurvivesFrom.comesToReturn {allowed : MoveKind → Prop} (survives : Survives reach allowed I)
    (holds : I machine) (decoded : machine.instructionAt machine.pc = .ok instruction)
    (may : ∀ kind, instruction.opcode.operation.Needs kind → allowed kind)
    (returns : ComesToReturn instruction machine ready value) : I ready := by
  have within := Instruction.within_of_read decoded
  have listed := Instruction.opcode_mem_all_of_read decoded
  have fits : instruction.Fits reach := within.fits fun _ => survives.near holds
  obtain ⟨values, read, next, performed, given, asked, returns⟩ := returns
  have operands := (ensures_operandValues survives within.operands listed).of_ok holds given
  have performs := ensures_perform survives fits operands.2.1 operands.2.2 may
  have kept := (performs.of_ok operands.1 asked).1
  rcases returns with ⟨-, rfl⟩ | ⟨outcome, -, ⟨-, rfl⟩ | ⟨result, -, stored⟩⟩
  · exact kept
  · exact kept
  · exact ((keeps_storeResult survives fits result).of_ok kept stored).1

/-- A routine that an instruction comes to return from still rests on the frames that it rested on
before. -/
theorem rests_ready (closed : Closed reach I) (holds : I machine)
    (decoded : machine.instructionAt machine.pc = .ok instruction)
    (stays : instruction.opcode.operation.replaces = false) {base : List Frame} {link : Frame}
    (rests : machine.work.calls.Rests base link)
    (returns : ComesToReturn instruction machine ready value)
    (deep : base.length < ready.work.calls.depth) :
    I ready ∧ ready.work.calls.Rests base link := by
  have leaves := survives_unless_left closed base link
  have may (kind : MoveKind) (needs : instruction.opcode.operation.Needs kind) :
      kind = .leave ∨ kind = .wait := .inl (Operation.eq_leave_of_needs stays needs)
  have kept := leaves.comesToReturn ⟨holds, fun _ => rests⟩ decoded may returns
  exact ⟨kept.1, kept.2 deep⟩

/-- A throw unwinds the calls to a frame and returns a value from it. -/
theorem perform_throwTo (throws : instruction.opcode.operation = .throwTo) (values : List Int) :
    perform instruction values machine =
      match machine.work.calls.unwind (values.getD 1 0) with
      | .ok calls => .ok (.return (values.getD 0 0)) { machine with work.calls := calls }
      | .error failure => .error failure machine := by
  unfold perform
  rw [Action.get_bind]
  simp only [throws]
  have run := unwind_eq (values.getD 1 0) machine
  cases unwound : machine.work.calls.unwind (values.getD 1 0) with
  | ok calls =>
      rw [unwound] at run
      rw [Action.bind_of_ok run]
      rfl
  | error failure =>
      rw [unwound] at run
      rw [Action.bind_of_error run]

private theorem perform_returnValue (returns : instruction.opcode.operation = .returnValue)
    (values : List Int) :
    perform instruction values machine = .ok (.return (values.getD 0 0)) machine := by
  unfold perform
  rw [Action.get_bind]
  simp only [returns]
  rfl

private theorem perform_returnTruth
    (returns : instruction.opcode.operation = .returnTrue ∧ value = 1 ∨
      instruction.opcode.operation = .returnFalse ∧ value = 0) (values : List Int) :
    perform instruction values machine = .ok (.return value) machine := by
  unfold perform
  rw [Action.get_bind]
  obtain ⟨returns, rfl⟩ | ⟨returns, rfl⟩ := returns
  · simp only [returns]
    rfl
  · simp only [returns]
    rfl

private theorem perform_returnPopped (returns : instruction.opcode.operation = .returnPopped)
    {rest : List Int} (stack : machine.work.calls.current.stack = value :: rest)
    (values : List Int) :
    perform instruction values machine =
      .ok (.return value) { machine with work := machine.work.dropTop 1 } := by
  have run : onWork Workspace.pop machine =
      .ok value { machine with work := machine.work.dropTop 1 } := by
    refine onWork_of_ok ?_
    rw [Workspace.pop_eq, stack]
  unfold perform
  rw [Action.get_bind]
  simp only [returns]
  exact Action.bind_of_ok run

/-- What is printed before a return comes to return true. -/
theorem next_of_printReturn (returns : instruction.opcode.operation = .printReturn)
    {values : List Int} {next : Next} {printed : Machine}
    (prints : perform instruction values machine = .ok next printed) : next = .return 1 := by
  unfold perform at prints
  rw [Action.get_bind] at prints
  simp only [returns] at prints
  obtain ⟨u, shown, -, prints⟩ := Action.bind_eq_ok prints
  obtain ⟨u, ended, -, prints⟩ := Action.bind_eq_ok prints
  cases prints
  rfl

/-- The ways to return a value from the frame at a depth, with the machine as it is before that
frame is left. A throw says by its second operand which frame returns, from however deep below it;
all others return from the current one. -/
inductive ReturnsFrom (instruction : Instruction) (machine : Machine) : Nat → Machine → Int → Prop
  /-- An operand is returned. -/
  | operand {left : Machine} {value : Int} {rest : List Int}
      (returns : instruction.opcode.operation = .returnValue)
      (given : operandValues instruction machine = .ok (value :: rest) left) :
      ReturnsFrom instruction machine machine.work.calls.depth left value
  /-- The top of the stack is returned. -/
  | popped {left : Machine} {values : List Int} {value : Int} {rest : List Int}
      (returns : instruction.opcode.operation = .returnPopped)
      (given : operandValues instruction machine = .ok values left)
      (stack : left.work.calls.current.stack = value :: rest) :
      ReturnsFrom instruction machine machine.work.calls.depth left value
  /-- A truth value is returned. -/
  | truth {left : Machine} {values : List Int} {value : Int}
      (returns : instruction.opcode.operation = .returnTrue ∧ value = 1 ∨
        instruction.opcode.operation = .returnFalse ∧ value = 0)
      (given : operandValues instruction machine = .ok values left) :
      ReturnsFrom instruction machine machine.work.calls.depth left value
  /-- A text is printed, and true is returned. -/
  | printed {read left : Machine} {values : List Int} {next : Next}
      (returns : instruction.opcode.operation = .printReturn)
      (given : operandValues instruction machine = .ok values read)
      (prints : perform instruction values read = .ok next left) :
      ReturnsFrom instruction machine machine.work.calls.depth left 1
  /-- A branch of an operation that keeps the game in progress returns. -/
  | branched {read performed left : Machine} {values : List Int} {next : Next} {outcome : Bool}
      {value : Int} (stays : instruction.opcode.operation.replaces = false)
      (given : operandValues instruction machine = .ok values read)
      (asked : perform instruction values read = .ok next performed)
      (branches : instruction.ReturnsOn outcome value)
      (follows : next = .branch outcome ∧ left = performed ∨
        ∃ result, next = .storeAndBranch result outcome ∧
          storeResult instruction result performed = .ok () left) :
      ReturnsFrom instruction machine machine.work.calls.depth left value
  /-- A value is thrown to a frame. -/
  | thrown {left : Machine} {value : Int} {depth : Nat} {rest : List Int}
      (throws : instruction.opcode.operation = .throwTo)
      (given : operandValues instruction machine = .ok (value :: (depth : Int) :: rest) left) :
      ReturnsFrom instruction machine depth left value

/-- An operation that neither throws nor replaces the game returns from the current frame. -/
theorem depth_of_comesToReturn (closed : Closed reach I) (holds : I machine)
    (decoded : machine.instructionAt machine.pc = .ok instruction)
    (stays : instruction.opcode.operation.replaces = false)
    (throwless : instruction.opcode.operation ≠ .throwTo)
    (returns : ComesToReturn instruction machine ready value) :
    ready.work.calls.depth = machine.work.calls.depth := by
  have survives := survives_outline closed machine.work.calls
  have may (kind : MoveKind) (needs : instruction.opcode.operation.Needs kind) : kind = .wait :=
    absurd (Operation.eq_throwTo_of_needs stays needs) throwless
  exact CallStack.depth_eq_of_outline
    (survives.comesToReturn ⟨holds, rfl⟩ decoded may returns).2

/-- However an instruction returns from a frame, it comes to return the value with that frame as the
current one. A throw has left the frames above it then. -/
theorem ReturnsFrom.exists_ready {left : Machine} {depth : Nat} (closed : Closed reach I)
    (holds : I machine) (decoded : machine.instructionAt machine.pc = .ok instruction)
    (returns : ReturnsFrom instruction machine depth left value) (least : 1 ≤ depth)
    (most : depth ≤ machine.work.calls.depth) :
    instruction.opcode.operation.replaces = false ∧
      ∃ ready, ComesToReturn instruction machine ready value ∧ ready.work.calls.depth = depth ∧
        ∀ calls, { ready.work with calls } = { left.work with calls } := by
  have current {ready : Machine} (stays : instruction.opcode.operation.replaces = false)
      (throwless : instruction.opcode.operation ≠ .throwTo)
      (comes : ComesToReturn instruction machine ready value) :=
    depth_of_comesToReturn closed holds decoded stays throwless comes
  cases returns with
  | operand returns given =>
      have stays : instruction.opcode.operation.replaces = false := by rw [returns]; rfl
      have comes : ComesToReturn instruction machine left value :=
        ⟨_, left, _, left, given, perform_returnValue returns _, .inl ⟨rfl, rfl⟩⟩
      exact ⟨stays, left, comes, current stays (by simp [returns]) comes, fun _ => rfl⟩
  | popped returns given stack =>
      have stays : instruction.opcode.operation.replaces = false := by rw [returns]; rfl
      have comes : ComesToReturn instruction machine _ value :=
        ⟨_, left, _, _, given, perform_returnPopped returns stack _, .inl ⟨rfl, rfl⟩⟩
      exact ⟨stays, _, comes, current stays (by simp [returns]) comes, fun _ => rfl⟩
  | truth returns given =>
      have stays : instruction.opcode.operation.replaces = false := by
        obtain ⟨returns, -⟩ | ⟨returns, -⟩ := returns <;> rw [returns] <;> rfl
      have throwless : instruction.opcode.operation ≠ .throwTo := by
        obtain ⟨returns, -⟩ | ⟨returns, -⟩ := returns <;> simp [returns]
      have comes : ComesToReturn instruction machine left value :=
        ⟨_, left, _, left, given, perform_returnTruth returns _, .inl ⟨rfl, rfl⟩⟩
      exact ⟨stays, left, comes, current stays throwless comes, fun _ => rfl⟩
  | printed returns given prints =>
      have stays : instruction.opcode.operation.replaces = false := by rw [returns]; rfl
      obtain rfl := next_of_printReturn returns prints
      have comes : ComesToReturn instruction machine left 1 :=
        ⟨_, _, _, left, given, prints, .inl ⟨rfl, rfl⟩⟩
      exact ⟨stays, left, comes, current stays (by simp [returns]) comes, fun _ => rfl⟩
  | branched stays given asked branches follows =>
      have comes : ComesToReturn instruction machine left value :=
        ⟨_, _, _, _, given, asked, .inr ⟨_, branches, follows⟩⟩
      have throwless : instruction.opcode.operation ≠ .throwTo := by
        intro throws
        rw [perform_throwTo throws] at asked
        split at asked
        · cases asked
          rcases follows with ⟨other, -⟩ | ⟨result, other, -⟩ <;> cases other
        · cases asked
      exact ⟨stays, left, comes, current stays throwless comes, fun _ => rfl⟩
  | @thrown left value depth rest throws given =>
      have stays : instruction.opcode.operation.replaces = false := by rw [throws]; rfl
      have within := Instruction.within_of_read decoded
      have listed := Instruction.opcode_mem_all_of_read decoded
      have survives := survives_outline closed machine.work.calls
      have same := ((ensures_operandValues survives within.operands listed).of_ok
        ⟨holds, rfl⟩ given).1.2
      rw [← CallStack.depth_eq_of_outline same] at most
      obtain ⟨calls, unwound, -, exact⟩ := CallStack.exists_unwind least most
      have performs : perform instruction (value :: (depth : Int) :: rest) left = _ :=
        perform_throwTo throws _
      rw [List.getD_cons_succ, List.getD_cons_zero, unwound] at performs
      exact ⟨stays, _, ⟨_, left, _, _, given, performs, .inl ⟨rfl, rfl⟩⟩, exact, fun _ => rfl⟩

/-- A return from a call puts the caller back, with the result in its place. It fails only if the
caller has no place for the result. -/
theorem returnFromRoutine_eq_ok {link : Frame}
    (inside : ready.work.memory.dynamicEnd ≤ ready.work.memory.size)
    (rests : ready.work.calls.Rests caller.work.calls.innermostFirst link)
    (top : ready.work.calls.depth = caller.work.calls.depth + 1) (plain : link.interrupt = none) :
    (Workspace.Takes { ready.work with calls := caller.work.calls } link.storeTo ↔
      ∃ final, returnFromRoutine value ready = .ok () final) ∧
    ∀ final, returnFromRoutine value ready = .ok () final →
      final.work = { ready.work with calls := caller.work.calls }.stored link.storeTo value ∧
        final.pc = link.returnTo := by
  obtain ⟨linked, callers⟩ := rests.current top
  have popped : ready.work.calls.pop = .ok (ready.work.calls.current, caller.work.calls) := by
    unfold CallStack.pop
    rw [callers]
    rfl
  have quiet : ready.work.calls.current.interrupt = none := by
    rw [← plain, ← linked]
    rfl
  rw [← linked]
  by_cases takes : Workspace.Takes { ready.work with calls := caller.work.calls }
      ready.work.calls.current.storeTo
  · have run : returnFromRoutine value ready = _ :=
      returnFromRoutine_of_takes inside popped quiet takes
    rw [run]
    refine ⟨⟨fun _ => ⟨_, rfl⟩, fun _ => takes⟩, ?_⟩
    rintro final ⟨⟩
    exact ⟨rfl, rfl⟩
  · obtain ⟨fault, failed⟩ : ∃ fault, returnFromRoutine value ready = .error (.fault fault) _ :=
      returnFromRoutine_of_not_takes inside popped quiet takes
    rw [failed]
    refine ⟨⟨fun placed => absurd placed takes, ?_⟩, ?_⟩
    · rintro ⟨final, returned⟩
      cases returned
    · rintro final ⟨⟩

/-- Calls are isolated. While more than `depth` frames stay and no other game is put in place, a run
leaves the first `depth` frames as they are. A return from the frame of a call, by whichever
instruction and from however deep, therefore finds the frames of the moment of the call: it stores
the returned value where the call says, and the machine goes on after the call. It is a fault only
where the caller has no place for the value. -/
theorem calls_isolated {fresh start : Machine} (unused : fresh.requests = #[])
    (accepted : reset fresh = .ok () start) (earlier : List Event) :
    (∀ depth events, RunsAbove depth (start.after earlier) events →
      ((start.after earlier).after events).work.calls.frames.take depth =
        (start.after earlier).work.calls.frames.take depth) ∧
    ∀ call executing caller entered, Executes (start.after earlier) call executing →
      Calls call executing caller entered →
      step (start.after earlier) = .ok () entered ∧
      entered.work.calls.depth = caller.work.calls.depth + 1 ∧
      ∀ events instruction returning left value,
        RunsAbove caller.work.calls.depth entered events →
        Executes (entered.after events) instruction returning →
        ReturnsFrom instruction returning (caller.work.calls.depth + 1) left value →
        (Workspace.Takes { left.work with calls := caller.work.calls } call.storeTo ↔
          ∃ final, executeInstruction instruction returning = .ok () final) ∧
        ∀ final, executeInstruction instruction returning = .ok () final →
          step (entered.after events) = .ok () final ∧
            final.work =
              { left.work with calls := caller.work.calls }.stored call.storeTo value ∧
            final.work.calls.depth = caller.work.calls.depth ∧ final.pc = call.nextAddress := by
  have closed := closed_protects fresh.file.data
  have begun : start.core.Protects fresh.file.data ∧ start.core.Ledger fun _ => True :=
    ⟨protects_of_reset accepted, ledger_of_reset accepted unused⟩
  have holds := closed.after begun earlier
  refine ⟨?_, ?_⟩
  · intro depth events run
    obtain ⟨base, link, rfl, rests⟩ := CallStack.exists_rests run.start
    rw [(rests_after closed holds rests run).take, rests.take]
  · intro call executing caller entered executes calls
    have taken := closed.passes begun (.executing executes)
    obtain ⟨kept, link, rests, returnTo, storeTo, plain, deeper⟩ :=
      rests_of_calls closed taken executes.instructionAt calls
    have stepped : step (start.after earlier) = .ok () entered := by
      rw [step_of_executes executes]
      exact Action.onFault_of_ok (executeInstruction_of_calls calls)
    refine ⟨stepped, deeper, ?_⟩
    intro events instruction returning left value run executes' returns
    have below := rests_after closed kept rests run
    have inner := (survives_rests closed _ link).executes rfl ⟨closed.after kept events, below⟩
      executes'
    have shallow : caller.work.calls.depth + 1 ≤ returning.work.calls.depth := inner.2.depth
    obtain ⟨stays, ready, comes, top, same⟩ := returns.exists_ready closed inner.1
      executes'.instructionAt (Nat.le_add_left 1 _) shallow
    have deep : caller.work.calls.innermostFirst.length < ready.work.calls.depth := by
      rw [top, CallStack.length_innermostFirst]
      exact Nat.lt_succ_self _
    obtain ⟨sound, reached⟩ :=
      rests_ready closed inner.1 executes'.instructionAt stays inner.2 comes deep
    have outcomes : (_ ↔ ∃ final, returnFromRoutine value ready = .ok () final) ∧ _ :=
      returnFromRoutine_eq_ok sound.1.memory.dynamicEnd_le_size reached top plain
    obtain ⟨placed, goes⟩ := outcomes
    rw [storeTo, same, ← executeInstruction_of_comesToReturn comes] at placed goes
    refine ⟨placed, fun final outcome => ?_⟩
    obtain ⟨work, pc⟩ := goes final outcome
    refine ⟨?_, work, ?_, pc.trans returnTo⟩
    · rw [step_of_executes executes']
      exact Action.onFault_of_ok outcome
    · rw [work, Workspace.depth_stored]

/-- The sample story in version five: it calls a routine, which calls another, and that one throws a
value to the frame of the first. -/
def throwingStory : Array UInt8 :=
  ((sampleStory.toList.take 80).set 0 5 ++
    [0x98, 21, 0, 0xba, 0, 0x9f, 22, 0xb0, 0, 0x1c, 42, 2] ++ sampleStory.toList.drop 92).toArray

/-- The sample machine with that story, started. -/
def throwing : Machine :=
  reset.finalState { sample with file.data := throwingStory }

/-- The call of the first routine of that story. -/
def throwingCall : Instruction where
  address := 80
  form := .short
  opcode :=
    { group := .oneOperand, number := 8, name := "call_1s", operation := .call, stores := true,
      senses := [.unsigned], firstVersion := 4 }
  operands := [⟨.small, 21⟩]
  storeTo := some 0
  resultAddress := 82
  nextAddress := 83

/-- The throw in its second routine. -/
def throwingThrow : Instruction where
  address := 89
  form := .long
  opcode :=
    { group := .twoOperands, number := 28, name := "throw", operation := .throwTo,
      senses := [.unsigned, .unsigned], firstVersion := 5 }
  operands := [⟨.small, 42⟩, ⟨.small, 2⟩]
  resultAddress := 92
  nextAddress := 92

/-- The machine in the first routine of that story. -/
def calledOnce : Machine :=
  (callRoutine 84 83 (some 0) []).finalState (throwing.poised.taking throwingCall)

/-- The machine in the second one, on the point of throwing. -/
def calledTwice : Machine :=
  (calledOnce.after [.step]).poised.taking throwingThrow

private theorem reset_throwing : reset { sample with file.data := throwingStory } = .ok () throwing :=
  Action.eq_ok_finalState (by decide +kernel)

private theorem calls_throwing :
    Calls throwingCall (throwing.poised.taking throwingCall) (throwing.poised.taking throwingCall)
      calledOnce := by
  have asks (machine : Machine) : perform throwingCall [21] machine =
      .ok (.call (machine.story.version.unpackRoutine 21) (some 0) []) machine := rfl
  have asked := asks (throwing.poised.taking throwingCall)
  have place : (throwing.poised.taking throwingCall).story.version.unpackRoutine 21 = 84 := by
    decide +kernel
  rw [place] at asked
  exact ⟨[21], _, 84, some 0, [], rfl, asked, Action.eq_ok_finalState (by decide +kernel)⟩

private theorem runsAbove_throwing : RunsAbove 1 calledOnce [.step] := by
  have deeper : 1 < (Event.step.apply calledOnce).work.calls.depth := by decide +kernel
  refine ⟨by decide +kernel, ?_, deeper⟩
  rintro ⟨-, instruction, executing, executes, replaces⟩
  have decoded : (calledOnce.poised.instructionAt calledOnce.poised.pc).toOption.map
      (·.opcode.operation.replaces) = some false := by decide +kernel
  rw [executes.instructionAt_poised] at decoded
  cases replaces.symm.trans (Option.some.inj decoded)

/-- The throw leaves both routines, and its value is on the stack of their caller. -/
theorem calls_isolated_throwing :
    calledTwice.work.calls.depth = 3 ∧ ∃ final, step (calledOnce.after [.step]) = .ok () final ∧
      final.pc = 83 ∧ final.work.calls = { current := { stack := [42] } } := by
  have executes : Executes throwing throwingCall (throwing.poised.taking throwingCall) :=
    executes_poised (by decide +kernel) (by decide +kernel) (by decide +kernel) (by decide +kernel)
  have executes' : Executes (calledOnce.after [.step]) throwingThrow calledTwice :=
    executes_poised (by decide +kernel) (by decide +kernel) (by decide +kernel) (by decide +kernel)
  have thrown : executeInstruction throwingThrow calledTwice = .ok () _ :=
    Action.eq_ok_finalState (by decide +kernel)
  have throws : ReturnsFrom throwingThrow calledTwice 2 calledTwice 42 := .thrown rfl rfl
  have isolated := calls_isolated rfl reset_throwing []
  simp only [after_nil] at isolated
  obtain ⟨-, -, linked⟩ := isolated.2 _ _ _ _ executes calls_throwing
  have outer : (throwing.poised.taking throwingCall).work.calls.depth = 1 := by decide +kernel
  rw [outer] at linked
  obtain ⟨-, goes⟩ := linked _ _ _ _ _ runsAbove_throwing executes' throws
  obtain ⟨stepped, work, -, pc⟩ := goes _ thrown
  refine ⟨by decide +kernel, _, stepped, pc, ?_⟩
  rw [work]
  decide +kernel

end Machine

end StoryMachine
