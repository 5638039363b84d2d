import StoryMachine.Proofs.Restoring
import StoryMachine.Proofs.Returns

/-!
# Going on after a fault

A fault that the policy lets pass ends its instruction, and the machine goes on
behind it. It does so in the routine of the instruction, unless the instruction
had already left that routine when it failed: a return leaves the routine before
its result is stored, a throw leaves routines before it returns, and a restored
game is in place before it goes on. The machine then runs the code of one routine
in the frame of another.
-/

namespace StoryMachine

open StoryMachine.Action (Ensures Keeps EndsIn)

private theorem CallStack.eq_of_leftFrom {calls after : CallStack} (left : after.LeftFrom calls)
    (same : after.depth = calls.depth) : after = calls := by
  have listed : after.innermostFirst = calls.innermostFirst := List.IsSuffix.eq_of_length left same
  rw [innermostFirst, innermostFirst, List.cons.injEq] at listed
  cases after
  cases calls
  simpa using listed

/-- Only a throw, a restore and an undo need moves of their own. -/
theorem Operation.eq_of_needs {operation : Operation} {kind : Machine.MoveKind}
    (needs : operation.Needs kind) :
    operation = .throwTo ∨ operation = .restore ∨ operation = .restoreUndo := by
  cases operation with
  | throwTo => exact .inl rfl
  | restore => exact .inr (.inl rfl)
  | restoreUndo => exact .inr (.inr rfl)
  | _ => exact needs.elim

private theorem CallStack.depth_of_pop {calls after : CallStack} {frame : Frame}
    (popped : calls.pop = .ok (frame, after)) : after.depth < calls.depth := by
  unfold pop at popped
  split at popped
  · cases popped
  · rename_i callers
    cases popped
    unfold depth
    rw [callers]
    exact Nat.lt_succ_self _

namespace Classifier

/-- A recoverable fault halts only a machine that aborts at every fault. -/
theorem proceeds_of_recoverable {classifier : Classifier} {fault : Fault}
    (recoverable : fault.recoverable = true) (goesOn : classifier.policy ≠ .abort)
    (opcode : String) : (classifier.classify fault opcode).1 = .proceed := by
  unfold classify
  simp only [recoverable, Bool.not_true, Bool.false_eq_true, ↓reduceIte]
  cases policy : classifier.policy with
  | abort => exact absurd policy goesOn
  | continueWarnOnce =>
      dsimp only
      split <;> rfl
  | _ => rfl

end Classifier

namespace Machine

variable {reach : Int → Prop} {I : Machine → Prop} {machine after failed : Machine}
  {instruction : Instruction} {data : Array UInt8} {value : Int} {failure : Failure}

/-! ## Failures of single steps -/

/-- A call that fails changes nothing. -/
theorem callRoutine_eq_error {address returnTo : Int} {storeTo : Option Int} {arguments : List Int}
    {interrupt : Option Nat}
    (broke : callRoutine address returnTo storeTo arguments interrupt machine =
      .error failure failed) : failed = machine := by
  rw [callRoutine_eq] at broke
  split at broke
  · split at broke
    · cases broke
    · cases broke
      rfl
  · cases broke
    rfl

private theorem restart_eq_error (broke : restart machine = .error failure failed) :
    failed.work = machine.work := by
  have run := restart_eq machine
  rw [broke] at run
  cases loaded : Story.load machine.file.data with
  | ok pair => simp [loaded] at run
  | error reason =>
      simp only [loaded, EStateM.Result.error.injEq] at run
      rw [run.2]

/-- A return that fails has left the routine, unless there is none to return to. -/
theorem returnFromRoutine_eq_error (closed : Closed reach I) (holds : I machine)
    (inside : machine.work.memory.dynamicEnd ≤ machine.work.memory.size)
    (broke : returnFromRoutine value machine = .error failure failed) :
    machine.work.calls.callers = [] ∧ failed = machine ∨
      ∃ frame calls, machine.work.calls.pop = .ok (frame, calls) ∧
        (frame.interrupt = none → ¬ Workspace.Takes { machine.work with calls } frame.storeTo) ∧
        failed.work.calls.outline = calls.outline := by
  cases popped : machine.work.calls.pop with
  | error reason =>
      refine .inl ⟨?_, ?_⟩
      · unfold CallStack.pop at popped
        split at popped
        · assumption
        · cases popped
      · have run := leave_eq machine
        rw [popped] at run
        unfold returnFromRoutine at broke
        rw [Action.bind_of_error run] at broke
        cases broke
        rfl
  | ok pair =>
      obtain ⟨frame, calls⟩ := pair
      refine .inr ⟨frame, calls, rfl, ?_, ?_⟩
      · intro plain takes
        rw [returnFromRoutine_of_takes inside popped plain takes] at broke
        cases broke
      · have left := closed.of_allowed trivial holds (.leave (CallStack.leftFrom_pop popped))
        have returned := closed.of_allowed trivial holds (.goBack popped)
        have ends := endsIn_returnFromRoutine (survives_outline closed calls) popped
          (fun _ => rfl) ⟨left, rfl⟩ ⟨returned, rfl⟩ value
        have kept := ends.finalState
        rw [Action.finalState_of_error broke] at kept
        exact kept.2

/-- Going on fails within the routine, or in a return from it. -/
theorem settle_eq_error (closed : Closed reach I) (fits : instruction.Fits reach) {next : Next}
    (asked : next.Fits instruction) (holds : I machine)
    (broke : settle instruction next machine = .error failure failed) :
    failed.work.calls.outline = machine.work.calls.outline ∨
      ∃ ready value, I ready ∧ ready.work.calls.outline = machine.work.calls.outline ∧
        AsksReturn instruction next machine ready value ∧
        returnFromRoutine value ready = .error failure failed := by
  have survives := survives_outline closed machine.work.calls
  have within (stays : ∀ kind, next.Needs instruction kind → kind = .wait) :
      failed.work.calls.outline = machine.work.calls.outline := by
    have kept := (keeps_settle survives fits asked stays).finalState ⟨holds, rfl⟩
    rw [Action.finalState_of_error broke] at kept
    exact kept.2
  cases next with
  | call address storeTo arguments =>
      rw [callRoutine_eq_error broke]
      exact .inl rfl
  | restart =>
      rw [restart_eq_error broke]
      exact .inl rfl
  | «return» value => exact .inr ⟨machine, value, holds, rfl, .inl ⟨rfl, rfl⟩, broke⟩
  | branch outcome =>
      by_cases returns : ∃ value, instruction.ReturnsOn outcome value
      · obtain ⟨value, returns⟩ := returns
        have run := congrFun (followBranch_of_returnsOn returns) machine
        refine .inr ⟨machine, value, holds, rfl, .inr ⟨outcome, returns, .inl ⟨rfl, rfl⟩⟩, ?_⟩
        exact run.symm.trans broke
      · exact .inl (within fun kind needs => absurd needs.2 returns)
  | storeAndBranch result outcome =>
      by_cases returns : ∃ value, instruction.ReturnsOn outcome value
      · obtain ⟨value, returns⟩ := returns
        have stores := keeps_storeResult survives fits result
        cases stored : storeResult instruction result machine with
        | error reason after =>
            have kept := stores.finalState ⟨holds, rfl⟩
            rw [Action.finalState_of_error stored] at kept
            have stopped : settle instruction (.storeAndBranch result outcome) machine = _ :=
              Action.bind_of_error stored
            rw [stopped] at broke
            cases broke
            exact .inl kept.2
        | ok u ready =>
            have kept := (stores.of_ok ⟨holds, rfl⟩ stored).1
            have run : settle instruction (.storeAndBranch result outcome) machine =
                followBranch instruction outcome ready := Action.bind_of_ok stored
            rw [run, followBranch_of_returnsOn returns] at broke
            exact .inr ⟨ready, value, kept.1, kept.2,
              .inr ⟨outcome, returns, .inr ⟨result, rfl, stored⟩⟩, broke⟩
      · exact .inl (within fun kind needs => absurd needs.2 returns)
  | read token => exact .inl (within fun kind needs => needs)
  | _ => exact .inl (within fun kind needs => needs.elim)

/-! ## Operations that leave the routine -/

private theorem restoreUndo_eq_false (answered : restoreUndo machine = .ok false after) :
    after = machine := by
  unfold restoreUndo at answered
  rw [Action.get_bind] at answered
  cases newest : machine.undo with
  | nil =>
      rw [newest] at answered
      cases answered
      rfl
  | cons game undo =>
      rw [newest] at answered
      obtain ⟨u, dropped, -, answered⟩ := Action.bind_eq_ok answered
      obtain ⟨u, placed, -, answered⟩ := Action.bind_eq_ok answered
      obtain ⟨u, resumed, -, answered⟩ := Action.bind_eq_ok answered
      cases answered

/-- An operation that restores a game has it in place and running, or leaves everything alone. -/
theorem perform_restoring (protects : machine.core.Protects data)
    (restores : instruction.opcode.operation = .restore ∨
      instruction.opcode.operation = .restoreUndo) {values : List Int} {next : Next}
    (performed : perform instruction values machine = .ok next after) :
    next = .moved ∨ after.core = machine.core := by
  unfold perform at performed
  rw [Action.get_bind] at performed
  rcases restores with restores | restores
  · simp only [restores] at performed
    split at performed
    · cases performed
      exact .inr rfl
    · obtain ⟨restored, within, answered, rest⟩ := Action.bind_eq_ok performed
      cases restored with
      | true =>
          cases rest
          exact .inl rfl
      | false =>
          have same := (restore_of_protects protects).2.2.1 within answered
          refine .inr (Eq.trans ?_ same)
          rw [if_neg Bool.false_ne_true] at rest
          split at rest
          · cases rest
            rfl
          · cases rest
            rfl
  · simp only [restores] at performed
    obtain ⟨restored, within, answered, rest⟩ := Action.bind_eq_ok performed
    cases restored with
    | true =>
        cases rest
        exact .inl rfl
    | false =>
        cases rest
        exact .inr (congrArg core (restoreUndo_eq_false answered))

/-! ## Leaving the routine and failing -/

/-- The ways in which an instruction that fails has left the routine that it was in. -/
inductive Departs (instruction : Instruction) (machine failed : Machine) : Prop where
  /-- It has returned, but its caller has no place for the result, or the read that it interrupted
  fails. -/
  | returned {ready : Machine} {value : Int} {frame : Frame} {calls : CallStack}
      (returns : ComesToReturn instruction machine ready value)
      (popped : ready.work.calls.pop = .ok (frame, calls))
      (misplaced : frame.interrupt = none →
        ¬ Workspace.Takes { ready.work with calls } frame.storeTo)
      (outline : failed.work.calls.outline = calls.outline)
  /-- It has thrown to the outermost routine, which has no caller. -/
  | thrown {ready : Machine} {value : Int}
      (throws : instruction.opcode.operation = .throwTo)
      (returns : ComesToReturn instruction machine ready value)
      (outermost : ready.work.calls.callers = []) (calls : failed.work.calls = ready.work.calls)
      (nested : 1 < machine.work.calls.depth)
  /-- It was putting another game in place. -/
  | replaced {values : List Int} {read : Machine} {failure : Failure}
      (restores : instruction.opcode.operation = .restore ∨
        instruction.opcode.operation = .restoreUndo)
      (given : operandValues instruction machine = .ok values read)
      (broke : perform instruction values read = .error failure failed)

section Failing

variable {values : List Int} {read performed : Machine} {next : Next}

/-- An instruction that fails after its operation is still in its routine or has returned. -/
theorem outline_or_departs_of_settle (protects : performed.core.Protects data)
    (ledger : performed.core.Ledger fun _ => True) (fits : instruction.Fits fun _ => True)
    (given : operandValues instruction machine = .ok values read)
    (performs : perform instruction values read = .ok next performed)
    (asked : next.Fits instruction)
    (same : performed.work.calls.outline = machine.work.calls.outline)
    (broke : settle instruction next performed = .error failure failed) :
    failed.work.calls.outline = machine.work.calls.outline ∨
      Departs instruction machine failed := by
  have closed := closed_protects data
  rcases settle_eq_error closed fits asked ⟨protects, ledger⟩ broke with
    stays | ⟨ready, value, kept, outline, asks, stops⟩
  · exact .inl (stays.trans same)
  rcases returnFromRoutine_eq_error closed kept kept.1.memory.dynamicEnd_le_size stops with
    ⟨-, rfl⟩ | ⟨frame, calls, popped, misplaced, left⟩
  · exact .inl (outline.trans same)
  · exact .inr (.returned ⟨values, read, next, performed, given, performs, asks⟩ popped misplaced
      left)

/-- A throw that fails has thrown to nowhere, or it has left routines. -/
theorem outline_or_departs_of_throw (throws : instruction.opcode.operation = .throwTo)
    (protects : read.core.Protects data) (ledger : read.core.Ledger fun _ => True)
    (given : operandValues instruction machine = .ok values read)
    (same : read.work.calls.outline = machine.work.calls.outline)
    (broke : (perform instruction values >>= settle instruction) read = .error failure failed) :
    failed.work.calls.outline = machine.work.calls.outline ∨
      Departs instruction machine failed := by
  have closed := closed_protects data
  have performs : perform instruction values read = _ := perform_throwTo throws values
  cases unwound : read.work.calls.unwind (values.getD 1 0) with
  | error reason =>
      rw [unwound] at performs
      rw [Action.bind_of_error performs] at broke
      cases broke
      exact .inl same
  | ok calls =>
      rw [unwound] at performs
      rw [Action.bind_of_ok performs] at broke
      have left := CallStack.leftFrom_unwind unwound
      have held := closed.of_allowed trivial ⟨protects, ledger⟩ (.leave left)
      have returns : ComesToReturn instruction machine _ _ :=
        ⟨values, read, _, _, given, performs, .inl ⟨rfl, rfl⟩⟩
      rcases returnFromRoutine_eq_error closed held protects.memory.dynamicEnd_le_size broke with
        ⟨outermost, rfl⟩ | ⟨frame, callers, popped, misplaced, outline⟩
      · by_cases nested : 1 < machine.work.calls.depth
        · exact .inr (.thrown throws returns outermost rfl nested)
        · have shallow : calls.depth = read.work.calls.depth := by
            have least : calls.depth = 1 := congrArg (·.length + 1) outermost
            rw [least, CallStack.depth_eq_of_outline same]
            unfold CallStack.depth at nested ⊢
            omega
          rw [CallStack.eq_of_leftFrom left shallow]
          exact .inl same
      · exact .inr (.returned returns popped misplaced outline)

/-- An instruction that fails is still in its routine or has departed from it. -/
theorem outline_or_departs (protects : machine.core.Protects data)
    (ledger : machine.core.Ledger fun _ => True)
    (decoded : machine.instructionAt machine.pc = .ok instruction)
    (broke : executeInstruction instruction machine = .error failure failed) :
    failed.work.calls.outline = machine.work.calls.outline ∨
      Departs instruction machine failed := by
  have closed := closed_protects data
  have survives := survives_outline closed machine.work.calls
  have within := Instruction.within_of_read decoded
  have listed := Instruction.opcode_mem_all_of_read decoded
  have fits : instruction.Fits fun _ => True := within.fits fun _ _ => trivial
  have reads := ensures_operandValues survives within.operands listed
  unfold executeInstruction at broke
  cases given : operandValues instruction machine with
  | error reason read =>
      have kept := reads.finalState ⟨⟨protects, ledger⟩, rfl⟩
      rw [Action.finalState_of_error given] at kept
      rw [Action.bind_of_error given] at broke
      cases broke
      exact .inl kept.2
  | ok values read =>
      obtain ⟨⟨holds, same⟩, few, signed⟩ := reads.of_ok ⟨⟨protects, ledger⟩, rfl⟩ given
      rw [Action.bind_of_ok given] at broke
      by_cases throws : instruction.opcode.operation = .throwTo
      · exact outline_or_departs_of_throw throws holds.1 holds.2 given same broke
      have performs := ensures_perform closed fits few signed fun _ _ => trivial
      by_cases restores : instruction.opcode.operation = .restore ∨
          instruction.opcode.operation = .restoreUndo
      · cases asked : perform instruction values read with
        | error reason stopped =>
            rw [Action.bind_of_error asked] at broke
            cases broke
            exact .inr (.replaced restores given asked)
        | ok next performed =>
            obtain ⟨⟨guarded, listed⟩, fitting⟩ := performs.of_ok holds asked
            rw [Action.bind_of_ok asked] at broke
            rcases perform_restoring holds.1 restores asked with rfl | unchanged
            · cases broke
            · have work : performed.work = read.work := congrArg Core.work unchanged
              rw [← work] at same
              exact outline_or_departs_of_settle guarded listed fits given asked fitting same broke
      · have stays (kind : MoveKind) (needs : instruction.opcode.operation.Needs kind) :
            kind = .wait := by
          rcases Operation.eq_of_needs needs with throw | restore
          · exact absurd throw throws
          · exact absurd restore restores
        have outlined := ensures_perform survives fits few signed stays
        cases asked : perform instruction values read with
        | error reason stopped =>
            have kept := outlined.finalState ⟨holds, same⟩
            rw [Action.finalState_of_error asked] at kept
            rw [Action.bind_of_error asked] at broke
            cases broke
            exact .inl kept.2
        | ok next performed =>
            obtain ⟨⟨kept, outline⟩, fitting⟩ := outlined.of_ok ⟨holds, same⟩ asked
            rw [Action.bind_of_ok asked] at broke
            exact outline_or_departs_of_settle kept.1 kept.2 fits given asked fitting outline broke

end Failing

/-- Leaving calls, the machine does not get deeper. -/
theorem survives_depth_le (closed : Closed reach I) (depth : Nat) :
    Survives reach (· = .leave)
      (fun machine => I machine ∧ machine.work.calls.depth ≤ depth) where
  move := by
    rintro kind machine after (rfl | rfl) ⟨holds, shallow⟩ move
    · refine ⟨closed.inner holds move, ?_⟩
      rwa [CallStack.depth_eq_of_outline move.outline]
    · have shorter : after.work.calls.depth ≤ machine.work.calls.depth := move.left.length_le
      exact ⟨closed.of_allowed trivial holds move, shorter.trans shallow⟩
  near := fun holds => closed.near holds.1
  ledger := fun holds => closed.ledger holds.1

/-- An instruction that has departed, but not by putting another game in place, has left frames. -/
theorem Departs.depth_lt (departs : Departs instruction machine failed) (closed : Closed reach I)
    (holds : I machine) (decoded : machine.instructionAt machine.pc = .ok instruction)
    (stays : instruction.opcode.operation.replaces = false) :
    failed.work.calls.depth < machine.work.calls.depth := by
  have leaves := survives_depth_le closed machine.work.calls.depth
  cases departs with
  | returned returns popped misplaced outline =>
      have shallow := (leaves.comesToReturn ⟨holds, le_rfl⟩ decoded
        (fun _ => Operation.eq_leave_of_needs stays) returns).2
      rw [CallStack.depth_eq_of_outline outline]
      exact (CallStack.depth_of_pop popped).trans_le shallow
  | thrown throws returns outermost calls nested =>
      rw [calls]
      have least := congrArg (·.length + 1) outermost
      exact lt_of_eq_of_lt least nested
  | replaced restores given broke =>
      rcases restores with restores | restores
      · rw [restores] at stays
        cases stays
      · rw [restores] at stays
        cases stays

/-! ## Recovery -/

/-- A recoverable fault of an instruction is reported, and the machine goes on behind the
instruction. -/
theorem handleFault_eq_ok {fault : Fault} (recoverable : fault.recoverable = true)
    (goesOn : machine.classifier.policy ≠ .abort) :
    ∃ after, handleFault fault (some instruction) machine = .ok () after ∧
      after.pc = instruction.nextAddress ∧ after.work = machine.work := by
  have recovery := Classifier.proceeds_of_recoverable
    (show (fault.located instruction.address).recoverable = true from recoverable) goesOn
    instruction.name
  unfold handleFault
  rw [Action.get_bind]
  simp only [Option.map_some, Option.getD_some]
  generalize machine.classifier.classify _ _ = outcome at recovery ⊢
  obtain ⟨decided, notice, classifier⟩ := outcome
  dsimp only at recovery ⊢
  subst decided
  cases notice <;> exact ⟨_, rfl, rfl, rfl⟩

/-- After a recoverable fault under a policy that goes on, the machine goes on behind the
instruction with what the instruction has left of the game. It is still in the routine of the
instruction, the frames of the callers as they were, unless the instruction had departed from that
routine; then the machine goes on in another frame, with fewer frames than before unless another
game was being put in place. -/
theorem recovered_fault {fresh start : Machine} {fault : Fault} (unused : fresh.requests = #[])
    (accepted : reset fresh = .ok () start) (events : List Event)
    (executes : Executes (start.after events) instruction machine)
    (broke : executeInstruction instruction machine = .error (.fault fault) failed)
    (recoverable : fault.recoverable = true) (goesOn : fresh.classifier.policy ≠ .abort) :
    ∃ after, step (start.after events) = .ok () after ∧ after.pc = instruction.nextAddress ∧
      after.work = failed.work ∧
      (¬ Departs instruction machine failed →
        after.work.calls.depth = machine.work.calls.depth ∧
        after.work.calls.callers = machine.work.calls.callers) ∧
      (Departs instruction machine failed → instruction.opcode.operation.replaces = false →
        after.work.calls.depth < machine.work.calls.depth) := by
  have closed := closed_terms (closed_protects fresh.file.data) fresh.terms
  have begun : (start.core.Protects fresh.file.data ∧ start.core.Ledger fun _ => True) ∧
      start.terms = fresh.terms :=
    ⟨⟨protects_of_reset accepted, ledger_of_reset accepted unused⟩, terms_of_reset accepted⟩
  have holds := closed.passes begun (.executing executes)
  have decoded := executes.instructionAt
  have within := Instruction.within_of_read decoded
  have fits : instruction.Fits fun _ => True := within.fits fun _ _ => trivial
  have stopped := (keeps_executeInstruction closed fits within.operands
    (Instruction.opcode_mem_all_of_read decoded)).finalState holds
  rw [Action.finalState_of_error broke] at stopped
  have policy : failed.classifier.policy ≠ .abort := by
    have same : failed.classifier.policy = fresh.classifier.policy :=
      congrArg Terms.policy stopped.2
    rwa [same]
  obtain ⟨after, handled, pc, work⟩ := handleFault_eq_ok recoverable policy
  refine ⟨after, ?_, pc, work, ?_, ?_⟩
  · rw [step_of_executes executes]
    exact (Action.onFault_of_fault broke).trans handled
  · intro stays
    rcases outline_or_departs holds.1.1 holds.1.2 decoded broke with same | departs
    · rw [work]
      exact ⟨CallStack.depth_eq_of_outline same, (CallStack.mk.inj same).2⟩
    · exact absurd departs stays
  · intro departs stays
    rw [work]
    exact departs.depth_lt closed holds decoded stays

/-- The sample story with a call in place of the save: the routine returns five, for a local that
the main routine does not have. -/
def misplacingStory : Array UInt8 :=
  (sampleStory.toList.take 80 ++ [0xe0, 0x3f, 0, 43, 5, 0xba, 0, 0x9b, 5] ++
    sampleStory.toList.drop 89).toArray

/-- The sample machine with that story, started. -/
def misplacing : Machine :=
  reset.finalState { sample with file.data := misplacingStory }

/-- The return of that story. -/
def misplacingReturn : Instruction where
  address := 87
  form := .short
  opcode :=
    { group := .oneOperand, number := 11, name := "ret", operation := .returnValue,
      senses := [.unsigned] }
  operands := [⟨.small, 5⟩]
  resultAddress := 89
  nextAddress := 89

/-- The machine on the point of that return. -/
def misplaced : Machine :=
  (misplacing.after [.step]).poised.taking misplacingReturn

private theorem reset_misplacing : reset { sample with file.data := misplacingStory } = .ok () misplacing :=
  Action.eq_ok_finalState (by decide +kernel)

private theorem executes_misplaced : Executes (misplacing.after [.step]) misplacingReturn misplaced :=
  executes_poised (by decide +kernel) (by decide +kernel) (by decide +kernel) (by decide +kernel)

/-- The fault of that return. -/
def misplacement : Fault where
  cause := .noSuchLocal 5 0

private theorem broke_misplaced :
    executeInstruction misplacingReturn misplaced =
      .error (.fault misplacement) ((executeInstruction misplacingReturn).finalState misplaced) :=
  Action.eq_error_of_answer (by decide +kernel)

private theorem departs_misplaced :
    Departs misplacingReturn misplaced
      ((executeInstruction misplacingReturn).finalState misplaced) := by
  have popped : misplaced.work.calls.pop = .ok (misplaced.work.calls.current, {}) := by
    decide +kernel
  have returns : ComesToReturn misplacingReturn misplaced misplaced 5 :=
    ⟨[5], misplaced, .return 5, misplaced, rfl, rfl, .inl ⟨rfl, rfl⟩⟩
  exact .returned returns popped (fun _ => by decide +kernel)
    (by decide +kernel)

/-- The return leaves the routine, and the main routine goes on with what stands behind it. -/
theorem recovered_fault_misplaced :
    misplaced.work.calls.depth = 2 ∧
      ∃ after, step (misplacing.after [.step]) = .ok () after ∧ after.pc = 89 ∧
        after.work.calls.depth < misplaced.work.calls.depth := by
  obtain ⟨after, stepped, pc, -, -, left⟩ := recovered_fault rfl reset_misplacing [.step]
    executes_misplaced broke_misplaced rfl (by decide)
  exact ⟨by decide +kernel, after, stepped, pc, left departs_misplaced rfl⟩

/-- A recovered fault need not stay in its routine. -/
theorem not_forall_recovered_in_place :
    ¬ ∀ (fresh start machine failed : Machine) (events : List Event) (instruction : Instruction)
        (fault : Fault), fresh.requests = #[] → reset fresh = .ok () start →
      Executes (start.after events) instruction machine →
      executeInstruction instruction machine = .error (.fault fault) failed →
      fault.recoverable = true → fresh.classifier.policy ≠ .abort →
        ∃ after, step (start.after events) = .ok () after ∧
          after.pc = instruction.nextAddress ∧
          after.work.calls.depth = machine.work.calls.depth ∧
          after.work.calls.callers = machine.work.calls.callers := by
  intro stays
  obtain ⟨after, stepped, -, depth, -⟩ := stays _ _ _ _ [.step] _ _ rfl reset_misplacing
    executes_misplaced broke_misplaced rfl (by decide)
  have falls : (step.finalState (misplacing.after [.step])).work.calls.depth ≠
      misplaced.work.calls.depth := by decide +kernel
  rw [Action.finalState_of_ok stepped] at falls
  exact falls depth

end Machine

end StoryMachine
