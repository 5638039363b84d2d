import StoryMachine.Proofs.PendingReads
import StoryMachine.Proofs.Recovery

/-!
# Reads that end

An answer ends the pending read, and an instruction ends a read if it returns from
the routine of the request with a value other than zero. Such an instruction uses a
chance of the read up. Any other instruction leaves the chances of a read or lowers
them, unless it undoes: the snapshot may hold routines that have long returned.
-/

namespace StoryMachine

open StoryMachine.Action (Ensures Keeps EndsIn)

/-- The value that the branch of an instruction returns on an outcome, if it returns. -/
def Instruction.returned? (instruction : Instruction) (outcome : Bool) : Option Int :=
  instruction.branch.bind fun branch =>
    if outcome = branch.ifTrue ∧ (branch.offset = 0 ∨ branch.offset = 1) then some branch.offset
    else none

private theorem Instruction.returned?_eq_some {instruction : Instruction} {outcome : Bool} {value : Int} :
    instruction.returned? outcome = some value ↔ instruction.ReturnsOn outcome value := by
  unfold returned? ReturnsOn
  rw [Option.bind_eq_some_iff]
  refine exists_congr fun branch => and_congr_right fun _ => ?_
  rw [Option.ite_none_right_eq_some, and_assoc, Option.some.injEq, eq_comm (b := value)]

namespace Machine

variable {machine after start : Machine} {story : Story} {memory : GameMemory}
  {instruction : Instruction} {token : Nat}

/-! ## Returns -/

/-- Executes an instruction up to its return from the routine. The answer is the value that it comes
to return, if it returns. -/
def untilReturn (instruction : Instruction) : Play (Option Int) := do
  let values ← operandValues instruction
  match ← perform instruction values with
  | .return value => return some value
  | .branch outcome => return instruction.returned? outcome
  | .storeAndBranch result outcome =>
      storeResult instruction result
      return instruction.returned? outcome
  | _ => return none

/-- The read that an instruction ends by a return. -/
def endedExecuting (instruction : Instruction) (machine : Machine) : List Nat :=
  match untilReturn instruction machine with
  | .ok (some value) ready => ready.endedOnReturn value
  | _ => []

private theorem untilReturn_of_comesToReturn {ready : Machine} {value : Int}
    (returns : ComesToReturn instruction machine ready value) :
    untilReturn instruction machine = .ok (some value) ready := by
  obtain ⟨values, read, next, performed, given, asked, returns⟩ := returns
  unfold untilReturn
  rw [Action.bind_of_ok given, Action.bind_of_ok asked]
  rcases returns with ⟨rfl, rfl⟩ | ⟨outcome, branches, ⟨rfl, rfl⟩ | ⟨result, rfl, stored⟩⟩
  · rfl
  · dsimp only
    rw [Instruction.returned?_eq_some.mpr branches]
    rfl
  · dsimp only
    rw [Action.bind_of_ok stored, Instruction.returned?_eq_some.mpr branches]
    rfl

private theorem comesToReturn_of_untilReturn {ready : Machine} {value : Int}
    (answered : untilReturn instruction machine = .ok (some value) ready) :
    ComesToReturn instruction machine ready value := by
  obtain ⟨values, read, given, answered⟩ := Action.bind_eq_ok answered
  obtain ⟨next, performed, asked, answered⟩ := Action.bind_eq_ok answered
  refine ⟨values, read, next, performed, given, asked, ?_⟩
  cases next with
  | «return» value =>
      cases answered
      exact .inl ⟨rfl, rfl⟩
  | branch outcome =>
      obtain ⟨answer, rfl⟩ := EStateM.Result.ok.inj answered
      exact .inr ⟨outcome, Instruction.returned?_eq_some.mp answer, .inl ⟨rfl, rfl⟩⟩
  | storeAndBranch result outcome =>
      obtain ⟨u, after, stored, answered⟩ := Action.bind_eq_ok answered
      obtain ⟨answer, rfl⟩ := EStateM.Result.ok.inj answered
      exact .inr ⟨outcome, Instruction.returned?_eq_some.mp answer, .inr ⟨result, rfl, stored⟩⟩
  | _ => cases answered

private theorem not_asksReturn_moved {performed ready : Machine} {value : Int} :
    ¬ AsksReturn instruction .moved performed ready value := by
  rintro (⟨same, -⟩ | ⟨outcome, -, ⟨same, -⟩ | ⟨result, same, -⟩⟩) <;> cases same

/-- What does not depend on the workspace is left alone by an action on it. -/
theorem keeps_beside_onWork {α : Type} {P : Machine → Prop}
    (beside : ∀ (machine : Machine) (work : Workspace), P machine → P { machine with work })
    (action : Action Workspace α) : Keeps P (onWork action) := by
  refine .focus (fun _ _ _ => rfl) (fun _ => rfl) fun machine holds work _ => ?_
  cases outcome : action work with
  | ok a after => exact .of_ok outcome (beside machine after holds) trivial
  | error failure after => exact .of_error outcome (beside machine after holds)

/-- The values of operands are read off variables and constants. -/
theorem keeps_operandValues_of_reads {P : Machine → Prop}
    (reads : ∀ number, Keeps P (onWork (Workspace.getVariable number))) :
    Keeps P (operandValues instruction) := by
  have one (sense : Sense) (operand : Operand) : Keeps P (operandValue sense operand) := by
    unfold operandValue
    dsimp only
    split
    · exact .seq (reads _) fun _ => .pure trivial
    · exact .seq (.pure trivial) fun _ => .pure trivial
  have all (operands : List Operand) : ∀ index,
      Keeps P (operandValuesFrom instruction.opcode index operands) := by
    induction operands with
    | nil => exact fun _ => .pure trivial
    | cons operand rest ih =>
        intro index
        exact .seq (one _ operand) fun _ => .seq (ih _) fun _ => .pure trivial
  unfold operandValues
  dsimp only
  exact .excluded fun _ => all _ 0

/-- The values of operands do not depend on the kept snapshots, nor change them. -/
theorem undo_of_operandValues {values : List Int} {read : Machine}
    (given : operandValues instruction machine = .ok values read) : read.undo = machine.undo := by
  have reads : Keeps (fun read => read.undo = machine.undo) (operandValues instruction) :=
    keeps_operandValues_of_reads fun _ => keeps_beside_onWork (fun _ _ same => same) _
  exact (reads.of_ok rfl given).1

/-! ## Executing an instruction -/

section Instructions

variable (loaded : Story.load story.data = .ok (story, memory))

include loaded

/-- A read that an operation asks for is a new one. -/
theorem ensures_perform_follows (fits : instruction.Fits fun _ => True) {values : List Int}
    (few : values.length ≤ 8)
    (signed : instruction.opcode.operation = .jump → values.getD 0 0 ≤ 0x7fff)
    (stays : instruction.opcode.operation ≠ .restore ∧
      instruction.opcode.operation ≠ .restoreUndo) (token : Nat) (start : Machine) :
    Ensures (Follows story token start)
      (fun next => next.Fits instruction ∧
        ∀ number, next = .read number → start.requests.size < number)
      (perform instruction values) := by
  have survives := survives_follows loaded token start
  have counted (machine : Machine) (follows : Follows story token start machine) :
      start.requests.size ≤ machine.requests.size := follows.entered
  have asks (number : Nat) (later : start.requests.size < number) (other : Nat)
      (same : Next.read number = .read other) : start.requests.size < other := by
    cases same
    exact later
  by_cases line : instruction.opcode.operation = .readLine
  · unfold perform
    refine .get fun machine _ => ?_
    simp only [line]
    refine .bind (ensures_beginLine survives fits counted _ _ _ _) fun number later => ?_
    exact .pure ⟨.inl line, asks number later⟩
  by_cases key : instruction.opcode.operation = .readChar
  · unfold perform
    refine .get fun machine _ => ?_
    simp only [key]
    refine .bind (ensures_beginKey survives fits counted _ _) fun number later => ?_
    exact .pure ⟨.inr key, asks number later⟩
  · refine (ensures_perform survives fits few signed ?_).weaken fun next asked => ⟨asked, ?_⟩
    · intro kind needs
      rcases Operation.eq_of_needs needs with throws | restores | undoes
      · rw [throws] at needs
        exact needs
      · exact absurd restores stays.1
      · exact absurd undoes stays.2
    · rintro number rfl
      exact absurd asked (not_or.mpr ⟨line, key⟩)

private theorem endsWithin_settle (follows : Follows story token start machine)
    (idle : start.phase.isWaiting = false) (fits : instruction.Fits fun _ => True) {next : Next}
    (asked : next.Fits instruction)
    (later : ∀ number, next = .read number → start.requests.size < number) :
    EndsIn (EndsWithin story token 0 (start.endsLeft token)) (fun _ => True)
      (settle instruction next)
      machine := by
  have survives := survives_endsWithin loaded token 0 (start.endsLeft token)
  have returns {ready : Machine} (follows : Follows story token start ready) (value : Int) :
      EndsIn (EndsWithin story token 0 (start.endsLeft token)) (fun _ => True)
        (returnFromRoutine value) ready := by
    have returned := endsWithin_returnFromRoutine loaded follows.attentive (follows.idle idle) token
      value
    exact returned.weaken fun _ bounded => bounded.mono (Nat.zero_le _) follows.endsLeft_le
  cases next with
  | call address storeTo arguments =>
      have target (target : Int) (given : storeTo = some target) : 0 ≤ target ∧ target < 256 := by
        rcases asked.1 with ⟨-, stored⟩ | ⟨-, dropped⟩
        · exact fits.target target (stored.symm.trans given)
        · rw [dropped] at given
          cases given
      have called := endsWithin_callRoutine loaded follows.attentive address instruction.nextAddress
        none target asked.2 token
      exact called.weaken fun _ bounded => bounded.mono (le_refl _) follows.endsLeft_le
  | «return» value => exact returns follows value
  | branch outcome =>
      by_cases returning : ∃ value, instruction.ReturnsOn outcome value
      · obtain ⟨value, returning⟩ := returning
        exact .of_eq (congrFun (followBranch_of_returnsOn returning) machine)
          (returns follows value)
      · exact keeps_settle survives fits asked (fun _ needs => absurd needs.2 returning) machine
          follows.endsWithin
  | storeAndBranch result outcome =>
      by_cases returning : ∃ value, instruction.ReturnsOn outcome value
      · obtain ⟨value, returning⟩ := returning
        have stores := keeps_storeResult (survives_follows loaded token start) fits result machine
          follows
        refine stores.bind (fun _ held => held.endsWithin) fun _ ready held _ => ?_
        exact .of_eq (congrFun (followBranch_of_returnsOn returning) ready) (returns held value)
      · exact keeps_settle survives fits asked (fun _ needs => absurd needs.2 returning) machine
          follows.endsWithin
  | restart =>
      have restarted := endsWithin_restart loaded follows.attentive token
      exact restarted.weaken fun _ bounded => bounded.mono (le_refl _) follows.endsLeft_le
  | read number =>
      have suspended := endsWithin_suspend loaded follows.attentive (follows.idle idle) token number
      refine suspended.weaken fun _ bounded => bounded.mono (le_refl _) ?_
      -- The number is new: its chance to be entered becomes the chance to be waited for.
      have entered := follows.entered
      have interrupted := follows.interrupted
      have newer := later number rfl
      rw [endsLeft_of_idle idle]
      split_ifs <;> omega
  | _ =>
      exact keeps_settle survives fits asked (fun _ needs => needs.elim) machine follows.endsWithin

private theorem endsWithin_perform_restoring (attentive : Attentive story machine)
    (idle : machine.phase.isWaiting = false)
    (restores : instruction.opcode.operation = .restore ∨
      instruction.opcode.operation = .restoreUndo)
    (apart : instruction.opcode.operation = .restoreUndo → ¬ machine.Revives token)
    (values : List Int) :
    EndsIn (EndsWithin story token 0 (machine.endsLeft token)) (fun _ => True)
      (perform instruction values) machine := by
  unfold perform
  refine EndsIn.get ?_
  rcases restores with restores | undoes
  · simp only [restores]
    split
    · refine .of_ok rfl ⟨?_, le_refl _⟩ trivial
      exact (closed_attentive loaded).survivesAside _ _ attentive ⟨rfl, rfl⟩
    · refine (endsWithin_restore loaded attentive idle token).bind (fun _ held => held) ?_
      intro restored after held _
      split
      · exact .of_ok rfl held trivial
      split
      · exact .of_ok rfl held trivial
      · exact .of_ok rfl held trivial
  · simp only [undoes]
    refine (endsWithin_restoreUndo loaded attentive idle (apart undoes)).bind
      (fun _ held => held) ?_
    intro restored after held _
    split
    · exact .of_ok rfl held trivial
    · exact .of_ok rfl held trivial

/-- An instruction leaves the chances of a read, unless it puts a snapshot with a routine of the
request in place. -/
theorem endsWithin_executeInstruction (attentive : Attentive story machine)
    (idle : machine.phase.isWaiting = false) (fits : instruction.Fits fun _ => True)
    (few : instruction.operands.length ≤ 8) (listed : instruction.opcode ∈ Opcode.all)
    (apart : instruction.opcode.operation = .restoreUndo → ¬ machine.Revives token) :
    EndsIn (EndsWithin story token 0 (machine.endsLeft token)) (fun _ => True)
      (executeInstruction instruction) machine := by
  have survives := survives_follows loaded token machine
  have reads := ensures_operandValues survives few listed
  cases given : operandValues instruction machine with
  | error failure failed =>
      have follows := reads.finalState (.refl attentive)
      rw [Action.finalState_of_error given] at follows
      exact .afterError given follows.endsWithin
  | ok values read =>
      obtain ⟨follows, short, signed⟩ := reads.of_ok (.refl attentive) given
      refine .after given ?_
      by_cases restores : instruction.opcode.operation = .restore ∨
          instruction.opcode.operation = .restoreUndo
      · have kept : instruction.opcode.operation = .restoreUndo → ¬ read.Revives token := by
          unfold Revives
          rw [undo_of_operandValues given]
          exact apart
        have performs := endsWithin_perform_restoring loaded follows.attentive (follows.idle idle)
          restores kept values
        have bounded := (performs.weaken fun _ bounded =>
          bounded.mono (le_refl _) follows.endsLeft_le).finalState
        cases performed : perform instruction values read with
        | error failure failed =>
            rw [Action.finalState_of_error performed] at bounded
            exact .afterError performed bounded
        | ok next done =>
            rw [Action.finalState_of_ok performed] at bounded
            refine .after performed ?_
            -- Either another game is in place and nothing is left to settle, or the operation has
            -- failed and settles its result in the machine as it was.
            rcases perform_restoring follows.attentive.protects restores performed with rfl | same
            · exact .of_ok rfl bounded trivial
            · have asked := ((ensures_perform (closed_attentive loaded) fits short signed
                fun _ _ => trivial).of_ok follows.attentive performed).2
              refine endsWithin_settle loaded (follows.of_core same) idle fits asked ?_
              rintro number rfl
              rcases asked with reads | reads <;> simp [reads] at restores
      · have performs := ensures_perform_follows loaded fits short signed (not_or.mp restores) token
          machine
        refine (performs read follows).bind (fun _ held => held.endsWithin) ?_
        intro next done held asked
        exact endsWithin_settle loaded held idle fits asked.1 asked.2

/-- What an instruction does before it returns calls no routine and waits for nothing. -/
theorem follows_ready (attentive : Attentive story machine) (fits : instruction.Fits fun _ => True)
    (few : instruction.operands.length ≤ 8) (listed : instruction.opcode ∈ Opcode.all)
    {ready : Machine} {value : Int} (returns : ComesToReturn instruction machine ready value)
    (token : Nat) : Follows story token machine ready := by
  have survives := survives_follows loaded token machine
  obtain ⟨values, read, next, performed, given, asked, returns⟩ := returns
  obtain ⟨follows, short, signed⟩ :=
    (ensures_operandValues survives few listed).of_ok (.refl attentive) given
  have kept : Follows story token machine performed := by
    by_cases restores : instruction.opcode.operation = .restore ∨
        instruction.opcode.operation = .restoreUndo
    · rcases perform_restoring follows.attentive.protects restores asked with rfl | same
      · exact absurd returns not_asksReturn_moved
      · exact follows.of_core same
    · exact ((ensures_perform_follows loaded fits short signed (not_or.mp restores) token
        machine).of_ok follows asked).1
  rcases returns with ⟨-, rfl⟩ | ⟨outcome, -, ⟨-, rfl⟩ | ⟨result, -, stored⟩⟩
  · exact kept
  · exact kept
  · exact ((keeps_storeResult survives fits result).of_ok kept stored).1

/-- An instruction that ends a read uses a chance of it up. -/
theorem spends_executeInstruction (attentive : Attentive story machine)
    (idle : machine.phase.isWaiting = false) (fits : instruction.Fits fun _ => True)
    (few : instruction.operands.length ≤ 8) (listed : instruction.opcode ∈ Opcode.all)
    (apart : instruction.opcode.operation = .restoreUndo → ¬ machine.Revives token) :
    EndsIn
      (EndsWithin story token ((endedExecuting instruction machine).count token)
        (machine.endsLeft token))
      (fun _ => True) (executeInstruction instruction) machine := by
  unfold endedExecuting
  split
  · rename_i value ready answered
    have returns := comesToReturn_of_untilReturn answered
    have follows := follows_ready loaded attentive fits few listed returns token
    have returned := endsWithin_returnFromRoutine loaded follows.attentive (follows.idle idle) token
      value
    refine .of_eq (executeInstruction_of_comesToReturn returns) (returned.weaken ?_)
    exact fun _ bounded => bounded.mono (le_refl _) follows.endsLeft_le
  · exact endsWithin_executeInstruction loaded attentive idle fits few listed apart

end Instructions

/-! ## Events -/

/-- The read that is over because nothing is pending any more. -/
def givenUp (before after : Machine) : List Nat :=
  if after.pending = none then before.pending.toList else []

/-- Looks for input. -/
def listen : Play Unit := do
  requireStory .notInitialized
  acceptInput

/-- The read that the instruction at the program counter ends by a return. -/
def endedNext (machine : Machine) : List Nat :=
  match machine.instructionAt machine.pc with
  | .ok instruction => endedExecuting instruction (machine.taking instruction)
  | .error _ => []

/-- The read that a machine ends when it goes on after it has looked for input. -/
def endedContinuing (machine : Machine) : List Nat :=
  if machine.phase = .running then
    match pollSounds machine with
    | .ok _ polled => polled.endedNext
    | .error _ _ => []
  else []

/-- The reads that an event ends: an answer ends the pending one, and so does a step that finds
input; a return of the routine of a request, with a value other than zero, ends the read of that
request. -/
def Event.ended (machine : Machine) (event : Event) : List Nat :=
  match event with
  | .step =>
      match listen machine with
      | .ok _ awake => machine.givenUp awake ++ awake.endedContinuing
      | .error _ awake => machine.givenUp awake
  | .answer .. => machine.givenUp (event.apply machine)
  | _ => []

/-- The reads that a run ends, in order. -/
def ended (machine : Machine) : List Event → List Nat
  | [] => []
  | event :: rest => event.ended machine ++ (event.apply machine).ended rest

/-- The ways in which a read ends: its answer is taken, the player has typed the answer, or its
routine returns a value other than zero. -/
inductive Event.Ends (token : Nat) (machine : Machine) : Event → Prop where
  | answered {entry : Entry} {terminator : Int} {after : Machine}
      (pending : machine.pending = some token)
      (taken : completeInput (some token) entry terminator false machine = .ok () after) :
      Ends token machine (.answer (some token) entry terminator false)
  | typed {awake : Machine} (awaits : machine.Awaits token)
      (listened : listen machine = .ok () awake) (stopped : awake.phase.isWaiting = false) :
      Ends token machine .step
  | returned {instruction : Instruction} {executing ready : Machine} {value : Int} {frame : Frame}
      {calls : CallStack} (executes : Executes machine instruction executing)
      (returns : ComesToReturn instruction executing ready value) (nonzero : value ≠ 0)
      (popped : ready.work.calls.pop = .ok (frame, calls))
      (interrupts : frame.interrupt = some token) : Ends token machine .step

/-- Storing the answer of a read does not make another one pending. -/
theorem keeps_pending_storeAnswer (request : InputRequest) (value : Int) :
    Keeps (fun machine => machine.pending = none) (storeAnswer request value) := by
  unfold storeAnswer
  split
  · exact .pure trivial
  · exact keeps_beside_onWork (fun _ _ same => same) _

private theorem pending_of_finish {request : InputRequest} {value : Int}
    (finished : (do finishRequest request; storeAnswer request value : Play Unit) machine =
      .ok () after) : after.pending = none := by
  have stored : storeAnswer request value { machine with
      pending := none
      phase := .running
      pc := (request.instruction.map Instruction.nextAddress).getD machine.pc } = .ok () after :=
    finished
  exact ((keeps_pending_storeAnswer request value).of_ok rfl stored).1

private theorem pending_of_finishLine {request : InputRequest} {entry : Entry} {terminator : Int}
    (finished : finishLine request entry terminator machine = .ok () after) :
    after.pending = none := by
  cases entry with
  | key code => cases finished
  | text text =>
      unfold finishLine at finished
      dsimp only at finished
      rw [Action.get_bind] at finished
      obtain ⟨offset, filled, -, finished⟩ := Action.bind_eq_ok finished
      -- What follows once the command is recorded; a line that another key ends is not recorded.
      have parsed (recorded : Machine)
          (finished : (if request.parseBuffer ≠ 0 then do
              let _ ← onMemory (machine.story.dictionary.tokenise
                ((text.lower.map machine.story.codec.toZscii).take request.maxLength.toNat)
                request.parseBuffer offset)
              finishRequest request
              storeAnswer request terminator
            else do
              finishRequest request
              storeAnswer request terminator : Play Unit) recorded = .ok () after) :
          after.pending = none := by
        split at finished
        · obtain ⟨entries, tokenised, -, finished⟩ := Action.bind_eq_ok finished
          exact pending_of_finish finished
        · exact pending_of_finish finished
      split at finished
      · obtain ⟨u, recorded, -, finished⟩ := Action.bind_eq_ok finished
        exact parsed recorded finished
      · exact parsed filled finished

private theorem pending_of_answerRequest {request : InputRequest} {entry : Entry} {terminator : Int}
    (answered : answerRequest request entry terminator false machine = .ok () after) :
    after.pending = none := by
  unfold answerRequest at answered
  rw [if_neg Bool.false_ne_true] at answered
  cases kind : request.kind with
  | line =>
      rw [kind] at answered
      exact pending_of_finishLine answered
  | key =>
      rw [kind] at answered
      exact pending_of_finish answered

/-- A machine in the middle of a run has its story. -/
theorem Attentive.requireStory (attentive : Attentive story machine) (breach : Breach) :
    Machine.requireStory breach machine = .ok () machine := by
  unfold Machine.requireStory
  rw [Action.get_bind, show machine.ready = true from attentive.attends.ready]
  rfl

/-- Nothing is pending before the next read. -/
theorem survives_quiet (loaded : Story.load story.data = .ok (story, memory)) :
    Survives (fun _ => True) (fun _ => False)
      (fun machine => Attentive story machine ∧ machine.pending = none) where
  move := by
    rintro kind machine after stays ⟨attentive, quiet⟩ move
    obtain rfl : kind = .inner := stays.resolve_right id
    refine ⟨(closed_attentive loaded).inner attentive move, ?_⟩
    cases move with
    | aside apart => exact (congrArg Core.pending apart.core).trans quiet
    | finish => rfl
    | abandon => rfl
    | _ => exact quiet
  near := fun _ _ => trivial
  ledger := fun holds found => holds.1.ledger.found found

section Events

variable (loaded : Story.load story.data = .ok (story, memory))

include loaded

/-! ## What ends a read -/

/-- After an answer that is taken, nothing is pending. -/
theorem pending_of_completeInput (attentive : Attentive story machine) {number : Option Nat}
    {entry : Entry} {terminator : Int}
    (taken : completeInput number entry terminator false machine = .ok () after) :
    after.pending = none := by
  have closed := closed_attentive loaded
  unfold completeInput at taken
  rw [Action.get_bind] at taken
  cases asked : number.bind machine.request? with
  | none =>
      rw [asked] at taken
      cases taken
  | some request =>
      obtain ⟨given, -, found⟩ := Option.bind_eq_some_iff.mp asked
      have fits := attentive.ledger.found found
      rw [asked] at taken
      dsimp only at taken
      split at taken
      · cases outcome : answerRequest request entry terminator false machine with
        | ok u answered =>
            rw [Action.onFault_of_ok outcome] at taken
            cases taken
            exact pending_of_answerRequest outcome
        | error failure failed =>
            have answers :=
              keeps_answerRequest closed fits entry terminator false fun _ _ => trivial
            have held := answers.finalState attentive
            rw [Action.finalState_of_error outcome] at held
            cases failure with
            | breach breach =>
                rw [Action.onFault_of_breach outcome] at taken
                cases taken
            | fault fault =>
                -- The read is abandoned, and handling the fault asks for no other one.
                rw [Action.onFault_of_fault outcome, Action.modify_bind] at taken
                have handles := keeps_handleFault (survives_quiet loaded) fault fits.instruction
                exact (handles.of_ok ⟨closed.inner held .abandon, rfl⟩ taken).1.2
      · cases taken

private theorem pending_of_listen (attentive : Attentive story machine) {awake : Machine}
    (waits : machine.phase.isWaiting = true) (listened : listen machine = .ok () awake)
    (stopped : awake.phase.isWaiting = false) : awake.pending = none := by
  unfold listen at listened
  rw [Action.bind_of_ok (attentive.requireStory _), acceptInput_eq] at listened
  obtain ⟨entry, heard, given, taken⟩ := Action.bind_eq_ok listened
  have apart := ((keeps_typed (survivesAside_aside machine)).of_ok (.refl machine) given).1
  cases entry with
  | none =>
      cases taken
      have phase : awake.phase = machine.phase := congrArg Core.phase apart.core
      rw [phase, waits] at stopped
      cases stopped
  | some text =>
      have held := (closed_attentive loaded).survivesAside _ _ attentive apart
      exact pending_of_completeInput loaded held taken

/-- The reads that events end are recorded. -/
theorem mem_ended_of_ends (attentive : Attentive story machine) {event : Event}
    (ends : event.Ends token machine) : token ∈ event.ended machine := by
  have recorded {after : Machine} (pending : machine.pending = some token)
      (none : after.pending = none) : token ∈ machine.givenUp after := by
    unfold givenUp
    rw [if_pos none, pending]
    exact List.mem_singleton_self token
  cases ends with
  | answered pending taken =>
      unfold Event.ended Event.apply
      dsimp only
      rw [Action.finalState_of_ok taken]
      exact recorded pending (pending_of_completeInput loaded attentive taken)
  | typed awaits listened idle =>
      have none := pending_of_listen loaded attentive awaits.1 listened idle
      unfold Event.ended
      dsimp only
      rw [listened]
      exact List.mem_append_left _ (recorded awaits.2 none)
  | @returned _ _ _ value _ _ executes returns nonzero popped interrupts =>
      obtain ⟨awake, polled, listened, running, sounded, decoded, rfl⟩ := executes
      have listened : listen machine = .ok () awake := listened
      have answered := untilReturn_of_comesToReturn returns
      have last : Event.ended machine .step = machine.givenUp awake ++ endedBy token value := by
        simp only [Event.ended, endedContinuing, endedNext, endedExecuting, endedOnReturn, listened,
          running, ↓reduceIte, sounded, decoded, answered, popped, interrupts, Option.toList_some,
          List.flatMap_singleton]
      rw [last]
      unfold endedBy
      rw [if_neg nonzero]
      exact List.mem_append_right _ (List.mem_singleton_self token)

end Events

end Machine

end StoryMachine
