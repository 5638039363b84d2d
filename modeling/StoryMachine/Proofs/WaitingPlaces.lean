import StoryMachine.Proofs.Answers

/-!
# Where a machine waits

A machine that waits has a pending request of the kind that it waits for, and its
program counter is on the instruction that entered the request. Whatever has a
machine wait is the last thing that an instruction does, so nothing moves the
program counter away; and since waiting breaks no rule, no handler of faults moves
it either.
-/

namespace StoryMachine

open StoryMachine.Action (Ensures Keeps EndsIn FailsOnly)

/-- The phase of a machine that waits for input of a kind. -/
def InputKind.waiting : InputKind → Phase
  | line => .waitingForLine
  | key => .waitingForKey

namespace Action

variable {σ α β : Type} {I J : σ → Prop} {Q : α → Prop} {s : σ}

/-- From a state, the action ends where an invariant holds, and after a broken rule where a stronger
one does. -/
structure Lands (I J : σ → Prop) (action : Action σ α) (s : σ) : Prop where
  ends : EndsIn I (fun _ => True) action s
  faulted : ∀ fault s', action s = .error (.fault fault) s' → J s'

namespace Lands

private theorem of_ok {action : Action σ α} {s' : σ} {a : α} (outcome : action s = .ok a s')
    (holds : I s') : Lands I J action s where
  ends := .of_ok outcome holds trivial
  faulted := by
    intro fault s'' failed
    rw [outcome] at failed
    cases failed

private theorem of_endsIn {action : Action σ α} (weaker : ∀ s, J s → I s) (reached : EndsIn J Q action s) :
    Lands I J action s where
  ends := reached.weaken weaker
  faulted := by
    intro fault s' failed
    have held := reached.finalState
    rwa [finalState_of_error failed] at held

private theorem of_eq {action other : Action σ α} {t : σ} (same : action s = other t)
    (lands : Lands I J other t) : Lands I J action s where
  ends := .of_eq same lands.ends
  faulted := fun fault s' failed => lands.faulted fault s' (same.symm.trans failed)

/-- The rest, after a first action with a known outcome. -/
theorem after {first : Action σ α} {rest : α → Action σ β} {s' : σ} {a : α}
    (outcome : first s = .ok a s') (tail : Lands I J (rest a) s') : Lands I J (first >>= rest) s :=
  .of_eq (bind_of_ok outcome) tail

private theorem get {rest : σ → Action σ β} (tail : Lands I J (rest s) s) : Lands I J (get >>= rest) s :=
  .after rfl tail

private theorem modify {change : σ → σ} {rest : PUnit → Action σ β}
    (tail : Lands I J (rest ()) (change s)) : Lands I J (modify change >>= rest) s :=
  .after rfl tail

/-- One action after the other, where the stronger invariant survives the first. -/
theorem bind {first : Action σ α} {rest : α → Action σ β} (weaker : ∀ s, J s → I s)
    (head : EndsIn J Q first s) (tail : ∀ a s, J s → Q a → Lands I J (rest a) s) :
    Lands I J (first >>= rest) s := by
  unfold EndsIn at head
  cases outcome : first s with
  | ok a s' =>
      rw [outcome] at head
      exact .after outcome (tail a s' head.1 head.2)
  | error failure s' =>
      rw [outcome] at head
      refine .of_endsIn (Q := fun _ => True) weaker ?_
      exact .afterError outcome head

/-- An action after the last that can break a rule. -/
theorem close {first : Action σ α} {rest : α → Action σ β} (lands : Lands I J first s)
    (kept : ∀ a, Keeps I (rest a))
    (unfailing : ∀ a s', ∃ b s'', rest a s' = .ok b s'') : Lands I J (first >>= rest) s where
  ends := lands.ends.bind (fun _ held => held) fun a s' held _ => kept a s' held
  faulted := by
    intro fault s'' failed
    rcases bind_eq_error failed with failed | ⟨a, s', -, failed⟩
    · exact lands.faulted fault s'' failed
    · obtain ⟨b, after, went⟩ := unfailing a s'
      rw [went] at failed
      cases failed

/-- A handler of faults starts where the stronger invariant holds. -/
theorem onFault {action : Action σ α} {handler : Fault → Action σ α} (lands : Lands I J action s)
    (handled : ∀ fault s', J s' → EndsIn I (fun _ => True) (handler fault) s') :
    EndsIn I (fun _ => True) (action.onFault handler) s := by
  have ended := lands.ends.finalState
  cases outcome : action s with
  | ok a s' =>
      rw [finalState_of_ok outcome] at ended
      exact .of_ok (onFault_of_ok outcome) ended trivial
  | error failure s' =>
      rw [finalState_of_error outcome] at ended
      cases failure with
      | fault fault =>
          have held := lands.faulted fault s' outcome
          exact .of_eq (onFault_of_fault outcome) (handled fault s' held)
      | breach breach => exact .of_error (onFault_of_breach outcome) ended

end Lands

end Action

open StoryMachine.Action (Lands)

private theorem Sink.breaches_flush {sink : Sink} {failure : Failure}
    (failed : sink.flush = .error failure) : failure.IsBreach := by
  unfold Sink.flush at failed
  split at failed
  · cases failed
  · split at failed
    · cases failed
      exact ⟨_, rfl⟩
    · cases failed

namespace Machine

variable {machine after : Machine} {story : Story} {memory : GameMemory} {instruction : Instruction}
  {request : InputRequest} {token : Nat}

/-- The machine waits for a request, on the instruction that entered it. -/
structure WaitsFor (machine : Machine) (request : InputRequest) : Prop where
  entered : machine.request? request.token = some request
  pending : machine.pending = some request.token
  phase : machine.phase = request.kind.waiting
  place : request.instruction.map Instruction.address = some machine.pc

private theorem WaitsFor.of_beside (waits : machine.WaitsFor request)
    (requests : after.requests = machine.requests) (pending : after.pending = machine.pending)
    (phase : after.phase = machine.phase) (pc : after.pc = machine.pc) :
    after.WaitsFor request where
  entered := by
    unfold request?
    rw [requests]
    exact waits.entered
  pending := pending.trans waits.pending
  phase := phase.trans waits.phase
  place := by
    rw [pc]
    exact waits.place

/-- If the machine waits, then for a request in its place. -/
def Placed (machine : Machine) : Prop :=
  machine.phase.isWaiting = true → ∃ request, machine.WaitsFor request

private theorem Placed.of_beside (placed : machine.Placed) (requests : after.requests = machine.requests)
    (pending : after.pending = machine.pending) (phase : after.phase = machine.phase)
    (pc : after.pc = machine.pc) : after.Placed := by
  intro waits
  rw [phase] at waits
  obtain ⟨request, waited⟩ := placed waits
  exact ⟨request, waited.of_beside requests pending phase pc⟩

/-- What has been typed for a request does not change what it is. -/
theorem request?_retype {number : Nat} (found : machine.request? number = some request)
    (token : Nat) {change : InputRequest → InputRequest}
    (same : ∀ request, change request =
      { request with initial := (change request).initial, typed := (change request).typed }) :
    ∃ again, again.token = request.token ∧ again.kind = request.kind ∧
      again.instruction = request.instruction ∧
      request? { machine with requests := machine.requests.modify (token - 1) change } number =
        some again := by
  obtain ⟨index, rfl, -⟩ := exists_index_of_request? found
  have listed : machine.requests[index]? = some request := found
  have modified : request? { machine with
      requests := machine.requests.modify (token - 1) change } (index + 1) =
        (machine.requests.modify (token - 1) change)[index]? := rfl
  rw [modified, Array.getElem?_modify, listed]
  split
  · exact ⟨change request, by rw [same], by rw [same], by rw [same], rfl⟩
  · exact ⟨request, rfl, rfl, rfl, rfl⟩

private theorem Placed.retype (placed : machine.Placed) (token : Nat)
    {change : InputRequest → InputRequest}
    (same : ∀ request, change request =
      { request with initial := (change request).initial, typed := (change request).typed }) :
    Placed { machine with requests := machine.requests.modify (token - 1) change } := by
  intro waits
  obtain ⟨request, entered, pending, phase, place⟩ := placed waits
  obtain ⟨again, named, kind, instruction, found⟩ := request?_retype entered token same
  refine ⟨again, ?_, ?_, ?_, ?_⟩
  · rw [named]
    exact found
  · rw [named]
    exact pending
  · rw [kind]
    exact phase
  · rw [instruction]
    exact place

/-- The machine is in good order, and if it waits, then in the place of its request. -/
structure Parked (story : Story) (machine : Machine) : Prop where
  attentive : Attentive story machine
  placed : machine.Placed

/-- A machine without anything going on is parked. -/
theorem Idle.parked (idle : Idle story machine) : Parked story machine where
  attentive := idle.attentive
  placed := by
    intro waits
    rw [idle.quiet] at waits
    cases waits

private theorem Parked.idle (parked : Parked story machine) (quiet : machine.phase.isWaiting = false) :
    Idle story machine :=
  ⟨parked.attentive, quiet⟩

private theorem Idle.of_core (idle : Idle story machine) (same : after.core = machine.core) :
    Idle story after := by
  obtain ⟨⟨protects, ledger, attends⟩, quiet⟩ := idle
  have phase : after.phase = machine.phase := congrArg Core.phase same
  refine ⟨⟨?_, ?_, ?_⟩, ?_⟩
  · rwa [same]
  · rwa [same]
  · rwa [same]
  · rwa [phase]

private theorem breaches_flush : FailsOnly (fun _ => True) (fun failure _ => failure.IsBreach) flush := by
  have sink {part : Machine → Option Sink} {withPart : Option Sink → Machine → Machine} :
      FailsOnly (fun _ => True) (fun failure _ => failure.IsBreach) (flushSink part withPart) := by
    refine .get fun machine _ => ?_
    split
    · exact .pure _
    · exact .ask (fun _ _ failed => Sink.breaches_flush failed) fun _ _ => .modify _
  have kept : Keeps (fun _ => True) flushTranscript :=
    keeps_flushTranscript fun _ _ _ _ => trivial
  exact .seq sink kept fun _ => sink

/-- A machine that has been made to wait for a request waits on the request's instruction. -/
theorem WaitsFor.of_suspend (found : machine.request? request.token = some request)
    (asked : request.instruction = some instruction)
    (core : after.core =
      { machine.core with
        pending := some request.token
        pc := instruction.address
        phase := request.kind.waiting }) : after.WaitsFor request where
  entered := by
    have requests : after.requests = machine.requests := congrArg Core.requests core
    unfold request?
    rw [requests]
    exact found
  pending := congrArg Core.pending core
  phase := congrArg Core.phase core
  place := by
    have pc : after.pc = instruction.address := congrArg Core.pc core
    rw [asked, pc]
    rfl

private theorem survivesAside_parked (loaded : Story.load story.data = .ok (story, memory)) :
    SurvivesAside (Parked story) := by
  intro machine after parked apart
  refine ⟨(closed_attentive loaded).survivesAside _ _ parked.attentive apart, ?_⟩
  exact parked.placed.of_beside (congrArg Core.requests apart.core)
    (congrArg Core.pending apart.core) (congrArg Core.phase apart.core)
    (congrArg Core.pc apart.core)

/-! ## Actions that may have the machine wait -/

section Actions

variable (loaded : Story.load story.data = .ok (story, memory))

include loaded

private theorem lands_suspend (idle : Idle story machine) (token : Nat) :
    Lands (Parked story) (Idle story) (suspend token) machine := by
  refine .get ?_
  cases found : machine.request? token with
  | none => exact .of_ok rfl idle.parked
  | some request =>
      have waiting : Parked story { machine with
          pending := some token
          pc := (request.instruction.map Instruction.address).getD machine.pc
          phase := if request.kind = .line then .waitingForLine else .waitingForKey } := by
        refine ⟨(closed_attentive loaded).of_allowed trivial idle.attentive (.suspend found), ?_⟩
        obtain ⟨instruction, asked, -⟩ := idle.attentive.ledger.found found
        obtain rfl := idle.attentive.token_of_request? found
        refine fun _ => ⟨request, .of_suspend found asked ?_⟩
        unfold core
        rw [asked]
        cases request.kind <;> rfl
      refine .modify ⟨keeps_flush (survivesAside_parked loaded) _ waiting, ?_⟩
      intro fault failed broke
      obtain ⟨breach, none_eq⟩ := breaches_flush _ _ _ trivial broke
      cases none_eq

private theorem lands_interruptReturned (idle : Idle story machine) (token : Nat) (value : Int) :
    Lands (Parked story) (Idle story) (interruptReturned token value) machine := by
  have survives := survives_idle loaded
  refine .get ?_
  cases found : machine.request? token with
  | none => exact .of_ok rfl idle.parked
  | some request =>
      have fits := idle.attentive.ledger.found found
      have recalled : Idle story { machine with pending := some token } :=
        ⟨(closed_attentive loaded).of_allowed trivial idle.attentive (.recall found), idle.quiet⟩
      refine .modify ?_
      split
      · refine .of_endsIn (Q := fun _ => True) (fun _ => Idle.parked) ?_
        cases request.kind with
        | line => exact keeps_finishLine survives fits _ _ (.inl rfl) _ recalled
        | key => exact keeps_finishKey survives fits _ _ recalled
      · refine .modify (lands_suspend loaded ?_ token)
        exact survives.inner recalled (.retype fun _ => rfl)

private theorem lands_returnFromRoutine (idle : Idle story machine) (value : Int) :
    Lands (Parked story) (Idle story) (returnFromRoutine value) machine := by
  have survives := survives_idle loaded
  have run := leave_eq machine
  cases popped : machine.work.calls.pop with
  | error failure =>
      rw [popped] at run
      refine .of_endsIn (Q := fun _ => True) (fun _ => Idle.parked) ?_
      exact .afterError run idle
  | ok pair =>
      obtain ⟨frame, calls⟩ := pair
      have stays : MoveKind.leave ≠ .wait := nofun
      have left : Idle story { machine with work.calls := calls } :=
        survives.of_allowed stays idle (.leave (CallStack.leftFrom_pop popped))
      cases interrupt : frame.interrupt with
      | none =>
          have returned : Idle story { machine with work.calls := calls, pc := frame.returnTo } :=
            survives.of_allowed stays idle (.goBack popped)
          refine .of_endsIn (fun _ => Idle.parked) (endsIn_returnFromRoutine survives popped ?_
            left returned value)
          exact fun some => absurd interrupt some
      | some token =>
          rw [popped] at run
          refine .after run ?_
          rw [interrupt]
          exact lands_interruptReturned loaded left token value

private theorem lands_takeBranch (idle : Idle story machine) (offset next : Int) :
    Lands (Parked story) (Idle story) (takeBranch offset next) machine := by
  unfold takeBranch
  split
  · exact lands_returnFromRoutine loaded idle offset
  · exact .of_ok rfl ((survives_idle loaded).inner idle (.goTo trivial)).parked

private theorem lands_followBranch (idle : Idle story machine) (outcome : Bool) :
    Lands (Parked story) (Idle story) (followBranch instruction outcome) machine := by
  have moved : Lands (Parked story) (Idle story) (goTo instruction.nextAddress) machine :=
    .of_ok rfl ((survives_idle loaded).inner idle (.goTo trivial)).parked
  unfold followBranch
  split
  · split
    · exact lands_takeBranch loaded idle _ _
    · exact moved
  · exact moved

private theorem lands_settle (idle : Idle story machine) (fits : instruction.Fits fun _ => True)
    {next : Next} (asked : next.Fits instruction) :
    Lands (Parked story) (Idle story) (settle instruction next) machine := by
  have survives := survives_idle loaded
  have stays (may : ∀ kind, next.Needs instruction kind → kind ≠ .wait) :
      Lands (Parked story) (Idle story) (settle instruction next) machine :=
    .of_endsIn (fun _ => Idle.parked) (keeps_settle survives fits asked may machine idle)
  cases next with
  | branch outcome => exact lands_followBranch loaded idle outcome
  | storeAndBranch value outcome =>
      refine .bind (fun _ => Idle.parked) (keeps_storeResult survives fits value machine idle) ?_
      exact fun _ stored held _ => lands_followBranch loaded held outcome
  | «return» value => exact lands_returnFromRoutine loaded idle value
  | read token => exact lands_suspend loaded idle token
  | call address storeTo arguments => exact stays fun kind needs => needs ▸ nofun
  | restart => exact stays fun kind needs => needs ▸ nofun
  | _ => exact stays fun kind needs => needs.elim

/-! ## Other games -/

private theorem lands_resumeAfterSave (idle : Idle story machine) (pc : Int) :
    Lands (Parked story) (Idle story) (resumeAfterSave pc) machine := by
  have survives := survives_idle loaded
  refine .get ?_
  split
  · refine .bind (fun _ => Idle.parked) (keeps_ask _ machine idle) ?_
    rintro ⟨branch, next⟩ asked held -
    dsimp only
    split
    · exact lands_takeBranch loaded held _ _
    · exact .of_ok rfl (survives.inner held (.goTo trivial)).parked
  · refine .bind (fun _ => Idle.parked) (keeps_ask _ machine idle) fun target asked held _ => ?_
    refine .of_endsIn (Q := fun _ => True) (fun _ => Idle.parked) ?_
    exact endsIn_store_goTo survives
      (fun changes => Workspace.keeps_setVariable changes target 2 false) held
      (survives.inner held (.goTo trivial))

private theorem lands_resume {game : SavedGame}
    (size : (game.dynamic.length : Int) = machine.work.memory.dynamicEnd)
    (replaced : Idle story (machine.withSnapshot game)) {rest : Play Bool}
    (kept : Keeps (Parked story) rest) (unfailing : ∀ done, ∃ b closed, rest done = .ok b closed) :
    Lands (Parked story) (Idle story)
      (do applySnapshot game; resumeAfterSave game.pc; rest) machine := by
  have run := applySnapshot_eq game machine
  rw [if_pos size] at run
  refine .after run ?_
  exact (lands_resumeAfterSave loaded replaced game.pc).close (fun _ => kept) fun _ => unfailing

private theorem lands_restore (idle : Idle story machine) :
    Lands (Parked story) (Idle story) restore machine := by
  have survives := survives_idle loaded
  have replaces : MoveKind.replace ≠ .wait := nofun
  have fetched := endsIn_fetch machine
  unfold EndsIn at fetched
  cases outcome : orLogged "Restore" none fetch machine with
  | error failure after =>
      rw [outcome] at fetched
      refine .of_endsIn (Q := fun _ => True) (fun _ => Idle.parked) ?_
      exact .afterError outcome (survives.survivesAside _ _ idle fetched)
  | ok game? after =>
      rw [outcome] at fetched
      obtain ⟨apart, accepted⟩ := fetched
      have kept := survives.survivesAside _ _ idle apart
      refine .after outcome ?_
      cases game? with
      | none => exact .of_ok rfl kept.parked
      | some game =>
          obtain ⟨data, accepted⟩ := accepted game rfl
          rw [← accept_congr apart.core] at accepted
          obtain ⟨decoded, -, size, -⟩ := accept_eq_ok accepted
          have replaced := survives.restored replaces kept decoded size
          refine lands_resume loaded size replaced ?_ fun done => ⟨true, _, rfl⟩
          exact .seq (keeps_note (survivesAside_parked loaded) _ _ _) fun _ => .pure trivial

private theorem lands_restoreUndo (idle : Idle story machine) :
    Lands (Parked story) (Idle story) restoreUndo machine := by
  have survives := survives_idle loaded
  have replaces : MoveKind.replace ≠ .wait := nofun
  refine .get ?_
  cases newest : machine.undo with
  | nil => exact .of_ok rfl idle.parked
  | cons game rest =>
      refine .modify ?_
      by_cases size : (game.dynamic.length : Int) = machine.work.memory.dynamicEnd
      · have replaced := survives.of_allowed replaces idle (.undo newest size)
        refine lands_resume loaded ?_ replaced (.pure trivial) fun done => ⟨true, done, rfl⟩
        exact size
      · have dropped := survives.of_allowed replaces idle (.dropUndo newest)
        have run := applySnapshot_eq game { machine with undo := rest }
        rw [if_neg size] at run
        refine .of_endsIn (Q := fun _ => True) (fun _ => Idle.parked) ?_
        exact .afterError run dropped

/-! ## Executing an instruction -/

private theorem lands_perform_restoring (idle : Idle story machine)
    (restores : instruction.opcode.operation = .restore ∨
      instruction.opcode.operation = .restoreUndo) (values : List Int) :
    Lands (Parked story) (Idle story) (perform instruction values) machine := by
  unfold perform
  refine .get ?_
  rcases restores with restores | undoes
  · simp only [restores]
    split
    · refine .of_endsIn (Q := fun _ => True) (fun _ => Idle.parked) ?_
      have noted := keeps_note (survives_idle loaded).survivesAside .warning
        "zmachine.instructions" "restore of a memory table is not supported"
      exact noted.seq (fun _ => .pure trivial) machine idle
    · refine (lands_restore loaded idle).close (fun restored => ?_) fun restored after => ?_
      · split
        · exact .pure trivial
        split
        · exact .pure trivial
        · exact .pure trivial
      · split
        · exact ⟨_, after, rfl⟩
        split
        · exact ⟨_, after, rfl⟩
        · exact ⟨_, after, rfl⟩
  · simp only [undoes]
    refine (lands_restoreUndo loaded idle).close (fun restored => ?_) fun restored after => ?_
    · split
      · exact .pure trivial
      · exact .pure trivial
    · split
      · exact ⟨_, after, rfl⟩
      · exact ⟨_, after, rfl⟩

private theorem lands_executeInstruction (idle : Idle story machine)
    (fits : instruction.Fits fun _ => True) (few : instruction.operands.length ≤ 8)
    (listed : instruction.opcode ∈ Opcode.all) :
    Lands (Parked story) (Idle story) (executeInstruction instruction) machine := by
  have survives := survives_idle loaded
  refine .bind (fun _ => Idle.parked) (ensures_operandValues survives few listed machine idle) ?_
  intro values read held given
  by_cases restores : instruction.opcode.operation = .restore ∨
      instruction.opcode.operation = .restoreUndo
  · have performs := lands_perform_restoring loaded held restores values
    cases performed : perform instruction values read with
    | error failure failed =>
        refine ⟨.afterError performed ?_, fun fault after broke => ?_⟩
        · have ended := performs.ends.finalState
          rwa [Action.finalState_of_error performed] at ended
        · rw [Action.bind_of_error performed] at broke
          cases broke
          exact performs.faulted _ _ performed
    | ok next done =>
        refine .after performed ?_
        -- Either another game is in place and nothing is left to settle, or nothing has changed.
        rcases perform_restoring held.attentive.protects restores performed with rfl | same
        · have ended := performs.ends.finalState
          rw [Action.finalState_of_ok performed] at ended
          exact .of_ok rfl ended
        · have asked := ((ensures_perform (closed_attentive loaded) fits given.1 given.2
            fun _ _ => trivial).of_ok held.attentive performed).2
          exact lands_settle loaded (held.of_core same) fits asked
  · have may (kind : MoveKind) (needs : instruction.opcode.operation.Needs kind) :
        kind ≠ .wait := by
      rcases Operation.eq_of_needs needs with throws | others
      · rw [throws] at needs
        exact needs ▸ nofun
      · exact absurd others restores
    refine .bind (fun _ => Idle.parked)
      (ensures_perform survives fits given.1 given.2 may read held) ?_
    exact fun next done performed asked => lands_settle loaded performed fits asked

/-- A machine that does not wait executes an instruction and waits in the place of a request, if it
waits at all. -/
theorem parked_execute (idle : Idle story machine) :
    EndsIn (Parked story) (fun _ => True) execute machine := by
  have survives := survives_idle loaded
  cases decoded : machine.instructionAt machine.pc with
  | error failure =>
      refine EndsIn.get ?_
      rw [decoded]
      cases failure with
      | fault fault =>
          exact (keeps_handleOutside survives fault machine idle).weaken fun _ => Idle.parked
      | breach breach => exact .of_error rfl idle.parked
  | ok instruction =>
      have within := Instruction.within_of_read decoded
      have fits : instruction.Fits fun _ => True := within.fits fun _ _ => trivial
      have taken : Idle story (machine.taking instruction) :=
        survives.survivesAside _ _ idle ⟨rfl, rfl⟩
      have lands := lands_executeInstruction loaded taken fits within.operands
        (Instruction.opcode_mem_all_of_read decoded)
      refine .of_eq (execute_eq decoded) (lands.onFault fun fault failed held => ?_)
      have handles := keeps_handleFault survives fault fun found same => Option.some.inj same ▸ fits
      exact (handles failed held).weaken fun _ => Idle.parked

private theorem parked_continues (parked : Parked story machine) :
    EndsIn (Parked story) (fun _ => True) continues machine := by
  refine EndsIn.get ?_
  split
  · rename_i running
    have idle : Idle story machine := parked.idle (congrArg Phase.isWaiting running)
    refine EndsIn.bind (keeps_pollSounds (survives_idle loaded) nofun machine idle)
      (fun _ => Idle.parked) ?_
    exact fun _ polled held _ => parked_execute loaded held
  · exact .of_ok rfl parked trivial

/-! ## Answers -/

private theorem keeps_parked_onMemory {α : Type} {action : GameMemory.Edit α}
    (edit : ∀ {J : GameMemory → Prop}, GameMemory.SurvivesWrites J → Keeps J action) :
    Keeps (Parked story) (onMemory action) := by
  intro machine parked
  have attentive := (closed_attentive loaded).onMemory edit machine parked.attentive
  have placed : Keeps Placed (onMemory action) :=
    keeps_beside_onWork (fun _ _ placed => placed.of_beside rfl rfl rfl rfl) _
  exact (attentive.and (placed machine parked.placed)).weaken fun _ held => ⟨held.1, held.2⟩

private theorem parked_finish (parked : Parked story machine) (fits : request.Fits fun _ => True)
    (value : Int) :
    EndsIn (Parked story) (fun _ => True)
      (do finishRequest request; storeAnswer request value) machine := by
  have finished := (closed_attentive loaded).inner parked.attentive (.finish fits)
  refine EndsIn.modify ?_
  exact (keeps_storeAnswer (survives_idle loaded) request value _ ⟨finished, rfl⟩).weaken
    fun _ => Idle.parked

private theorem parked_finishLine (parked : Parked story machine) (fits : request.Fits fun _ => True)
    (entry : Entry) (terminator : Int) :
    EndsIn (Parked story) (fun _ => True) (finishLine request entry terminator) machine := by
  have fills (buffer : Int) (codes : List Int) :
      Keeps (Parked story) (fillTextBuffer buffer codes) := by
    unfold fillTextBuffer
    refine .get fun machine _ => ?_
    split
    all_goals
      refine .seq ?_ fun _ => .pure trivial
      exact keeps_parked_onMemory loaded fun edit => GameMemory.keeps_writeRun edit _ _
  have finishes : Keeps (Parked story) (do finishRequest request; storeAnswer request terminator) :=
    fun machine parked => parked_finish loaded parked fits terminator
  have lines : Keeps (Parked story) (finishLine request entry terminator) := by
    unfold finishLine
    split
    · exact .refuse _
    · refine .get fun machine _ => .seq (fills _ _) fun offset => ?_
      refine .check (keeps_commandEntered (survivesAside_parked loaded) _) fun _ => ?_
      dsimp only
      split
      · refine .seq ?_ fun _ => finishes
        exact keeps_parked_onMemory loaded fun edit => Dictionary.keeps_tokenise edit _ _ _ _ _
      · exact finishes
  exact lines machine parked

private theorem parked_answerRequest (parked : Parked story machine) (fits : request.Fits fun _ => True)
    (entry : Entry) (terminator : Int) (timedOut : Bool) :
    EndsIn (Parked story) (fun _ => True) (answerRequest request entry terminator timedOut)
      machine := by
  have closed := closed_attentive loaded
  unfold answerRequest
  split
  · refine EndsIn.modify ?_
    have typed : Attentive story { machine with
        requests := machine.requests.modify (request.token - 1) fun request =>
          { request with typed := some entry } } :=
      closed.inner parked.attentive (.retype fun _ => rfl)
    split
    · have interrupted : Idle story (machine.interruptedBy request.token entry) :=
        ⟨closed.inner typed .interrupt, rfl⟩
      have few : ([] : List Int).length ≤ 7 := Nat.zero_le 7
      refine EndsIn.modify (EndsIn.get ?_)
      refine (endsIn_callRoutine (survives_idle loaded) nofun interrupted (.inl trivial) ?_
        few).weaken fun _ => Idle.parked
      intro target none_eq
      cases none_eq
    · exact .of_ok rfl ⟨typed, parked.placed.retype request.token fun _ => rfl⟩ trivial
  · split
    · exact parked_finishLine loaded parked fits entry terminator
    · exact EndsIn.get (parked_finish loaded parked fits _)

private theorem parked_completeInput (parked : Parked story machine) (token : Option Nat) (entry : Entry)
    (terminator : Int) (timedOut : Bool) :
    EndsIn (Parked story) (fun _ => True) (completeInput token entry terminator timedOut)
      machine := by
  unfold completeInput
  refine EndsIn.get ?_
  split
  · exact .of_error rfl parked
  · rename_i request asked
    obtain ⟨number, -, found⟩ := Option.bind_eq_some_iff.mp asked
    have fits := parked.attentive.ledger.found found
    split
    · refine (parked_answerRequest loaded parked fits entry terminator timedOut).onFault ?_
      intro fault failed held
      have abandoned := (closed_attentive loaded).inner held.attentive .abandon
      refine EndsIn.modify ?_
      exact (keeps_handleFault (survives_idle loaded) fault fits.instruction _
        ⟨abandoned, rfl⟩).weaken fun _ => Idle.parked
    · exact .of_error rfl parked

/-! ## Events -/

private theorem parked_step (parked : Parked story machine) :
    EndsIn (Parked story) (fun _ => True) step machine := by
  have listens : Keeps (Parked story) listen := by
    refine .seq (keeps_requireStory _) fun _ => ?_
    rw [acceptInput_eq]
    refine .seq (keeps_typed (survivesAside_parked loaded)) fun entry => ?_
    cases entry with
    | none => exact .pure trivial
    | some text => exact .get fun _ _ _ parked => parked_completeInput loaded parked _ _ _ _
  rw [step_eq]
  exact (listens machine parked).bind (fun _ held => held) fun _ awake held _ =>
    parked_continues loaded held

/-- Every event leaves the machine waiting in place, if it waits. -/
theorem parked_event (parked : Parked story machine) (event : Event) :
    Parked story (event.apply machine) := by
  cases event with
  | step => exact (parked_step loaded parked).finalState
  | answer token entry terminator timedOut =>
      exact (parked_completeInput loaded parked token entry terminator timedOut).finalState
  | quit =>
      have halts : EndsIn (Parked story) (fun _ => True) quit machine := by
        refine EndsIn.bind (keeps_note (survivesAside_parked loaded) _ _ _ machine parked)
          (fun _ held => held) fun _ noted held _ => ?_
        have halted := (closed_attentive loaded).inner held.attentive .halt
        have parked := Idle.parked ⟨halted, rfl⟩
        exact EndsIn.modify (keeps_flush (survivesAside_parked loaded) _ parked)
      exact halts.finalState
  | outside storage disk input sound screen =>
      exact survivesAside_parked loaded _ _ parked ⟨rfl, rfl⟩

/-- A parked machine is parked after every run. -/
theorem parked_after (parked : Parked story machine) (events : List Event) :
    Parked story (machine.after events) := by
  induction events generalizing machine with
  | nil => exact parked
  | cons event rest ih => exact ih (parked_event loaded parked event)

end Actions

end Machine

end StoryMachine
