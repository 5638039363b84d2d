import StoryMachine.Proofs.EndedReads

/-!
# Answers

An answer to a request that is not pending is refused and changes nothing. The read
of a request ends at most once in a run, unless its answer comes while the request
is pending but the machine does not wait for it, or an undo brings a routine of the
request back.
-/

namespace StoryMachine

open StoryMachine.Action (Ensures Keeps EndsIn)

namespace Machine

variable {machine after start : Machine} {story : Story} {memory : GameMemory}
  {instruction : Instruction} {token : Nat}

/-! ## Reads that are over -/

private theorem givenUp_of_pending (pending : after.pending = machine.pending) :
    machine.givenUp after = [] := by
  unfold givenUp
  rw [pending]
  split
  · rename_i nothing
    rw [nothing]
    rfl
  · rfl

/-- A read that is over was waited for. -/
theorem Follows.spends (follows : Follows story token start machine)
    (calm : start.pending = some token → start.phase.isWaiting = true) :
    EndsWithin story token ((start.givenUp machine).count token)
      (start.endsLeft token) machine := by
  refine ⟨follows.attentive, ?_⟩
  by_cases gone : machine.pending = none
  · unfold givenUp
    rw [if_pos gone]
    by_cases pending : start.pending = some token
    · have stopped : ¬ machine.Awaits token := by
        rintro ⟨-, still⟩
        rw [gone] at still
        cases still
      rw [pending, Option.toList_some, List.count_singleton_self]
      exact follows.endsLeft_lt ⟨calm pending, pending⟩ stopped
    · have other : token ∉ start.pending.toList := by
        simpa [Option.mem_toList] using pending
      rw [List.count_eq_zero_of_not_mem other]
      exact follows.endsLeft_le
  · unfold givenUp
    rw [if_neg gone]
    exact follows.endsLeft_le

private theorem phase_restarted (machine : Machine) (story : Story) (memory : GameMemory) :
    (machine.restarted story memory).phase = .running := by
  unfold restarted
  exact congrArg Core.phase (core_begun _)

private theorem MoveFrom.idle {reach : Int → Prop} {kind : MoveKind} (move : Move reach kind machine after)
    (stays : kind ≠ .wait) (idle : machine.phase.isWaiting = false) :
    after.phase.isWaiting = false := by
  cases move with
  | aside apart =>
      have phase : after.phase = machine.phase := congrArg Core.phase apart.core
      rw [phase]
      exact idle
  | suspend => exact absurd rfl stays
  | «recall» => exact absurd rfl stays
  | undo newest size => exact (congrArg Phase.isWaiting (phase_withSnapshot _ _)).trans idle
  | restore decoded size => exact (congrArg Phase.isWaiting (phase_withSnapshot _ _)).trans idle
  | restart loaded => exact congrArg Phase.isWaiting (phase_restarted _ _ _)
  | finish => rfl
  | interrupt => rfl
  | abandon => rfl
  | halt => rfl
  | _ => exact idle

/-- The machine is in good order and does not wait. -/
structure Idle (story : Story) (machine : Machine) : Prop where
  attentive : Attentive story machine
  quiet : machine.phase.isWaiting = false

/-- A machine that does not wait goes on not to wait, unless a move has it wait. -/
theorem survives_idle (loaded : Story.load story.data = .ok (story, memory)) :
    Survives (fun _ => True) (· ≠ .wait) (Idle story) where
  move := by
    intro kind machine after stays idle move
    refine ⟨(closed_attentive loaded).of_allowed trivial idle.attentive move, ?_⟩
    refine move.idle ?_ idle.quiet
    rcases stays with rfl | other
    · exact nofun
    · exact other
  near := fun _ _ => trivial
  ledger := fun idle found => idle.attentive.ledger.found found

/-- A request is found under its own number. -/
theorem Attentive.token_of_request? (attentive : Attentive story machine) {request : InputRequest}
    (found : machine.request? token = some request) : request.token = token := by
  obtain ⟨index, rfl, -⟩ := exists_index_of_request? found
  exact attentive.attends.numbered index request found

/-- The machine that goes on because the time of a request ran out. -/
def interruptedBy (machine : Machine) (number : Nat) (entry : Entry) : Machine :=
  { machine with
    requests := machine.requests.modify (number - 1) fun request =>
      { request with typed := some entry }
    phase := .running }

private theorem answerRequest_timedOut (machine : Machine) {request : InputRequest}
    (called : request.routine ≠ 0) (entry : Entry) (terminator : Int) :
    answerRequest request entry terminator true machine =
      callRoutine (machine.story.version.unpackRoutine request.routine)
        ((request.instruction.map Instruction.address).getD 0) none [] (some request.token)
        (machine.interruptedBy request.token entry) := by
  unfold answerRequest
  simp only [↓reduceIte, ne_eq, called, not_false_eq_true]
  rfl

private theorem pending_of_callRoutine {address returnTo : Int} {storeTo : Option Int}
    {arguments : List Int} {interrupt : Option Nat}
    (called : callRoutine address returnTo storeTo arguments interrupt machine = .ok () after) :
    after.pending = machine.pending := by
  rw [callRoutine_eq] at called
  split at called
  · split at called <;> cases called
    rfl
  · cases called

section Events

variable (loaded : Story.load story.data = .ok (story, memory))

include loaded

/-! ## Answers -/

/-- When the time of a request runs out, the chance to end its read passes to its routine; if the
routine cannot be called, the read is over. -/
theorem spends_timeout (attentive : Attentive story machine) {number : Nat} {request : InputRequest}
    (found : machine.request? number = some request) (pending : machine.pending = some number)
    (calm : machine.pending = some token → machine.phase.isWaiting = true)
    (called : request.routine ≠ 0) (entry : Entry) (terminator : Int) :
    EndsIn
      (fun after => EndsWithin story token ((machine.givenUp after).count token)
        (machine.endsLeft token) after)
      (fun _ => True)
      ((answerRequest request entry terminator true).onFault fun fault => do
        modify fun machine => { machine with pending := none, phase := .running }
        handleFault fault request.instruction) machine := by
  have survives := survives_follows loaded token machine
  have typed : Follows story token machine { machine with
      requests := machine.requests.modify (number - 1) fun request =>
        { request with typed := some entry } } :=
    survives.inner (.refl attentive) (.retype fun _ => rfl)
  have follows : Follows story token machine (machine.interruptedBy number entry) :=
    survives.inner typed .interrupt
  have run := answerRequest_timedOut machine called entry terminator
  rw [attentive.token_of_request? found] at run
  have calls := endsWithin_callPlain loaded follows.attentive
    (machine.story.version.unpackRoutine request.routine)
    ((request.instruction.map Instruction.address).getD 0) (some number) token
  cases outcome : callRoutine (machine.story.version.unpackRoutine request.routine)
      ((request.instruction.map Instruction.address).getD 0) none [] (some number)
      (machine.interruptedBy number entry) with
  | ok u entered =>
      have still : entered.pending = machine.pending := (pending_of_callRoutine outcome).trans rfl
      have bounded := calls.finalState
      rw [Action.finalState_of_ok outcome] at bounded
      refine .of_ok (Action.onFault_of_ok (run.trans outcome)) ?_ trivial
      rw [givenUp_of_pending still]
      refine bounded.mono (le_refl _) ?_
      rw [Option.toList_some]
      by_cases same : number = token
      · -- The frame that is entered takes over the chance of waiting.
        subst same
        rw [List.count_singleton_self]
        exact follows.endsLeft_lt ⟨calm pending, pending⟩ (not_awaits rfl _)
      · rw [List.count_eq_zero_of_not_mem (by simpa using Ne.symm same)]
        exact follows.endsLeft_le
  | error failure failed =>
      obtain rfl := callRoutine_eq_error outcome
      cases failure with
      | fault fault =>
          refine .of_eq (Action.onFault_of_fault (run.trans outcome)) ?_
          have abandons := keeps_abandon survives (attentive.ledger.found found) fault
          exact (abandons _ follows).weaken fun _ held => held.spends calm
      | breach breach =>
          exact .of_error (Action.onFault_of_breach (run.trans outcome)) (follows.spends calm)

/-- An answer to a request that the machine waits for uses up a chance of the read that it ends. -/
theorem spends_completeInput (attentive : Attentive story machine) {number : Option Nat}
    (calm : number = some token → machine.pending = some token → machine.phase.isWaiting = true)
    (entry : Entry) (terminator : Int) (timedOut : Bool) :
    EndsIn
      (fun after => EndsWithin story token ((machine.givenUp after).count token)
        (machine.endsLeft token) after)
      (fun _ => True) (completeInput number entry terminator timedOut) machine := by
  have refused : EndsWithin story token ((machine.givenUp machine).count token)
      (machine.endsLeft token) machine := by
    rw [givenUp_of_pending rfl]
    exact ⟨attentive, le_refl _⟩
  unfold completeInput
  refine EndsIn.get ?_
  cases asked : number.bind machine.request? with
  | none => exact .of_error rfl refused
  | some request =>
      obtain ⟨given, rfl, found⟩ := Option.bind_eq_some_iff.mp asked
      dsimp only
      split
      · rename_i pending
        rw [attentive.token_of_request? found] at pending
        have calm : machine.pending = some token → machine.phase.isWaiting = true :=
          fun same => calm (pending.symm.trans same) same
        by_cases late : timedOut = true ∧ request.routine ≠ 0
        · obtain ⟨rfl, called⟩ := late
          exact spends_timeout loaded attentive found pending calm called entry terminator
        · have survives := survives_follows loaded token machine
          have fits := attentive.ledger.found found
          have answers : Keeps (Follows story token machine)
              (answerRequest request entry terminator timedOut) :=
            keeps_answerRequest survives fits entry terminator timedOut fun timed called =>
              absurd ⟨timed, called⟩ late
          have handled := answers.onFault (keeps_abandon survives fits)
          exact (handled machine (.refl attentive)).weaken fun _ follows => follows.spends calm
      · exact .of_error rfl refused

/-! ## Steps -/

private theorem spends_listen (attentive : Attentive story machine) (token : Nat) :
    EndsIn
      (fun awake => EndsWithin story token ((machine.givenUp awake).count token)
        (machine.endsLeft token) awake)
      (fun _ => True) listen machine := by
  by_cases waits : machine.phase.isWaiting = true
  · have listens : Keeps (Follows story token machine) listen :=
      .seq (keeps_requireStory _) fun _ => keeps_acceptInput (survives_follows loaded token machine)
    exact (listens machine (.refl attentive)).weaken fun _ follows =>
      follows.spends fun _ => waits
  · -- A machine that does not wait looks for nothing, whatever is still pending.
    have unchanged : EndsWithin story token ((machine.givenUp machine).count token)
        (machine.endsLeft token) machine := by
      rw [givenUp_of_pending rfl]
      exact ⟨attentive, le_refl _⟩
    refine .after (attentive.requireStory _) ?_
    unfold acceptInput
    refine EndsIn.get ?_
    cases phase : machine.phase with
    | running => exact .of_ok rfl unchanged trivial
    | halted => exact .of_ok rfl unchanged trivial
    | waitingForLine => simp [phase, Phase.isWaiting] at waits
    | waitingForKey => simp [phase, Phase.isWaiting] at waits

private theorem endsWithin_pollSounds (attentive : Attentive story machine) (token : Nat) :
    EndsIn (EndsWithin story token 0 (machine.endsLeft token))
      (fun _ => True) pollSounds machine := by
  have survives := survives_endsWithin loaded token 0 (machine.endsLeft token)
  refine EndsIn.get ?_
  split
  · exact .of_ok rfl ⟨attentive, le_refl _⟩ trivial
  · refine EndsIn.modify (EndsIn.modify ?_)
    refine EndsIn.onFault ?_ (keeps_handleOutside survives)
    refine (endsWithin_callPlain loaded ?_ _ _ none token).weaken ?_
    · exact (closed_attentive loaded).survivesAside _ _ attentive ⟨rfl, rfl⟩
    · exact fun _ bounded => ⟨bounded.attentive, bounded.within⟩

private theorem spends_execute (attentive : Attentive story machine)
    (idle : machine.phase.isWaiting = false)
    (apart : ∀ instruction, machine.instructionAt machine.pc = .ok instruction →
      instruction.opcode.operation = .restoreUndo → ¬ machine.Revives token) :
    EndsIn (EndsWithin story token (machine.endedNext.count token) (machine.endsLeft token))
      (fun _ => True) execute machine := by
  have survives := survives_endsWithin loaded token (machine.endedNext.count token)
    (machine.endsLeft token)
  cases decoded : machine.instructionAt machine.pc with
  | error failure =>
      have unchanged :
        EndsWithin story token (machine.endedNext.count token) (machine.endsLeft token)
          machine := by
        unfold endedNext
        rw [decoded]
        exact ⟨attentive, le_refl _⟩
      refine EndsIn.get ?_
      rw [decoded]
      cases failure with
      | fault fault => exact keeps_handleOutside survives fault machine unchanged
      | breach breach => exact .of_error rfl unchanged
  | ok instruction =>
      have within := Instruction.within_of_read decoded
      have fits : instruction.Fits fun _ => True := within.fits fun _ _ => trivial
      have taken : Attentive story (machine.taking instruction) :=
        (closed_attentive loaded).survivesAside _ _ attentive ⟨rfl, rfl⟩
      have executed := spends_executeInstruction loaded taken idle fits within.operands
        (Instruction.opcode_mem_all_of_read decoded) (apart instruction decoded)
      have same : machine.endedNext = endedExecuting instruction (machine.taking instruction) := by
        unfold endedNext
        rw [decoded]
      rw [← same] at executed
      refine .of_eq (execute_eq decoded) (executed.onFault fun fault => ?_)
      refine keeps_handleFault survives fault ?_
      rintro found ⟨⟩
      exact fits

private theorem spends_continues (attentive : Attentive story machine)
    (apart : ∀ polled instruction, machine.phase = .running → pollSounds machine = .ok () polled →
      polled.instructionAt polled.pc = .ok instruction →
      instruction.opcode.operation = .restoreUndo → ¬ polled.Revives token) :
    EndsIn (EndsWithin story token (machine.endedContinuing.count token) (machine.endsLeft token))
      (fun _ => True) continues machine := by
  refine EndsIn.get ?_
  unfold endedContinuing
  by_cases running : machine.phase = .running
  · rw [if_pos running, if_pos running]
    have idle : machine.phase.isWaiting = false := by
      rw [running]
      rfl
    have polls := endsWithin_pollSounds loaded attentive token
    have stays := keeps_pollSounds (survives_idle loaded) nofun
    cases sounded : pollSounds machine with
    | error failure polled =>
        have bounded := polls.finalState
        rw [Action.finalState_of_error sounded] at bounded
        exact .afterError sounded bounded
    | ok u polled =>
        have bounded := polls.finalState
        rw [Action.finalState_of_ok sounded] at bounded
        have quiet := (stays.of_ok ⟨attentive, idle⟩ sounded).1.quiet
        have executed := spends_execute loaded bounded.attentive quiet fun instruction =>
          apart polled instruction running sounded
        refine .after sounded (executed.weaken fun _ held => held.mono (le_refl _) ?_)
        exact bounded.within
  · rw [if_neg running, if_neg running]
    exact .of_ok rfl ⟨attentive, le_refl _⟩ trivial

/-! ## Runs -/

/-- An event that has the read of a request end once more: the request is answered while it is
pending but the machine does not wait for it, or an undo brings one of its routines back. -/
inductive Event.Lapses (token : Nat) (machine : Machine) : Event → Prop where
  | premature {entry : Entry} {terminator : Int} {timedOut : Bool}
      (pending : machine.pending = some token) (idle : machine.phase.isWaiting = false) :
      Lapses token machine (.answer (some token) entry terminator timedOut)
  | revived {instruction : Instruction} {executing : Machine}
      (executes : Executes machine instruction executing)
      (undoes : instruction.opcode.operation = .restoreUndo)
      (revives : executing.Revives token) : Lapses token machine .step

private theorem spends_step (attentive : Attentive story machine)
    (regular : ¬ Event.Lapses token machine .step) :
    EndsWithin story token ((Event.ended machine .step).count token) (machine.endsLeft token)
      (step.finalState machine) := by
  have listens := (spends_listen loaded attentive token).finalState
  have run : step machine = (listen >>= fun _ => continues) machine := congrFun step_eq machine
  unfold Event.ended
  cases listened : listen machine with
  | error failure awake =>
      rw [Action.finalState_of_error listened] at listens
      rw [Action.finalState_of_error (run.trans (Action.bind_of_error listened))]
      exact listens
  | ok u awake =>
      rw [Action.finalState_of_ok listened] at listens
      have apart (polled : Machine) (instruction : Instruction) (running : awake.phase = .running)
          (sounded : pollSounds awake = .ok () polled)
          (decoded : polled.instructionAt polled.pc = .ok instruction)
          (undoes : instruction.opcode.operation = .restoreUndo) : ¬ polled.Revives token := by
        intro revives
        exact regular (.revived ⟨awake, polled, listened, running, sounded, decoded, rfl⟩ undoes
          revives)
      have continued := (spends_continues loaded listens.attentive apart).finalState
      have same : step.finalState machine = continues.finalState awake := by
        unfold Action.finalState
        rw [run, Action.bind_of_ok listened]
      rw [same]
      refine ⟨continued.attentive, ?_⟩
      have first := listens.within
      have second := continued.within
      rw [List.count_append]
      omega

/-- An event uses up the chances of the reads that it ends. -/
theorem spends_event (attentive : Attentive story machine) {event : Event}
    (regular : ¬ event.Lapses token machine) :
    EndsWithin story token ((event.ended machine).count token) (machine.endsLeft token)
      (event.apply machine) := by
  have survives := survives_endsWithin loaded token 0 (machine.endsLeft token)
  cases event with
  | step => exact spends_step loaded attentive regular
  | answer number entry terminator timedOut =>
      refine (spends_completeInput loaded attentive ?_ entry terminator timedOut).finalState
      rintro rfl pending
      by_contra idle
      exact regular (.premature pending (by simpa using idle))
  | quit => exact (keeps_quit survives).finalState ⟨attentive, le_refl _⟩
  | outside storage disk input sound screen =>
      exact survives.survivesAside _ _ ⟨attentive, le_refl _⟩ ⟨rfl, rfl⟩

end Events

/-- A run with an event that has the read of a request end once more. -/
def Lapses (token : Nat) : Machine → List Event → Prop
  | _, [] => False
  | machine, event :: rest => event.Lapses token machine ∨ Lapses token (event.apply machine) rest

/-- A run uses up the chances of the reads that it ends. -/
theorem spends_run (loaded : Story.load story.data = .ok (story, memory))
    (attentive : Attentive story machine) {events : List Event}
    (regular : ¬ machine.Lapses token events) :
    (machine.after events).endsLeft token + (machine.ended events).count token ≤
      machine.endsLeft token := by
  induction events generalizing machine with
  | nil => exact le_refl _
  | cons event rest ih =>
      obtain ⟨first, later⟩ := not_or.mp regular
      have spent := spends_event loaded attentive first
      have others := ih spent.attentive later
      have within := spent.within
      change ((event.apply machine).after rest).endsLeft token + List.count token
        (event.ended machine ++ (event.apply machine).ended rest) ≤ _
      rw [List.count_append]
      omega

/-- The machine just started has at most one chance to end a read. -/
theorem endsLeft_of_reset {fresh started : Machine} (accepted : reset fresh = .ok () started)
    (token : Nat) : started.endsLeft token ≤ 1 := by
  obtain ⟨story, memory, -, rfl⟩ := reset_eq_ok accepted
  unfold opened
  rw [endsLeft_begun]
  split_ifs
  · exact le_refl 1
  · exact Nat.zero_le 1

/-- An answer to a request that is not pending is refused. -/
theorem completeInput_of_not_pending (attentive : Attentive story machine)
    (other : machine.pending ≠ some token) (entry : Entry) (terminator : Int) (timedOut : Bool) :
    completeInput (some token) entry terminator timedOut machine =
      .error (.breach (.staleRequest ((machine.request? token).elim "None" InputRequest.describe)))
        machine := by
  unfold completeInput
  rw [Action.get_bind, Option.bind_some]
  cases found : machine.request? token with
  | none => rfl
  | some request =>
      dsimp only
      rw [attentive.token_of_request? found, if_neg other]
      rfl

/-- At every point of a run, an answer to a request that is not pending is refused and changes
nothing. Every event that ends a read is recorded as such, and in the whole run the read of each
request ends at most once, unless the run lapses: it answers the request while it is pending but not
waited for, or it undoes the end of the read. -/
theorem reads_end_once {fresh started : Machine} (unused : fresh.requests = #[])
    (accepted : reset fresh = .ok () started) (events : List Event) :
    (∀ token entry terminator timedOut, (started.after events).pending ≠ some token →
      completeInput (some token) entry terminator timedOut (started.after events) =
        .error (.breach (.staleRequest
          (((started.after events).request? token).elim "None" InputRequest.describe)))
          (started.after events)) ∧
    (∀ (token : Nat) (event : Event), event.Ends token (started.after events) →
      token ∈ event.ended (started.after events)) ∧
    ∀ token, (started.ended events).count token ≤ 1 ∨ started.Lapses token events := by
  obtain ⟨story, memory, loaded, attentive⟩ := attentive_of_reset unused accepted
  have held := (closed_attentive loaded).after attentive events
  refine ⟨?_, ?_, ?_⟩
  · intro token entry terminator timedOut other
    exact completeInput_of_not_pending held other entry terminator timedOut
  · intro token event ends
    exact mem_ended_of_ends loaded held ends
  · intro token
    by_cases lapses : started.Lapses token events
    · exact .inr lapses
    · have spent := spends_run loaded attentive lapses
      have start := endsLeft_of_reset accepted token
      exact .inl (by omega)

/-- The sample story in version four: it reads a key with a routine that ends the read when its time
runs out. -/
def impatientStory : Array UInt8 :=
  ((sampleStory.toList.take 80).set 0 4 ++
    [0xf6, 0x57, 1, 1, 22, 0x10, 0xb0, 0, 0, 0xb0, 0, 0] ++ sampleStory.toList.drop 92).toArray

/-- The sample machine with that story, started. -/
def impatient : Machine :=
  reset.finalState { sample with file.data := impatientStory }

private theorem reset_impatient : reset { sample with file.data := impatientStory } = .ok () impatient :=
  Action.eq_ok_finalState (by decide +kernel)

private theorem not_lapses_step {machine : Machine} (kept : machine.poised.undo = []) (token : Nat) :
    ¬ Event.Lapses token machine .step := by
  intro lapses
  cases lapses with
  | revived executes undoes revives =>
      obtain ⟨awake, polled, listened, -, sounded, -, rfl⟩ := executes
      obtain ⟨game, rest, frame, newest, -⟩ := revives
      have same : machine.poised = polled := by
        unfold poised
        rw [Action.finalState_of_ok listened, Action.finalState_of_ok sounded]
      have listed : machine.poised.undo = game :: rest := same ▸ newest
      rw [kept] at listed
      cases listed

/-- The time of the key runs out, and the routine ends the read. -/
def timingOut : List Event :=
  [.step, .answer (some 1) (.text []) 13 true, .step]

/-- The same, but a key is typed while the routine runs. -/
def typingLate : List Event :=
  [.step, .answer (some 1) (.text []) 13 true, .answer (some 1) (.text [97]) 13 false, .step]

/-- The read ends once, and from then on the request is stale. -/
theorem reads_end_once_impatient :
    impatient.ended timingOut = [1] ∧ (impatient.ended timingOut).count 1 ≤ 1 ∧
      completeInput (some 1) (.text []) 13 false (impatient.after timingOut) =
        .error (.breach (.staleRequest "InputRequest(char,token=1,time=1)"))
          (impatient.after timingOut) := by
  obtain ⟨refused, -, once⟩ := reads_end_once rfl reset_impatient timingOut
  have regular : ¬ impatient.Lapses 1 timingOut := by
    rintro (lapses | lapses | lapses | none)
    · exact not_lapses_step (List.eq_nil_of_length_eq_zero (by decide +kernel)) 1 lapses
    · cases lapses with
      | premature pending idle => exact absurd idle (by decide +kernel)
    · exact not_lapses_step (List.eq_nil_of_length_eq_zero (by decide +kernel)) 1 lapses
    · exact none
  have named : ((impatient.after timingOut).request? 1).elim "None" InputRequest.describe =
      "InputRequest(char,token=1,time=1)" := by
    decide +kernel
  refine ⟨by decide +kernel, (once 1).resolve_right regular, ?_⟩
  rw [refused 1 (.text []) 13 false (by decide +kernel), named]

/-- An answer is not only taken while the machine waits for it, and a read can end twice: the
request stays pending while its routine runs. -/
theorem not_forall_reads_end_once :
    (¬ ∀ (fresh started : Machine) (events : List Event), fresh.requests = #[] →
        reset fresh = .ok () started → ∀ token entry terminator timedOut,
          ¬ (started.after events).Awaits token →
          ∃ text, completeInput (some token) entry terminator timedOut (started.after events) =
            .error (.breach (.staleRequest text)) (started.after events)) ∧
      ¬ ∀ (fresh started : Machine) (events : List Event), fresh.requests = #[] →
          reset fresh = .ok () started → ∀ token, (started.ended events).count token ≤ 1 := by
  constructor
  · intro refuses
    obtain ⟨text, refused⟩ := refuses _ _ (typingLate.take 2) rfl reset_impatient 1 (.text [97]) 13
      false (by decide +kernel)
    have taken : ((completeInput (some 1) (.text [97]) 13 false).answer
        (impatient.after (typingLate.take 2))).isOk = true := by
      decide +kernel
    unfold Action.answer at taken
    rw [refused] at taken
    cases taken
  · intro once
    have twice : (impatient.ended typingLate).count 1 = 2 := by decide +kernel
    have atMost := once _ _ typingLate rfl reset_impatient 1
    rw [twice] at atMost
    exact absurd atMost (by decide)

end Machine

end StoryMachine
