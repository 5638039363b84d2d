import StoryMachine.Proofs.Answers
import StoryMachine.Proofs.Policies

/-!
# Halting

A machine that has halted executes nothing any more, and nothing happens to its
game, as long as nobody answers the request that was pending when it halted. A step
that halts while it looks for input ends there. But a step does not look again after
it has called the routine of a sound that is over: if the routine cannot be called,
the machine halts and the step executes one more instruction.
-/

namespace StoryMachine

namespace Machine

variable {machine polled : Machine} {story : Story} {memory : GameMemory}

/-! ## Halted machines -/

private theorem listen_of_halted (attentive : Attentive story machine) (halted : machine.phase = .halted) :
    listen machine = .ok () machine := by
  unfold listen
  rw [Action.bind_of_ok (attentive.requireStory _)]
  unfold acceptInput
  rw [Action.get_bind, halted]
  rfl

private theorem step_of_halted (attentive : Attentive story machine) (halted : machine.phase = .halted) :
    step machine = .ok () machine := by
  have stays : continues machine = .ok () machine := by
    unfold continues
    rw [Action.get_bind, halted]
    rfl
  rw [step_eq]
  exact (Action.bind_of_ok (listen_of_halted attentive halted)).trans stays

private theorem phase_taking (machine : Machine) (instruction : Instruction) :
    (machine.taking instruction).phase = machine.phase :=
  rfl

/-- A machine that has halted executes no instruction. -/
theorem not_executes_of_halted (attentive : Attentive story machine)
    (halted : machine.phase = .halted) (instruction : Instruction) (point : Machine) :
    ¬ Executes machine instruction point := by
  rintro ⟨awake, sounded, listened, running, -⟩
  have same : EStateM.Result.ok () machine = .ok () awake :=
    (listen_of_halted attentive halted).symm.trans listened
  cases same
  rw [halted] at running
  cases running

/-- The event answers the request that is pending. -/
def Event.AnswersPending (machine : Machine) : Event → Prop
  | .answer token _ _ _ => token.isSome ∧ token = machine.pending
  | _ => False

/-- Only an answer to the pending request does something to a machine that has halted. -/
theorem core_of_halted (attentive : Attentive story machine) (halted : machine.phase = .halted)
    {event : Event} (other : ¬ event.AnswersPending machine) :
    (event.apply machine).core = machine.core := by
  cases event with
  | step => exact congrArg core (Action.finalState_of_ok (step_of_halted attentive halted))
  | answer token entry terminator timedOut =>
      cases token with
      | none => rfl
      | some token =>
          have stale : machine.pending ≠ some token := fun pending => other ⟨rfl, pending.symm⟩
          have refused := completeInput_of_not_pending attentive stale entry terminator timedOut
          exact congrArg core (Action.finalState_of_error refused)
  | quit =>
      obtain ⟨transcript, script, flushed⟩ := finalState_flush
        { machine with
          log := machine.log.add .info "zmachine.interpreter" "Game quit"
          phase := .halted }
      have ended : quit.finalState machine = _ := flushed
      have same : (quit.finalState machine).core = { machine.core with phase := .halted } :=
        congrArg core ended
      refine same.trans ?_
      rw [← halted]
      rfl
  | outside storage disk input sound screen => rfl

/-- A run from a machine that has halted leaves its game as it is, unless it answers the request
that is pending. -/
theorem core_after_of_halted (loaded : Story.load story.data = .ok (story, memory))
    (attentive : Attentive story machine) (halted : machine.phase = .halted) (events : List Event)
    (others : ∀ event ∈ events, ¬ event.AnswersPending machine) :
    (machine.after events).core = machine.core := by
  induction events generalizing machine with
  | nil => rfl
  | cons event rest ih =>
      have same := core_of_halted attentive halted (others event List.mem_cons_self)
      have kept := (closed_attentive loaded).event attentive event
      have stays : (event.apply machine).phase = .halted := (congrArg Core.phase same).trans halted
      have pending : (event.apply machine).pending = machine.pending := congrArg Core.pending same
      refine (ih kept stays fun later listed answers => ?_).trans same
      refine others later (List.mem_cons_of_mem _ listed) ?_
      cases later with
      | answer token entry terminator timedOut =>
          exact ⟨answers.1, answers.2.trans pending⟩
      | _ => exact answers

/-! ## Halting in a step -/

/-- A step that has not found the machine running ends after the look for input. -/
theorem step_of_not_running {awake : Machine} (listened : listen machine = .ok () awake)
    (idle : awake.phase ≠ .running) : step machine = .ok () awake := by
  have stays : continues awake = .ok () awake := by
    unfold continues
    rw [Action.get_bind, if_neg idle]
    rfl
  rw [step_eq]
  exact (Action.bind_of_ok listened).trans stays

/-- A step calls the routine of a sound that is over, and the call fails. -/
def Misfires (machine : Machine) : Prop :=
  ∃ awake, listen machine = .ok () awake ∧ awake.incidentsPolling ≠ []

/-- A fault outside any instruction halts the machine, whatever its policy. -/
theorem phase_of_handleFault {fault : Fault} {after : Machine}
    (dealt : handleFault fault none machine = .ok () after) : after.phase = .halted := by
  obtain ⟨log, -, run⟩ := handleFault_eq fault none false machine
  have stops (recovery : Recovery) (fault : Fault) : recover recovery fault none = (do
      modify fun machine => { machine with fault := some fault }
      halt) := by
    cases recovery <;> rfl
  rw [stops] at run
  obtain ⟨transcript, script, flushed⟩ := finalState_flush
    { machine.reporting (machine.account.hear (machine.incident fault none)) log with
      fault := some (machine.incident fault none).fault
      phase := .halted }
  have ended := (Action.finalState_congr flush run).trans flushed
  rw [Action.finalState_of_ok dealt] at ended
  exact congrArg phase ended

private theorem phase_of_callRoutine {address returnTo : Int} {storeTo : Option Int}
    {arguments : List Int} {interrupt : Option Nat} {entered : Machine}
    (called : callRoutine address returnTo storeTo arguments interrupt machine = .ok () entered) :
    entered.phase = machine.phase := by
  rw [callRoutine_eq] at called
  split at called
  · split at called
    · cases called
      rfl
    · cases called
  · cases called

/-- A sound whose routine cannot be called halts the machine, and another one leaves it running. -/
theorem phase_of_pollSounds (polls : pollSounds machine = .ok () polled) :
    machine.incidentsPolling = [] ∧ polled.phase = machine.phase ∨
      machine.incidentsPolling ≠ [] ∧ polled.phase = .halted := by
  unfold pollSounds at polls
  unfold incidentsPolling
  rw [Action.get_bind] at polls
  cases ended : machine.soundOver? with
  | none =>
      rw [ended] at polls
      cases polls
      exact .inl ⟨rfl, rfl⟩
  | some sound =>
      obtain ⟨token, routine⟩ := sound
      rw [ended] at polls
      dsimp only at polls ⊢
      have run : (callRoutine (machine.story.version.unpackRoutine routine) machine.pc none
          []).onFault (fun fault => handleFault fault none)
            { machine with
              soundRoutines := machine.soundRoutines.erase (token, routine)
              log := machine.log.add .debug "zmachine.interpreter"
                s!"Sound {token} finished, calling 0x{Numeral.hex routine}" } = .ok () polled :=
        polls
      unfold incidentsOnFault
      cases outcome : callRoutine (machine.story.version.unpackRoutine routine) machine.pc none []
          none { machine with
            soundRoutines := machine.soundRoutines.erase (token, routine)
            log := machine.log.add .debug "zmachine.interpreter"
              s!"Sound {token} finished, calling 0x{Numeral.hex routine}" } with
      | ok u entered =>
          rw [Action.onFault_of_ok outcome] at run
          cases run
          have phase := phase_of_callRoutine outcome
          exact .inl ⟨rfl, phase⟩
      | error failure failed =>
          cases failure with
          | fault fault =>
              rw [Action.onFault_of_fault outcome] at run
              exact .inr ⟨List.cons_ne_nil _ _, phase_of_handleFault run⟩
          | breach breach =>
              rw [Action.onFault_of_breach outcome] at run
              cases run

/-- The phase in which an instruction is executed: the machine is running, unless a sound has
misfired. -/
theorem phase_of_executes {instruction : Instruction} {point : Machine}
    (executes : Executes machine instruction point) :
    point.phase = .running ∧ ¬ machine.Misfires ∨ point.phase = .halted ∧ machine.Misfires := by
  obtain ⟨awake, polled, listened, running, sounded, -, rfl⟩ := executes
  have listened : listen machine = .ok () awake := listened
  rcases phase_of_pollSounds sounded with ⟨quiet, phase⟩ | ⟨misfires, phase⟩
  · refine .inl ⟨phase.trans running, ?_⟩
    rintro ⟨other, again, misfires⟩
    cases listened.symm.trans again
    exact misfires quiet
  · exact .inr ⟨phase, awake, listened, misfires⟩

/-- From the moment that a machine has halted, its memory, its calls, its program counter and its
phase stay as they are and it executes nothing, in any run that does not answer the request that
was pending. A step that halts while it looks for input executes nothing either. An instruction is
executed by a running machine, except that a machine which halted because a sound misfired executes
one more. -/
theorem halted_stays_halted {fresh started : Machine} (unused : fresh.requests = #[])
    (accepted : reset fresh = .ok () started) (events : List Event) :
    ((started.after events).phase = .halted → ∀ later : List Event,
      (∀ event ∈ later, ¬ event.AnswersPending (started.after events)) →
      ((started.after events).after later).core = (started.after events).core ∧
        ∀ instruction point, ¬ Executes ((started.after events).after later) instruction point) ∧
      (∀ awake, listen (started.after events) = .ok () awake → awake.phase ≠ .running →
        step (started.after events) = .ok () awake) ∧
      ∀ instruction point, Executes (started.after events) instruction point →
        point.phase = .running ∧ ¬ (started.after events).Misfires ∨
          point.phase = .halted ∧ (started.after events).Misfires := by
  obtain ⟨story, memory, loaded, attentive⟩ := attentive_of_reset unused accepted
  have closed := closed_attentive loaded
  have held := closed.after attentive events
  refine ⟨?_, ?_, ?_⟩
  · intro halted later others
    have same := core_after_of_halted loaded held halted later others
    have stays := (congrArg Core.phase same).trans halted
    exact ⟨same, not_executes_of_halted (closed.after held later) stays⟩
  · intro awake listened idle
    exact step_of_not_running listened idle
  · intro instruction point executes
    exact phase_of_executes executes

/-- The sample story in version four: it reads a key and quits. -/
def keyStory : Array UInt8 :=
  ((sampleStory.toList.take 80).set 0 4 ++ [0xf6, 0x7f, 1, 0x10, 0xba] ++
    sampleStory.toList.drop 85).toArray

/-- The sample machine with that story, started. -/
def keyed : Machine :=
  reset.finalState { sample with file.data := keyStory }

private theorem reset_keyed : reset { sample with file.data := keyStory } = .ok () keyed :=
  Action.eq_ok_finalState (by decide +kernel)

/-- The game is ended while it waits for the key, and an answer to another request comes too
late. -/
theorem halted_stays_halted_keyed :
    (keyed.after [.step, .quit]).phase = .halted ∧
      ((keyed.after [.step, .quit]).after [.answer (some 2) (.text [97]) 13 false, .step]).core =
        (keyed.after [.step, .quit]).core := by
  have halted : (keyed.after [.step, .quit]).phase = .halted := by decide +kernel
  have pending : (keyed.after [.step, .quit]).pending = some 1 := by decide +kernel
  obtain ⟨stays, -, -⟩ := halted_stays_halted rfl reset_keyed [.step, .quit]
  refine ⟨halted, (stays halted _ ?_).1⟩
  intro event listed answers
  cases listed with
  | head =>
      have same := answers.2
      rw [pending] at same
      cases same
  | tail _ listed =>
      rw [List.mem_singleton.mp listed] at answers
      exact answers

/-- The sample story in version five: it plays a sound with a routine that is none, and reads a
key. -/
def misfiringStory : Array UInt8 :=
  ((sampleStory.toList.take 80).set 0 5 ++
    [0xf5, 0x55, 3, 2, 8, 0x14, 0xf6, 0x7f, 1, 0x10, 0xba] ++ sampleStory.toList.drop 91).toArray

/-- A machine with that story on which sounds are over at once. -/
def misfiringFresh : Machine :=
  { sample with file.data := misfiringStory, sound := some { available := true } }

/-- That machine, started. -/
def misfiring : Machine :=
  reset.finalState misfiringFresh

private theorem reset_misfiring : reset misfiringFresh = .ok () misfiring :=
  Action.eq_ok_finalState (by decide +kernel)

/-- A machine that has halted can execute one more instruction, which may put it in another phase,
and an answer to the request that was pending wakes it up. -/
theorem not_forall_halted_stays_halted :
    (¬ ∀ (fresh started : Machine) (events : List Event), fresh.requests = #[] →
        reset fresh = .ok () started → ∀ instruction point,
          Executes (started.after events) instruction point → point.phase ≠ .halted) ∧
      ¬ ∀ (fresh started : Machine) (events : List Event), fresh.requests = #[] →
          reset fresh = .ok () started → (started.after events).phase = .halted →
          ∀ later : List Event, ((started.after events).after later).phase = .halted ∧
            ((started.after events).after later).pc = (started.after events).pc := by
  constructor
  · intro runs
    have decodes : ((misfiring.after [.step]).poised.instructionAt
        (misfiring.after [.step]).poised.pc).isOk = true := by
      decide +kernel
    cases decoded : (misfiring.after [.step]).poised.instructionAt
        (misfiring.after [.step]).poised.pc with
    | error failure =>
        rw [decoded] at decodes
        cases decodes
    | ok instruction =>
        have executes : Executes (misfiring.after [.step]) instruction
            ((misfiring.after [.step]).poised.taking instruction) :=
          executes_poised (by decide +kernel) (by decide +kernel) (by decide +kernel) decoded
        have halted : (misfiring.after [.step]).poised.phase = .halted := by decide +kernel
        exact runs _ _ [.step] rfl reset_misfiring instruction _ executes
          ((phase_taking _ instruction).trans halted)
  · intro stays
    have woken : ((keyed.after [.step, .quit]).after
        [.answer (some 1) (.text [97]) 13 false]).phase = .running := by
      decide +kernel
    have same := stays _ _ [.step, .quit] rfl reset_keyed (by decide +kernel)
      [.answer (some 1) (.text [97]) 13 false]
    rw [woken] at same
    cases same.1

end Machine

end StoryMachine
