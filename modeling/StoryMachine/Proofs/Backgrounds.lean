import StoryMachine.Proofs.FaultHandling

/-!
# The background of a game

A property is of the background if it survives the reporting of faults and all
actions that ignore the margin. A step is put together from these, except for the two operations on
undo snapshots. So the surroundings that a story is told about stay through every
step, and the snapshots stay through all of it but those two operations.
-/

namespace StoryMachine

open StoryMachine.Action (Keeps EndsIn)

/-- A property of the state that an action leaves. -/
theorem Action.EndsIn.of_finalState {σ α : Type} {I : σ → Prop} {action : Action σ α} {s : σ}
    (holds : I (action.finalState s)) : EndsIn I (fun _ => True) action s := by
  cases outcome : action s with
  | ok a after =>
      rw [Action.finalState_of_ok outcome] at holds
      exact .of_ok outcome holds trivial
  | error failure after =>
      rw [Action.finalState_of_error outcome] at holds
      exact .of_error outcome holds

namespace Machine

variable {I : Machine → Prop}

/-- A property that survives the reporting of faults and all actions that ignore the margin. -/
structure Background (I : Machine → Prop) : Prop where
  ignoresMargin : ∀ {α : Type} {action : Play α}, IgnoresMargin action → Keeps I action
  reporting : ∀ {machine : Machine} (account : Account) (log : Log), I machine →
    I (machine.reporting account log)

/-- What a story is told about its surroundings is a property of the background. -/
theorem background_surroundings (about : Surroundings) :
    Background (fun machine => machine.surroundings = about) where
  ignoresMargin := fun ignores machine told =>
    .of_finalState ((ignores machine).surroundings.trans told)
  reporting := fun _ _ told => told

/-- The undo snapshots are a property of the background. -/
theorem background_undo (held : List SavedGame) :
    Background (fun machine => machine.undo = held) where
  ignoresMargin := fun ignores machine holding =>
    .of_finalState ((ignores machine).undo.trans holding)
  reporting := fun _ _ holding => holding

namespace Background

/-- Dealing with a fault keeps the background. -/
theorem keeps_handleFault (background : Background I) (fault : Fault)
    (instruction : Option Instruction) : Keeps I (handleFault fault instruction) := by
  intro machine holds
  obtain ⟨log, -, run⟩ := handleFault_eq fault instruction false machine
  apply EndsIn.of_eq run
  apply background.ignoresMargin (ignoresMargin_recover _ _ _)
  exact background.reporting _ log holds

/-- An answer to a read keeps the background. -/
theorem keeps_completeInput (background : Background I) (token : Option Nat) (entry : Entry)
    (terminator : Int) (timedOut : Bool) :
    Keeps I (completeInput token entry terminator timedOut) := by
  refine .get fun machine _ => ?_
  split
  · exact .refuse _
  split
  · refine .onFault (background.ignoresMargin (ignoresMargin_answerRequest _ _ _ _)) fun fault => ?_
    refine .seq (background.ignoresMargin (.modify (fun _ => rfl) fun _ _ => rfl)) fun _ => ?_
    exact background.keeps_handleFault _ _
  · exact .refuse _

private theorem keeps_listen (background : Background I) : Keeps I listen := by
  unfold listen
  refine .seq (background.ignoresMargin (ignoresMargin_requireStory _)) fun _ => ?_
  rw [acceptInput_eq]
  refine .seq (background.ignoresMargin ignoresMargin_typed) fun entry => ?_
  cases entry with
  | none => exact .pure trivial
  | some text => exact .get fun machine _ => background.keeps_completeInput _ _ _ _

private theorem keeps_pollSounds (background : Background I) : Keeps I pollSounds := by
  refine .get fun machine _ => ?_
  split
  · exact .pure trivial
  · refine .seq (background.ignoresMargin (.modify (fun _ => rfl) fun _ _ => rfl)) fun _ => ?_
    refine .seq (background.ignoresMargin (ignoresMargin_note _ _ _)) fun _ => ?_
    refine .onFault (background.ignoresMargin (ignoresMargin_callRoutine _ _ _ _ _)) fun fault => ?_
    exact background.keeps_handleFault fault none

/-- What happens in a step before its instruction is executed leaves the background alone. -/
theorem executes (background : Background I) {before machine : Machine} {instruction : Instruction}
    (holds : I before) (executes : Executes before instruction machine) : I machine := by
  obtain ⟨awake, polled, listened, -, sounded, -, rfl⟩ := executes
  have woken := (background.keeps_listen.of_ok holds listened).1
  have quiet := (background.keeps_pollSounds.of_ok woken sounded).1
  exact (background.ignoresMargin (ignoresMargin_taking instruction)).finalState quiet

/-- A step that executes nothing leaves the background alone. -/
theorem step_of_idle (background : Background I) {machine : Machine} (holds : I machine)
    (idle : ∀ instruction point, ¬ Executes machine instruction point) :
    I (step.finalState machine) := by
  rw [step_eq]
  refine EndsIn.finalState (Q := fun _ => True) ?_
  have woken := background.keeps_listen.finalState holds
  cases listened : listen machine with
  | error failure failed =>
      rw [Action.finalState_of_error listened] at woken
      exact .afterError listened woken
  | ok u awake =>
      rw [Action.finalState_of_ok listened] at woken
      refine .after listened (.get ?_)
      by_cases running : awake.phase = .running
      · rw [if_pos running]
        have quiet := background.keeps_pollSounds.finalState woken
        cases sounded : pollSounds awake with
        | error failure failed =>
            rw [Action.finalState_of_error sounded] at quiet
            exact .afterError sounded quiet
        | ok u polled =>
            rw [Action.finalState_of_ok sounded] at quiet
            rw [execute_taking]
            refine .after sounded (.get ?_)
            split
            · exact background.keeps_handleFault _ none polled quiet
            · exact .of_error rfl quiet
            · rename_i instruction decoded
              exact absurd ⟨awake, polled, listened, running, sounded, decoded, rfl⟩
                (idle instruction (polled.taking instruction))
      · rw [if_neg running]
        exact .of_ok rfl woken trivial

/-- A step keeps what the instructions keep. -/
theorem keeps_step (background : Background I)
    (instructions : ∀ instruction, Keeps I (executeInstruction instruction)) : Keeps I step := by
  rw [step_eq]
  refine .seq background.keeps_listen fun _ => .get fun machine _ => ?_
  split
  · refine .seq background.keeps_pollSounds fun _ => ?_
    rw [execute_taking]
    refine .get fun machine _ => ?_
    split
    · exact background.keeps_handleFault _ none
    · exact .refuse _
    · rename_i instruction _
      refine .seq (background.ignoresMargin (ignoresMargin_taking instruction)) fun _ => ?_
      exact .onFault (instructions instruction) fun fault => background.keeps_handleFault fault _
  · exact .pure trivial

/-- The undo snapshots apart, every instruction leaves the background alone. -/
theorem keeps_executeInstruction (background : Background I)
    (apart : ∀ machine undo, I machine → I { machine with undo }) (instruction : Instruction) :
    Keeps I (executeInstruction instruction) := by
  refine .seq (background.ignoresMargin (ignoresMargin_operandValues instruction)) fun values => ?_
  refine .seq ?_ fun next => background.ignoresMargin (ignoresMargin_settle instruction next)
  by_cases saves : instruction.opcode.operation = .saveUndo
  · refine .get fun machine _ => ?_
    simp only [saves]
    exact .seq (.modify fun machine holds => apart machine _ holds) fun _ => .pure trivial
  by_cases restores : instruction.opcode.operation = .restoreUndo
  · refine .get fun machine _ => ?_
    simp only [restores]
    refine .seq (.get fun machine _ => ?_) fun restored => ?_
    · split
      · exact .pure trivial
      · rename_i game undo _
        refine .seq (.modify fun machine holds => apart machine undo holds) fun _ => ?_
        refine .seq (background.ignoresMargin (ignoresMargin_applySnapshot game)) fun _ => ?_
        exact .seq (background.ignoresMargin (ignoresMargin_resumeAfterSave game.pc))
          fun _ => .pure trivial
    · split <;> exact .pure trivial
  · exact background.ignoresMargin (ignoresMargin_perform ⟨saves, restores⟩ values)

end Background

end Machine

end StoryMachine
