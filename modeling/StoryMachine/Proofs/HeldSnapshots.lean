import StoryMachine.Proofs.Undoing

/-!
# Held snapshots

Which snapshots a run holds is told by the instructions that it executes: one
that keeps a snapshot puts a moment on top of those that are held, one that goes
back takes the newest away, and no other instruction matters. Only ten are held,
so that with an eleventh the oldest is lost. The snapshots of the machine are
those of the moments that are held, and it goes back to the newest of these.
-/

namespace StoryMachine

open StoryMachine.Action (EndsIn)

private theorem Opcode.restoreUndo_form :
    ∀ opcode ∈ Opcode.all, opcode.operation = .restoreUndo →
      opcode.stores = true ∧ opcode.branches = false := by
  decide

namespace Machine

variable {machine point : Machine} {instruction : Instruction} {data : Array UInt8}
  {held : List Moment}

/-! ## What a step executes -/

/-- The instruction that a step executes, with the machine on the point of executing it. -/
def executing? (machine : Machine) : Option (Instruction × Machine) :=
  match listen machine with
  | .error _ _ => none
  | .ok _ awake =>
      if awake.phase = .running then
        match pollSounds awake with
        | .error _ _ => none
        | .ok _ polled =>
            match polled.instructionAt polled.pc with
            | .error _ => none
            | .ok instruction => some (instruction, polled.taking instruction)
      else none

/-- The instruction that a machine executes, and the machine on the point of it, are found. -/
theorem executing?_of_executes (executes : Executes machine instruction point) :
    machine.executing? = some (instruction, point) := by
  obtain ⟨awake, polled, listened, running, sounded, decoded, rfl⟩ := executes
  have listened : listen machine = .ok () awake := listened
  unfold executing?
  simp only [listened, running, sounded, decoded, ↓reduceIte]

private theorem executes_of_executing? (found : machine.executing? = some (instruction, point)) :
    Executes machine instruction point := by
  unfold executing? at found
  split at found
  · cases found
  rename_i u awake listened
  split at found
  · rename_i running
    split at found
    · cases found
    rename_i u polled sounded
    split at found
    · cases found
    rename_i decoded
    cases found
    exact ⟨awake, polled, listened, running, sounded, decoded, rfl⟩
  · cases found

/-! ## What a run holds -/

/-- The moments that are held after an instruction that left a machine. If its operands cannot be
read, it does nothing. -/
def heldExecuting (point : Machine) (instruction : Instruction) (after : Machine)
    (held : List Moment) : List Moment :=
  match operandValues instruction point with
  | .error _ _ => held
  | .ok _ taken =>
      match instruction.opcode.operation with
      | .saveUndo => ({ instruction, taken, after } :: held).take maxUndo
      | .restoreUndo => held.tail
      | _ => held

/-- The moments that are held after an event. -/
def Event.heldAfter (machine : Machine) (held : List Moment) : Event → List Moment
  | .step =>
      match machine.executing? with
      | none => held
      | some (instruction, point) =>
          point.heldExecuting instruction (Machine.step.finalState machine) held
  | _ => held

/-- The moments that are held after a run, the newest first. -/
def heldAfter (machine : Machine) (held : List Moment) : List Event → List Moment
  | [] => held
  | event :: rest => (event.apply machine).heldAfter (event.heldAfter machine held) rest

/-- If the event keeps a snapshot, it does so outside of the header and without a fault. -/
def Event.SavesInPlace (machine : Machine) : Event → Prop
  | .step => ∀ instruction point, Executes machine instruction point →
      instruction.opcode.operation = .saveUndo →
        Header.size ≤ instruction.address ∧
          ∃ saved, executeInstruction instruction point = .ok () saved
  | _ => True

/-- All snapshots of a run are kept outside of the header and without a fault. -/
def SavesInPlace (machine : Machine) : List Event → Prop
  | [] => True
  | event :: rest => event.SavesInPlace machine ∧ (event.apply machine).SavesInPlace rest

/-- The snapshots of a machine are those of the moments that are held, which are sound. -/
structure Holding (data : Array UInt8) (machine : Machine) (held : List Moment) : Prop where
  rooted : Rooted data machine
  undo : machine.undo = held.map Moment.game
  sound : ∀ moment ∈ held, moment.Sound data

/-- The machine that has read the operands of a decoded instruction holds the same. -/
theorem Holding.taken (holding : Holding data point held) {address : Int}
    (decoded : point.instructionAt address = .ok instruction) {values : List Int} {taken : Machine}
    (given : operandValues instruction point = .ok values taken) : Holding data taken held := by
  have reads := ensures_operandValues (closed_rooted data)
    (Instruction.within_of_read decoded).operands (Instruction.opcode_mem_all_of_read decoded)
  refine ⟨(reads.of_ok holding.rooted given).1, ?_, holding.sound⟩
  rw [undo_of_operandValues given, holding.undo]

/-! ## Going back -/

private theorem perform_of_restoreUndo (restores : instruction.opcode.operation = .restoreUndo)
    (values : List Int) (machine : Machine) :
    perform instruction values machine =
      (do if ← restoreUndo then return .moved
          return .store 0 : Play Next) machine := by
  unfold perform
  rw [Action.get_bind]
  simp only [restores]

/-- With nothing to go back to, zero is stored. -/
theorem executeInstruction_of_nothing_held (holding : Holding data point []) {address : Int}
    (decoded : point.instructionAt address = .ok instruction)
    (restores : instruction.opcode.operation = .restoreUndo) {values : List Int} {taken : Machine}
    (given : operandValues instruction point = .ok values taken) :
    executeInstruction instruction point = storeResult instruction 0 taken := by
  have none : taken.undo = [] := (holding.taken decoded given).undo
  have nothing : restoreUndo taken = .ok false taken := by
    unfold restoreUndo
    rw [Action.get_bind, none]
    rfl
  have performed : perform instruction values taken = .ok (.store 0) taken := by
    rw [perform_of_restoreUndo restores, Action.bind_of_ok nothing]
    rfl
  unfold executeInstruction
  rw [Action.bind_of_ok given, Action.bind_of_ok performed]
  rfl

/-- Otherwise the newest moment is gone back to. -/
theorem executeInstruction_of_held (apart : Header.size ≤ (Image.mk data).globalsAddress)
    {moment : Moment} {rest : List Moment} (holding : Holding data point (moment :: rest))
    {address : Int} (decoded : point.instructionAt address = .ok instruction)
    (restores : instruction.opcode.operation = .restoreUndo) {values : List Int} {taken : Machine}
    (given : operandValues instruction point = .ok values taken) :
    ∃ restored, executeInstruction instruction point = .ok () restored ∧
      restored.undo = rest.map Moment.game ∧ BackAt moment taken restored := by
  have held := holding.taken decoded given
  have sound := held.sound moment List.mem_cons_self
  obtain ⟨restored, run, undo, back⟩ := sound.restoreUndo apart held.rooted held.undo
  have performed : perform instruction values taken = .ok .moved restored := by
    rw [perform_of_restoreUndo restores, Action.bind_of_ok run]
    rfl
  refine ⟨restored, ?_, undo, back⟩
  unfold executeInstruction
  rw [Action.bind_of_ok given, Action.bind_of_ok performed]
  rfl

/-! ## Every event -/

/-- An instruction leaves the snapshots of the moments that are held after it. -/
theorem Holding.undo_executeInstruction (holding : Holding data point held)
    (apart : Header.size ≤ (Image.mk data).globalsAddress) {address : Int}
    (decoded : point.instructionAt address = .ok instruction)
    (inPlace : instruction.opcode.operation = .saveUndo →
      Header.size ≤ instruction.address ∧
        ∃ saved, executeInstruction instruction point = .ok () saved)
    (after : Machine) :
    EndsIn (fun left =>
        left.undo = (point.heldExecuting instruction after held).map Moment.game)
      (fun _ => True) (executeInstruction instruction) point := by
  unfold heldExecuting
  cases given : operandValues instruction point with
  | error failure failed =>
      have same := (ignoresMargin_operandValues instruction point).undo
      rw [Action.finalState_of_error given, holding.undo] at same
      exact .afterError given same
  | ok values taken =>
      dsimp only
      by_cases saves : instruction.opcode.operation = .saveUndo
      · obtain ⟨beyond, saved, executed⟩ := inPlace saves
        obtain ⟨-, undo⟩ := moment_of_saveUndo holding.rooted decoded saves beyond given executed
        refine .of_ok executed ?_ trivial
        rw [saves, undo, (holding.taken decoded given).undo, List.map_take, List.map_cons]
        rfl
      by_cases restores : instruction.opcode.operation = .restoreUndo
      · rw [restores]
        cases held with
        | nil =>
            have run := executeInstruction_of_nothing_held holding decoded restores given
            have undo := (ignoresMargin_storeResult instruction 0 taken).undo
            refine .of_eq run (.of_finalState ?_)
            exact undo.trans (holding.taken decoded given).undo
        | cons moment rest =>
            obtain ⟨restored, run, undo, -⟩ :=
              executeInstruction_of_held apart holding decoded restores given
            exact .of_ok run undo trivial
      · have undo := (ignoresMargin_executeInstruction ⟨saves, restores⟩ point).undo
        have same : (match instruction.opcode.operation with
            | .saveUndo => (Moment.mk instruction taken after :: held).take maxUndo
            | .restoreUndo => held.tail
            | _ => held) = held := by
          split
          · contradiction
          · contradiction
          · rfl
        rw [same]
        exact .of_finalState (undo.trans holding.undo)

/-- The moments that are held after an instruction are sound. -/
theorem Holding.sound_heldExecuting (holding : Holding data point held) {address : Int}
    (decoded : point.instructionAt address = .ok instruction) {after : Machine}
    (inPlace : instruction.opcode.operation = .saveUndo →
      Header.size ≤ instruction.address ∧ executeInstruction instruction point = .ok () after) :
    ∀ moment ∈ point.heldExecuting instruction after held, moment.Sound data := by
  intro moment listed
  unfold heldExecuting at listed
  split at listed
  · exact holding.sound moment listed
  rename_i values taken given
  split at listed
  · rename_i saves
    obtain ⟨beyond, executed⟩ := inPlace saves
    rcases List.mem_cons.mp (List.mem_of_mem_take listed) with rfl | earlier
    · exact (moment_of_saveUndo holding.rooted decoded saves beyond given executed).1
    · exact holding.sound moment earlier
  · exact holding.sound moment (List.mem_of_mem_tail listed)
  · exact holding.sound moment listed

private theorem Holding.step (holding : Holding data machine held)
    (apart : Header.size ≤ (Image.mk data).globalsAddress)
    (inPlace : Event.step.SavesInPlace machine) :
    Holding data (Event.step.apply machine) (Event.step.heldAfter machine held) := by
  have rooted := (closed_rooted data).event holding.rooted .step
  have background := background_undo (held.map Moment.game)
  unfold Event.heldAfter
  cases found : machine.executing? with
  | none =>
      refine ⟨rooted, ?_, holding.sound⟩
      refine background.step_of_idle holding.undo fun instruction point executes => ?_
      rw [executing?_of_executes executes] at found
      cases found
  | some pair =>
      obtain ⟨instruction, point⟩ := pair
      have executes := executes_of_executing? found
      have decoded := executes.instructionAt
      have here : Holding data point held :=
        ⟨(closed_rooted data).executes trivial holding.rooted executes,
          background.executes holding.undo executes, holding.sound⟩
      have run := step_of_executes executes
      refine ⟨rooted, ?_, ?_⟩
      · have executed := here.undo_executeInstruction apart decoded
          (inPlace instruction point executes) (Machine.step.finalState machine)
        have handled := executed.onFault fun fault =>
          (background_undo _).keeps_handleFault fault (some instruction)
        exact (EndsIn.of_eq run handled).finalState
      · refine here.sound_heldExecuting decoded fun saves => ?_
        obtain ⟨beyond, saved, executed⟩ := inPlace instruction point executes saves
        refine ⟨beyond, ?_⟩
        rw [executed, Action.finalState_of_ok (run.trans (Action.onFault_of_ok executed))]

/-- What is held after an event. -/
theorem Holding.event (holding : Holding data machine held)
    (apart : Header.size ≤ (Image.mk data).globalsAddress) (event : Event)
    (inPlace : event.SavesInPlace machine) :
    Holding data (event.apply machine) (event.heldAfter machine held) := by
  have rooted := (closed_rooted data).event holding.rooted event
  have background := background_undo (held.map Moment.game)
  cases event with
  | step => exact holding.step apart inPlace
  | answer token entry terminator timedOut =>
      have answers := background.keeps_completeInput token entry terminator timedOut
      exact ⟨rooted, answers.finalState holding.undo, holding.sound⟩
  | quit =>
      exact ⟨rooted,
        (background.ignoresMargin ignoresMargin_quit).finalState holding.undo, holding.sound⟩
  | outside storage disk input sound screen => exact ⟨rooted, holding.undo, holding.sound⟩

/-- What is held after a run. -/
theorem Holding.after (holding : Holding data machine held)
    (apart : Header.size ≤ (Image.mk data).globalsAddress) (events : List Event)
    (inPlace : machine.SavesInPlace events) :
    Holding data (machine.after events) (machine.heldAfter held events) := by
  induction events generalizing machine held with
  | nil => exact holding
  | cons event rest ih => exact ih (holding.event apart event inPlace.1) inPlace.2

private theorem undo_of_reset {fresh started : Machine} (accepted : reset fresh = .ok () started) :
    started.undo = [] := by
  obtain ⟨story, memory, -, rfl⟩ := reset_eq_ok accepted
  unfold opened begun
  rfl

private theorem length_heldAfter_le (few : held.length ≤ maxUndo) (events : List Event) :
    (machine.heldAfter held events).length ≤ maxUndo := by
  induction events generalizing machine held with
  | nil => exact few
  | cons event rest ih =>
      refine ih ?_
      unfold Event.heldAfter
      split
      · split
        · exact few
        · unfold heldExecuting
          split
          · exact few
          split
          · exact List.length_take_le _ _
          · rw [List.length_tail]
            omega
          · exact few
      · exact few

/-- The snapshots of a machine are those of the moments that its run holds, ten of them at most.
Where none is held, an instruction that goes back stores zero, as far as zero can be stored, and
does nothing else. Otherwise it takes the newest moment away and the machine is back there. -/
theorem undo_goes_back {fresh started : Machine} (unused : fresh.requests = #[])
    (accepted : reset fresh = .ok () started)
    (apart : Header.size ≤ (Image.mk fresh.file.data).globalsAddress) (events : List Event)
    (inPlace : started.SavesInPlace events) :
    (started.after events).undo = (started.heldAfter [] events).map Moment.game ∧
      (started.heldAfter [] events).length ≤ maxUndo ∧
      ∀ instruction point values taken, Executes (started.after events) instruction point →
        instruction.opcode.operation = .restoreUndo →
        operandValues instruction point = .ok values taken →
          (started.heldAfter [] events = [] → ∃ target, instruction.storeTo = some target ∧
            executeInstruction instruction point =
              (do onWork (Workspace.setVariable target 0); goTo instruction.nextAddress) taken) ∧
          ∀ moment rest, started.heldAfter [] events = moment :: rest →
            ∃ restored, step (started.after events) = .ok () restored ∧
              restored.undo = rest.map Moment.game ∧ BackAt moment taken restored := by
  have start : Holding fresh.file.data started [] :=
    ⟨rooted_of_reset unused accepted, undo_of_reset accepted,
      fun _ listed => absurd listed List.not_mem_nil⟩
  have holding := start.after apart events inPlace
  refine ⟨holding.undo, length_heldAfter_le (Nat.zero_le _) events, ?_⟩
  intro instruction point values taken executes restores given
  have decoded := executes.instructionAt
  have here : Holding fresh.file.data point (started.heldAfter [] events) :=
    ⟨(closed_rooted _).executes trivial holding.rooted executes,
      (background_undo _).executes holding.undo executes, holding.sound⟩
  refine ⟨fun none => ?_, fun moment rest some => ?_⟩
  · rw [none] at here
    obtain ⟨stores, branches⟩ :=
      Opcode.restoreUndo_form _ (Instruction.opcode_mem_all_of_read decoded) restores
    obtain ⟨target, -⟩ := Instruction.target_of_stores decoded stores branches
    refine ⟨_, target, ?_⟩
    rw [executeInstruction_of_nothing_held here decoded restores given]
    unfold storeResult
    rw [target]
  · rw [some] at here
    obtain ⟨restored, run, undo, back⟩ :=
      executeInstruction_of_held apart here decoded restores given
    refine ⟨restored, ?_, undo, back⟩
    rw [step_of_executes executes, Action.onFault_of_ok run]

/-- The sample story in version five: it keeps a snapshot, changes a global and goes back. -/
def undoingStory : Array UInt8 :=
  ((sampleStory.toList.take 80).set 0 5 ++
    [0xbe, 0x09, 0xff, 0x10, 0x0d, 0x11, 5, 0xbe, 0x0a, 0xff, 0x10] ++
    sampleStory.toList.drop 91).toArray

/-- The sample machine with that story, started. -/
def undoing : Machine :=
  reset.finalState { sample with file.data := undoingStory }

/-- The first instruction of that story, which keeps a snapshot. -/
def keepingInstruction : Instruction where
  address := 80
  form := .extended
  opcode :=
    { group := .extended, number := 9, name := "save_undo", operation := .saveUndo, stores := true }
  operands := []
  storeTo := some 16
  resultAddress := 83
  nextAddress := 84

/-- The second one, which changes a global. -/
def changingInstruction : Instruction where
  address := 84
  form := .long
  opcode :=
    { group := .twoOperands, number := 13, name := "store", operation := .storeVariable,
      senses := [.unsigned, .unsigned] }
  operands := [{ kind := .small, value := 17 }, { kind := .small, value := 5 }]
  resultAddress := 87
  nextAddress := 87

/-- The third one, which goes back. -/
def undoingInstruction : Instruction where
  address := 87
  form := .extended
  opcode :=
    { group := .extended, number := 10, name := "restore_undo", operation := .restoreUndo,
      stores := true }
  operands := []
  storeTo := some 16
  resultAddress := 90
  nextAddress := 91

/-- The moment that the story goes back to. -/
def undoingMoment : Moment where
  instruction := keepingInstruction
  taken := undoing.poised.taking keepingInstruction
  after := step.finalState undoing

private theorem reset_undoing : reset { sample with file.data := undoingStory } = .ok () undoing :=
  Action.eq_ok_finalState (by decide +kernel)

private theorem executes_keeping :
    Executes undoing keepingInstruction (undoing.poised.taking keepingInstruction) :=
  executes_poised (by decide +kernel) (by decide +kernel) (by decide +kernel) (by decide +kernel)

private theorem executes_changing : Executes (undoing.after [.step]) changingInstruction
    ((undoing.after [.step]).poised.taking changingInstruction) :=
  executes_poised (by decide +kernel) (by decide +kernel) (by decide +kernel) (by decide +kernel)

private theorem executes_undoing : Executes (undoing.after [.step, .step]) undoingInstruction
    ((undoing.after [.step, .step]).poised.taking undoingInstruction) :=
  executes_poised (by decide +kernel) (by decide +kernel) (by decide +kernel) (by decide +kernel)

private theorem after_step (machine : Machine) : machine.after [.step] = Event.step.apply machine :=
  rfl

private theorem savesInPlace_undoing : undoing.SavesInPlace [.step, .step] := by
  refine ⟨fun instruction point executes _ => ?_, fun instruction point executes saves => ?_,
    trivial⟩
  · have found := executing?_of_executes executes
    rw [executing?_of_executes executes_keeping] at found
    cases found
    exact ⟨by decide, _, Action.eq_ok_finalState (by decide +kernel)⟩
  · have found := executing?_of_executes executes
    rw [← after_step, executing?_of_executes executes_changing] at found
    cases found
    cases saves

private theorem heldExecuting_keeping (point after : Machine) :
    point.heldExecuting keepingInstruction after [] = [⟨keepingInstruction, point, after⟩] :=
  rfl

private theorem heldExecuting_changing (point after : Machine) (held : List Moment) :
    point.heldExecuting changingInstruction after held = held :=
  rfl

private theorem heldAfter_undoing : undoing.heldAfter [] [.step, .step] = [undoingMoment] := by
  have first : Event.step.heldAfter undoing [] = [undoingMoment] := by
    unfold Event.heldAfter
    rw [executing?_of_executes executes_keeping]
    exact heldExecuting_keeping _ _
  have second : Event.step.heldAfter (undoing.after [.step]) [undoingMoment] =
      [undoingMoment] := by
    unfold Event.heldAfter
    rw [executing?_of_executes executes_changing]
    exact heldExecuting_changing _ _ _
  unfold heldAfter
  rw [first, ← after_step]
  unfold heldAfter
  rw [second]
  rfl

/-- The changed global reads as before. -/
theorem undo_goes_back_undoing :
    ∃ restored, step (undoing.after [.step, .step]) = .ok () restored ∧ restored.undo = [] ∧
      BackAt undoingMoment ((undoing.after [.step, .step]).poised.taking undoingInstruction)
        restored ∧
      (undoing.after [.step, .step]).image.peek 67 = 5 ∧ restored.image.peek 67 = 0 := by
  obtain ⟨-, -, goesBack⟩ := undo_goes_back rfl reset_undoing (by decide +kernel) [.step, .step]
    savesInPlace_undoing
  have returns := (goesBack _ _ [] _ executes_undoing rfl rfl).2
  obtain ⟨restored, run, undo, back⟩ := returns undoingMoment [] heldAfter_undoing
  refine ⟨restored, run, undo, back, by decide +kernel, ?_⟩
  rw [← Action.finalState_of_ok run]
  decide +kernel

end Machine

end StoryMachine
