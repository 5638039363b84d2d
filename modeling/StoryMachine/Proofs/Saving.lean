import StoryMachine.Proofs.Actions

/-!
# Saving and restoring is made of moves

A saved game takes the place of the running one only after the machine has
accepted it, and what happens before that is seen in the log alone. The game then
goes on at the saved result.
-/

namespace StoryMachine

open StoryMachine.Action (Ensures Keeps EndsIn)

namespace Machine

variable {α : Type} {least : Nat} {reach : Int → Prop} {allowed : MoveKind → Prop}
  {I : Machine → Prop}

/-- A saved game is put in place if its dynamic memory has the right size, and is a fault
otherwise. -/
theorem applySnapshot_eq (game : SavedGame) (machine : Machine) :
    applySnapshot game machine =
      if (game.dynamic.length : Int) = machine.work.memory.dynamicEnd then
        .ok () (machine.withSnapshot game)
      else
        .error (.ofCause (.replacementSize game.dynamic.length machine.work.memory.dynamicEnd))
          machine := by
  unfold applySnapshot
  simp only [bind, EStateM.bind, Action.get_eq, onMemory, onWork,
    Workspace.onMemory, Action.focus, GameMemory.replaceDynamic, List.size_toArray]
  by_cases size : (game.dynamic.length : Int) = machine.work.memory.dynamicEnd
  · simp only [size, ↓reduceIte]
    unfold withSnapshot
    cases CallStack.ofFrames? game.frames <;> rfl
  · simp only [size, ↓reduceIte]

/-- A restart loads the story again and starts it, or fails as the loading does. -/
theorem restart_eq (machine : Machine) :
    restart machine =
      let noted :=
        { machine with log := machine.log.add .info "zmachine.interpreter" "Restarting" }
      match Story.load machine.file.data with
      | .ok (story, memory) => .ok () (noted.restarted story memory)
      | .error failure => .error failure noted := by
  unfold restart loadStory restarted begun
  simp only [bind, EStateM.bind, Action.get_eq, note, Action.modify_eq]
  cases Story.load machine.file.data <;> rfl

/-- A restart is made of moves, one of which puts another game in place. -/
theorem keeps_restart (survives : SurvivesFrom least reach allowed I)
    (replaces : allowed .replace) : Keeps I restart := by
  intro machine holds
  have noted : I { machine with
      log := machine.log.add .info "zmachine.interpreter" "Restarting" } :=
    survives.inner holds (.aside ⟨rfl, rfl⟩)
  have run := restart_eq machine
  cases loaded : Story.load machine.file.data with
  | error failure =>
      simp only [loaded] at run
      exact .of_error run noted
  | ok pair =>
      obtain ⟨story, memory⟩ := pair
      simp only [loaded] at run
      exact .of_ok run (survives.of_allowed replaces noted (.restart loaded)) trivial

/-- A restored game goes on at the saved result, or returns from its current routine. -/
theorem endsIn_resumeAfterSave {J : Machine → Prop} (survives : SurvivesFrom least reach allowed I)
    (weaker : ∀ machine, I machine → J machine) {machine : Machine} (holds : I machine)
    (returns : ∀ value, EndsIn J (fun _ => True) (returnFromRoutine value) machine) (pc : Int) :
    EndsIn J (fun _ => True) (resumeAfterSave pc) machine := by
  refine EndsIn.get ?_
  split
  · refine endsIn_ask (weaker _ holds) ?_
    rintro ⟨branch, next⟩ read
    obtain ⟨-, -, stop, -, most⟩ := Instruction.readBranch_eq_ok read
    dsimp only
    split
    · exact endsIn_takeBranch survives weaker holds (fun _ => returns _)
        (survives.near holds (by omega))
    · have near : reach next := survives.near holds (by omega)
      exact .of_ok rfl (weaker _ (survives.inner holds (.goTo near))) trivial
  · refine endsIn_ask (weaker _ holds) ?_
    intro target read
    obtain ⟨inside, -⟩ := Image.byte_eq_ok read
    unfold Image.Holds at inside
    have near : reach (pc + 1) := survives.near holds (by omega)
    have stored := endsIn_store_goTo survives
      (fun changes => Workspace.keeps_setVariable changes target 2 false) holds
      (survives.inner holds (.goTo near))
    exact stored.weaken weaker

private theorem keeps_resumeAfterSave (survives : SurvivesFrom least reach allowed I)
    (leaves : allowed .leave) (waits : allowed .wait) (pc : Int) : Keeps I (resumeAfterSave pc) :=
  fun machine holds => endsIn_resumeAfterSave survives (fun _ held => held) holds
    (fun value => keeps_returnFromRoutine survives leaves waits value machine holds) pc

private theorem ensures_orLogged (survives : SurvivesAside I) {Q : α → Prop} {what : String} {default : α}
    {action : Play α} (ensures : Ensures I Q action) (answer : Q default) :
    Ensures I Q (orLogged what default action) := by
  have logged (message : String) :
      Ensures I Q (do note .error "zmachine.interpreter" message; return default) :=
    .seq (keeps_note survives _ _ _) fun _ => .pure answer
  intro machine holds
  have reached := ensures machine holds
  unfold EndsIn at reached
  cases outcome : action machine with
  | ok a after =>
      rw [outcome] at reached
      have passed : orLogged what default action machine = .ok a after := by
        simp only [orLogged, outcome]
      exact .of_ok passed reached.1 reached.2
  | error failure after =>
      rw [outcome] at reached
      have handled (message : String) := logged message after reached
      unfold EndsIn at handled ⊢
      cases failure with
      | fault fault => simpa only [orLogged, outcome] using handled _
      | breach breach =>
          cases breach with
          | system error => simpa only [orLogged, outcome] using handled _
          | _ => simpa only [orLogged, outcome] using reached

private theorem keeps_store (survives : SurvivesAside I) (data : List UInt8) : Keeps I (store data) := by
  unfold store
  refine .get fun machine _ => ?_
  split
  · exact .seq (survives.modify fun _ => ⟨rfl, rfl⟩) fun _ => .pure trivial
  · exact .refuse _
  · exact .pure trivial
  · refine .seq (keeps_prompt survives _) fun name => ?_
    split
    · exact .pure trivial
    · refine .get fun machine _ => .bind (.lift fun _ _ => trivial) fun disk _ => ?_
      refine .seq (survives.modify fun _ => ⟨rfl, rfl⟩) fun _ => ?_
      exact .seq (keeps_note survives _ _ _) fun _ => .pure trivial

/-- Asking the storage for a saved game is beside the game. -/
theorem keeps_retrieve (survives : SurvivesAside I) : Keeps I retrieve := by
  unfold retrieve
  refine .get fun machine _ => ?_
  split
  · exact .refuse _
  · exact .pure trivial
  · exact .pure trivial
  · refine .seq (keeps_prompt survives _) fun name => .get fun machine _ => ?_
    dsimp only
    split
    · exact .seq (keeps_note survives _ _ _) fun _ => .pure trivial
    · exact .bind (.lift fun _ _ => trivial) fun data _ => .pure trivial

/-- Saving the game is beside it. -/
theorem keeps_save (survives : SurvivesAside I) (instruction : Instruction) :
    Keeps I (save instruction) := by
  unfold save
  refine .seq (ensures_orLogged survives ?_ trivial) fun result => ?_
  · refine .get fun machine _ => .bind (.lift fun _ _ => trivial) fun data _ => ?_
    exact .seq (keeps_store survives data) fun _ => .pure trivial
  · split
    · exact .seq (keeps_note survives _ _ _) fun _ => .pure trivial
    · exact .pure trivial

/-- What the machine makes of the bytes of a saved game: the game, if it was saved from this story
and can be resumed. -/
def accept (machine : Machine) (data : List UInt8) : Result SavedGame := do
  let game ← SaveFile.decode data machine.freshDynamic
  let image := machine.image
  if game.release ≠ image.releaseNumber ∨ game.serial ≠ image.serial ∨
      game.checksum ≠ image.checksum then
    .fault (.foreignSave game.release.toNat game.serial)
  if (game.dynamic.length : Int) ≠ machine.work.memory.dynamicEnd then
    .fault (.savedMemorySize game.dynamic.length machine.work.memory.dynamicEnd)
  machine.checkResumePoint game
  return game

private theorem notes_eq (level : LogLevel) (source : String) (message : String → String)
    (ids : List String) (machine : Machine) :
    ∃ log, ids.forM (fun id => note level source (message id)) machine =
      .ok () { machine with log } := by
  induction ids generalizing machine with
  | nil => exact ⟨machine.log, rfl⟩
  | cons id rest ih => exact ih { machine with log := machine.log.add level source (message id) }

/-- Reading a saved game writes the log and nothing else. -/
theorem loadSave_eq (data : List UInt8) (machine : Machine) :
    ∃ log, loadSave data machine =
      match machine.accept data with
      | .ok game => .ok game { machine with log }
      | .error failure => .error failure { machine with log } := by
  unfold loadSave accept SaveFile.decode Action.answer
  simp only [bind, EStateM.bind, Action.get_eq]
  cases SaveFile.decodeNoting data machine.freshDynamic [] with
  | error failure skipped =>
      obtain ⟨log, noted⟩ := notes_eq .debug "zmachine.quetzal"
        (fun id => s!"Skipping {id} chunk in save") skipped machine
      refine ⟨log, ?_⟩
      simp only [noted]
      rfl
  | ok game skipped =>
      obtain ⟨log, noted⟩ := notes_eq .debug "zmachine.quetzal"
        (fun id => s!"Skipping {id} chunk in save") skipped machine
      refine ⟨log, ?_⟩
      simp only [noted]
      by_cases foreign : game.release ≠ machine.image.releaseNumber ∨
          game.serial ≠ machine.image.serial ∨ game.checksum ≠ machine.image.checksum
      · simp only [liftM, monadLift, MonadLift.monadLift, Action.ofResult, Except.bind,
          if_pos foreign]
        rfl
      by_cases size : (game.dynamic.length : Int) ≠ machine.work.memory.dynamicEnd
      · simp only [liftM, monadLift, MonadLift.monadLift, Action.ofResult, Except.bind,
          if_neg foreign, if_pos size]
        rfl
      · simp only [liftM, monadLift, MonadLift.monadLift, Action.ofResult, Except.bind,
          if_neg foreign, if_neg size]
        cases machine.checkResumePoint game <;> rfl

/-- Changes beside the game leave the core. -/
theorem survivesAside_core (core : Core) : SurvivesAside fun machine => machine.core = core :=
  fun _ _ holds apart => apart.core.trans holds

/-- What has changed only beside the game still has after another such change. -/
theorem survivesAside_aside (machine : Machine) : SurvivesAside (Aside machine) :=
  fun _ _ holds apart => holds.trans apart

/-- Machines with the same core accept the same saved games. -/
theorem accept_congr {left right : Machine} (same : left.core = right.core) (data : List UInt8) :
    left.accept data = right.accept data := by
  have story : left.story = right.story := congrArg Core.story same
  have work : left.work = right.work := congrArg Core.work same
  unfold accept checkResumePoint byteAfter freshDynamic image
  rw [story, work]

/-- A game that the machine accepts was decoded from the bytes, and it has the size of dynamic
memory. -/
theorem accept_eq_ok {machine : Machine} {data : List UInt8} {game : SavedGame}
    (accepted : machine.accept data = .ok game) :
    SaveFile.decode data machine.freshDynamic = .ok game ∧
      (game.release = machine.image.releaseNumber ∧ game.serial = machine.image.serial ∧
        game.checksum = machine.image.checksum) ∧
      (game.dynamic.length : Int) = machine.work.memory.dynamicEnd ∧
      machine.checkResumePoint game = .ok () := by
  obtain ⟨decoded, read, accepted⟩ := Result.bind_eq_ok accepted
  dsimp only at accepted
  by_cases foreign : decoded.release ≠ machine.image.releaseNumber ∨
      decoded.serial ≠ machine.image.serial ∨ decoded.checksum ≠ machine.image.checksum
  · rw [if_pos foreign] at accepted
    cases accepted
  by_cases size : (decoded.dynamic.length : Int) ≠ machine.work.memory.dynamicEnd
  · rw [if_neg foreign, if_pos size] at accepted
    cases accepted
  rw [if_neg foreign, if_neg size] at accepted
  obtain ⟨u, checked, accepted⟩ := Result.bind_eq_ok accepted
  cases accepted
  refine ⟨read, ?_, not_not.mp size, checked⟩
  simpa only [not_or, not_not] using foreign

/-- Asks the storage for a saved game that the machine accepts. -/
def fetch : Play (Option SavedGame) := do
  match ← retrieve with
  | none => return none
  | some data => return some (← loadSave data)

/-- Fetching a saved game leaves the game alone, and gives only what the machine accepts. -/
theorem ensures_fetch (machine : Machine) :
    Ensures (Aside machine)
      (fun game? => ∀ game, game? = some game → ∃ data, machine.accept data = .ok game) fetch := by
  refine .seq (keeps_retrieve (survivesAside_aside machine)) fun found => ?_
  cases found with
  | none =>
      refine .pure ?_
      intro game none_eq
      cases none_eq
  | some data =>
      have loaded : Ensures (Aside machine)
          (fun game => machine.accept data = .ok game) (loadSave data) := by
        intro after apart
        obtain ⟨log, run⟩ := loadSave_eq data after
        rw [accept_congr apart.core] at run
        cases accepted : machine.accept data with
        | error failure =>
            rw [accepted] at run
            exact .of_error run ⟨apart.core, apart.terms⟩
        | ok game =>
            rw [accepted] at run
            exact .of_ok run ⟨apart.core, apart.terms⟩ rfl
      refine .bind loaded fun game accepted => .pure ?_
      rintro _ ⟨⟩
      exact ⟨data, accepted⟩

/-- A snapshot of the right size replaces the game, which then goes on at the saved result. -/
theorem endsIn_resume {machine : Machine} {game : SavedGame}
    (size : (game.dynamic.length : Int) = machine.work.memory.dynamicEnd)
    (resumes : EndsIn I (fun _ => True) (resumeAfterSave game.pc) (machine.withSnapshot game))
    {rest : Play α} (tail : Keeps I rest) :
    EndsIn I (fun _ => True) (do applySnapshot game; resumeAfterSave game.pc; rest) machine := by
  have run := applySnapshot_eq game machine
  rw [if_pos size] at run
  exact .after run (resumes.bind (fun _ held => held) fun _ after held _ => tail after held)

/-- A fetched game is one that the machine accepts; everything else is logged. -/
theorem endsIn_fetch (machine : Machine) :
    EndsIn (Aside machine)
      (fun game? => ∀ game, game? = some game → ∃ data, machine.accept data = .ok game)
      (orLogged "Restore" none fetch) machine := by
  refine ensures_orLogged (survivesAside_aside machine) (ensures_fetch machine) ?_ machine
    (.refl machine)
  intro game none_eq
  cases none_eq

/-- A restore leaves the game alone or goes on with a saved one. -/
theorem endsIn_restore (survives : SurvivesAside I) {machine : Machine} (holds : I machine)
    (resumes : ∀ (fetched : Machine) (data : List UInt8) (game : SavedGame), I fetched →
      fetched.core = machine.core →
      orLogged "Restore" none fetch machine = .ok (some game) fetched →
      SaveFile.decode data fetched.freshDynamic = .ok game →
      (game.dynamic.length : Int) = fetched.work.memory.dynamicEnd →
      EndsIn I (fun _ => True) (resumeAfterSave game.pc) (fetched.withSnapshot game)) :
    EndsIn I (fun _ => True) restore machine := by
  have fetched := endsIn_fetch machine
  unfold EndsIn at fetched
  cases outcome : orLogged "Restore" none fetch machine with
  | error failure after =>
      rw [outcome] at fetched
      exact .afterError outcome (survives _ _ holds fetched)
  | ok game? after =>
      rw [outcome] at fetched
      obtain ⟨apart, accepted⟩ := fetched
      have kept := survives _ _ holds apart
      refine .after outcome ?_
      cases game? with
      | none => exact .of_ok rfl kept trivial
      | some game =>
          obtain ⟨data, accepted⟩ := accepted game rfl
          rw [← accept_congr apart.core] at accepted
          obtain ⟨decoded, -, size, -⟩ := accept_eq_ok accepted
          have noted :
              Keeps I (do note .info "zmachine.interpreter" "Game restored"; return true) :=
            .seq (keeps_note survives _ _ _) fun _ => .pure trivial
          have resumed := resumes after data game kept apart.core outcome decoded size
          exact endsIn_resume size resumed noted

/-- A restored game has to have the bytes below those that may be written. -/
theorem endsIn_restore_of_below (survives : SurvivesFrom least reach allowed I)
    (replaces : allowed .replace) (leaves : allowed .leave) (waits : allowed .wait)
    {machine : Machine} (holds : I machine)
    (below : ∀ fetched game, orLogged "Restore" none fetch machine = .ok (some game) fetched →
      ∀ address < least, game.dynamic[address]? = machine.image.bytes[address]?) :
    EndsIn I (fun _ => True) restore machine := by
  refine endsIn_restore survives.survivesAside holds ?_
  intro fetched data game kept same found decoded size
  have image : fetched.image = machine.image :=
    congrArg (fun core => core.work.memory.toImage) same
  have replaced := survives.of_allowed replaces kept
    (.restore decoded size (image ▸ below fetched game found))
  exact keeps_resumeAfterSave survives leaves waits game.pc _ replaced

/-- A restore is made of moves, one of which puts another game in place. -/
theorem keeps_restore (survives : Survives reach allowed I) (replaces : allowed .replace)
    (leaves : allowed .leave) (waits : allowed .wait) : Keeps I restore :=
  fun _ holds => endsIn_restore_of_below survives replaces leaves waits holds
    fun _ _ _ _ none => absurd none (Nat.not_lt_zero _)

/-- To keep a snapshot is a move. -/
theorem keeps_saveUndo (survives : SurvivesFrom least reach allowed I) {instruction : Instruction}
    (fits : instruction.Fits reach) : Keeps I (saveUndo instruction) :=
  .modify fun _ holds => survives.inner holds (.keepUndo fits.result)

/-- An undo leaves the game alone, drops a snapshot or goes on with it. -/
theorem endsIn_restoreUndo {machine : Machine} (holds : I machine)
    (dropped : ∀ game rest, machine.undo = game :: rest → I { machine with undo := rest })
    (resumes : ∀ game rest, machine.undo = game :: rest →
      (game.dynamic.length : Int) = machine.work.memory.dynamicEnd →
      EndsIn I (fun _ => True) (resumeAfterSave game.pc)
        ({ machine with undo := rest }.withSnapshot game)) :
    EndsIn I (fun _ => True) restoreUndo machine := by
  refine EndsIn.get ?_
  split
  · exact .of_ok rfl holds trivial
  · rename_i game rest newest
    refine EndsIn.modify ?_
    by_cases size : (game.dynamic.length : Int) = machine.work.memory.dynamicEnd
    · refine endsIn_resume ?_ (resumes game rest newest size) (.pure trivial)
      exact size
    · have run := applySnapshot_eq game { machine with undo := rest }
      rw [if_neg size] at run
      exact .afterError run (dropped game rest newest)

/-- Going back to a snapshot is made of moves, one of which puts another game in place. -/
theorem keeps_restoreUndo (survives : SurvivesFrom least reach allowed I)
    (replaces : allowed .replace)
    (leaves : allowed .leave) (waits : allowed .wait) : Keeps I restoreUndo := by
  intro machine holds
  refine endsIn_restoreUndo holds ?_ ?_
  · intro game rest newest
    exact survives.of_allowed replaces holds (.dropUndo newest)
  · intro game rest newest size
    have replaced := survives.of_allowed replaces holds (.undo newest size)
    exact keeps_resumeAfterSave survives leaves waits game.pc _ replaced

end Machine

end StoryMachine
