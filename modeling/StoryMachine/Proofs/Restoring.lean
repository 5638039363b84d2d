import StoryMachine.Proofs.Assignments
import StoryMachine.Proofs.Questions
import StoryMachine.Proofs.Savable

/-!
# What a restore comes to

A restore that finds no game, or one that the machine does not accept, answers
false and leaves the game alone. An accepted game is put in place and resumed.
The check that accepts a game looks at less than the resumption needs: a result
can be left without a place, and then the restore fails with the saved game in
place and the program counter where it was.
-/

namespace StoryMachine

/-- A branch can be read wherever two bytes can. -/
theorem Instruction.readBranch_of_holds {image : Image} {address : Int}
    (first : image.Holds address) (second : image.Holds (address + 1)) :
    ∃ branch next, readBranch image address = .ok (branch, next) := by
  unfold readBranch
  rw [Image.byte_of_holds first, Result.ok_bind]
  dsimp only
  split
  · exact ⟨_, _, rfl⟩
  · rw [Image.byte_of_holds second, Result.ok_bind]
    exact ⟨_, _, rfl⟩

/-! ## Going on in a workspace -/

namespace Workspace

variable {workspace : Workspace}

/-- Where a branch that is taken leads, from the address after it; nowhere if it returns a result
that has no place. -/
def branch? (workspace : Workspace) (offset next : Int) : Option (Workspace × Int) :=
  if offset = 0 ∨ offset = 1 then
    match workspace.calls.pop with
    | .ok (frame, calls) =>
        let caller := { workspace with calls }
        if caller.Takes frame.storeTo then
          some (caller.stored frame.storeTo offset, frame.returnTo)
        else none
    | .error _ => none
  else some (workspace, next + offset - 2)

/-- Where the branch of something that succeeded leads, from the address after it. -/
def follow? (workspace : Workspace) (branch : BranchTarget) (next : Int) :
    Option (Workspace × Int) :=
  if branch.ifTrue then workspace.branch? branch.offset next else some (workspace, next)

/-- Where a game that was put in place goes on, given the address of the result of its save; nowhere
if that result has no place. -/
def resume? (workspace : Workspace) (pc : Int) : Option (Workspace × Int) :=
  let image := workspace.memory.toImage
  if image.version < 4 then
    match Instruction.readBranch image pc with
    | .ok (branch, next) => workspace.follow? branch next
    | .error _ => none
  else if workspace.Assignable (image.peek pc.toNat) then
    some (workspace.assigned (image.peek pc.toNat) 2, pc + 1)
  else none

end Workspace

namespace Machine

open StoryMachine.Action (FailsWith)

variable {machine : Machine}

/-- The action goes where it is said to lead, or it stops with a fault before it has changed memory
or the program counter. -/
def Reaches (action : Play Unit) (machine : Machine) : Option (Workspace × Int) → Prop
  | some (work, pc) => action machine = .ok () { machine with work, pc }
  | none =>
      ∃ fault after, action machine = .error (.fault fault) after ∧
        after.work.memory = machine.work.memory ∧ after.pc = machine.pc

/-- A branch goes where it is said to go, or is a fault that changes nothing. -/
theorem reaches_takeBranch (inside : machine.work.memory.dynamicEnd ≤ machine.work.memory.size)
    (plain : machine.work.calls.current.interrupt = none) (offset next : Int) :
    Reaches (takeBranch offset next) machine (machine.work.branch? offset next) := by
  unfold Workspace.branch? takeBranch
  by_cases returns : offset = 0 ∨ offset = 1
  · rw [if_pos returns, if_pos returns]
    cases popped : machine.work.calls.pop with
    | error failure =>
        obtain ⟨fault, rfl⟩ : failure.IsFault := CallStack.failsWith_pop _ failure popped
        have left := leave_eq machine
        rw [popped] at left
        exact ⟨fault, machine, Action.bind_of_error left, rfl, rfl⟩
    | ok pair =>
        obtain ⟨frame, calls⟩ := pair
        rw [← CallStack.frame_of_pop popped] at plain
        dsimp only
        split
        · rename_i takes
          exact returnFromRoutine_of_takes inside popped plain takes
        · rename_i refused
          obtain ⟨fault, failed⟩ := returnFromRoutine_of_not_takes inside popped plain refused
          exact ⟨fault, _, failed, rfl, rfl⟩
  · rw [if_neg returns, if_neg returns]
    rfl

/-- A question with an answer is answered. -/
theorem ask_of_ok {α : Type} {question : Image → Result α} {a : α}
    (answered : question machine.image = .ok a) : ask question machine = .ok a machine := by
  unfold ask
  rw [Action.get_bind, answered]
  rfl

/-- From version four on, a resumed game stores the result of its save. -/
theorem resumeAfterSave_of_late (late : ¬ machine.image.version < 4) {address : Int}
    (holds : machine.image.Holds address) :
    resumeAfterSave address machine =
      (do onWork (Workspace.setVariable (machine.image.peek address.toNat) 2); goTo (address + 1))
        machine := by
  unfold resumeAfterSave
  rw [Action.get_bind, if_neg late, Action.bind_of_ok (ask_of_ok (Image.byte_of_holds holds))]

/-- Resuming a game comes to what its workspace says. -/
theorem reaches_resumeAfterSave
    (inside : machine.work.memory.dynamicEnd ≤ machine.work.memory.size)
    (plain : machine.work.calls.current.interrupt = none) {address : Int}
    (first : machine.image.Holds address) (second : machine.image.Holds (address + 1)) :
    Reaches (resumeAfterSave address) machine (machine.work.resume? address) := by
  have same : machine.work.memory.toImage = machine.image := rfl
  unfold Workspace.resume?
  dsimp only
  rw [same]
  by_cases early : machine.image.version < 4
  · obtain ⟨branch, next, read⟩ := Instruction.readBranch_of_holds first second
    have run : resumeAfterSave address machine =
        (if branch.ifTrue then takeBranch branch.offset next else goTo next) machine := by
      unfold resumeAfterSave
      rw [Action.get_bind, if_pos early, Action.bind_of_ok (ask_of_ok read)]
    rw [if_pos early, read]
    dsimp only [Workspace.follow?]
    split
    · rename_i taken
      rw [if_pos taken] at run
      have reaches := reaches_takeBranch inside plain branch.offset next
      unfold Reaches at reaches ⊢
      rwa [run]
    · rename_i skipped
      rw [if_neg skipped] at run
      exact run
  · have run := resumeAfterSave_of_late early first
    rw [if_neg early]
    split
    · rename_i assignable
      have stored := onWork_of_ok (Workspace.setVariable_of_assignable inside assignable 2)
      rw [Action.bind_of_ok stored] at run
      exact run
    · rename_i refused
      obtain ⟨fault, failed⟩ := Workspace.setVariable_of_not_assignable inside refused 2
      rw [Action.bind_of_error (onWork_of_error failed)] at run
      exact ⟨fault, _, run, rfl, rfl⟩

/-! ## Restoring -/

/-- A success is not logged. -/
theorem orLogged_of_ok {α : Type} {what : String} {default a : α} {action : Play α}
    {after : Machine} (outcome : action machine = .ok a after) :
    orLogged what default action machine = .ok a after := by
  unfold orLogged
  rw [outcome]

/-- A fault and a refusal are logged, and the default is answered instead. -/
theorem orLogged_of_error {α : Type} {what : String} {default : α} {action : Play α}
    {failure : Failure} {after : Machine} (outcome : action machine = .error failure after)
    (reported : failure.IsFault ∨ failure.IsRefusal) :
    ∃ log, orLogged what default action machine = .ok default { after with log } := by
  unfold orLogged
  rw [outcome]
  rcases reported with ⟨fault, rfl⟩ | ⟨error, rfl⟩
  · exact ⟨_, rfl⟩
  · exact ⟨_, rfl⟩

/-- Puts a game in place and goes on with it. -/
def resume (game : SavedGame) : Play Bool := do
  applySnapshot game
  resumeAfterSave game.pc
  note .info "zmachine.interpreter" "Game restored"
  return true

/-- The storage hands over a game that the machine accepts, and what the machine is once the game is
in place. -/
def Offers (machine : Machine) (game : SavedGame) (swapped : Machine) : Prop :=
  ∃ data fetched, retrieve machine = .ok (some data) fetched ∧ machine.accept data = .ok game ∧
    swapped = fetched.withSnapshot game

private theorem restore_eq (machine : Machine) :
    restore machine = (do
      match ← orLogged "Restore" none fetch with
      | none => return false
      | some game => resume game : Play Bool) machine :=
  rfl

/-- Asking the storage for a saved game is beside the game. -/
theorem core_of_retrieve {found : Option (List UInt8)} {fetched : Machine}
    (handed : retrieve machine = .ok found fetched) : fetched.core = machine.core :=
  ((keeps_retrieve (survivesAside_core machine.core)).of_ok rfl handed).1

/-- A game that the machine accepts is resumed. -/
theorem restore_eq_resume {data : List UInt8} {fetched : Machine} {game : SavedGame}
    (handed : retrieve machine = .ok (some data) fetched)
    (accepted : machine.accept data = .ok game) :
    ∃ log, restore machine = resume game { fetched with log } := by
  obtain ⟨log, loaded⟩ := loadSave_eq data fetched
  rw [accept_congr (core_of_retrieve handed), accepted] at loaded
  have loads : fetch machine = .ok (some game) { fetched with log } := by
    unfold fetch
    rw [Action.bind_of_ok handed]
    exact Action.bind_of_ok loaded
  refine ⟨log, ?_⟩
  rw [restore_eq, Action.bind_of_ok (orLogged_of_ok loads)]

/-- Without a game that the machine accepts, a restore answers false and leaves the game alone. -/
theorem restore_of_not_offers (refused : ∀ game swapped, ¬ machine.Offers game swapped) :
    ∃ after, restore machine = .ok false after ∧ after.core = machine.core := by
  have logged {failure : Failure} {after : Machine} (failed : fetch machine = .error failure after)
      (same : after.core = machine.core) :
      ∃ after, restore machine = .ok false after ∧ after.core = machine.core := by
    obtain ⟨log, logged⟩ := orLogged_of_error failed (failsWith_fetch _ _ _ failed)
    refine ⟨{ after with log }, ?_, same⟩
    rw [restore_eq, Action.bind_of_ok logged]
    rfl
  cases outcome : retrieve machine with
  | error failure after =>
      have ends := keeps_retrieve (survivesAside_core machine.core) machine rfl
      unfold Action.EndsIn at ends
      rw [outcome] at ends
      exact logged (Action.bind_of_error outcome) ends
  | ok found fetched =>
      have same := core_of_retrieve outcome
      cases found with
      | none =>
          have nothing : fetch machine = .ok none fetched := Action.bind_of_ok outcome
          refine ⟨fetched, ?_, same⟩
          rw [restore_eq, Action.bind_of_ok (orLogged_of_ok nothing)]
          rfl
      | some data =>
          obtain ⟨log, loaded⟩ := loadSave_eq data fetched
          rw [accept_congr same] at loaded
          cases accepted : machine.accept data with
          | ok game => exact absurd ⟨data, fetched, outcome, accepted, rfl⟩ (refused game _)
          | error failure =>
              rw [accepted] at loaded
              have fails : fetch machine = .error failure { fetched with log } := by
                unfold fetch
                rw [Action.bind_of_ok outcome]
                exact Action.bind_of_error loaded
              exact logged fails same

/-! ## The outcome -/

private theorem checkResumePoint_eq_ok {game : SavedGame}
    (checked : machine.checkResumePoint game = .ok ()) :
    machine.image.Holds game.pc ∧ machine.image.Holds (game.pc + 1) := by
  unfold checkResumePoint at checked
  split at checked
  · cases checked
  dsimp only at checked
  split at checked
  · cases checked
  · rename_i inside
    unfold Image.Holds
    omega

/-- A saved game keeps no frame of an interrupt. -/
theorem interrupt_kept {game : SavedGame} (kept : game.kept = game) {frame : Frame}
    (member : frame ∈ game.frames) : frame.interrupt = none := by
  rw [← kept] at member
  obtain ⟨original, -, rfl⟩ := List.mem_map.mp member
  rfl

private theorem calls_withSnapshot {game : SavedGame} (nested : Frame.Nested game.frames) :
    (machine.withSnapshot game).work.calls.frames = game.frames := by
  obtain ⟨calls, made, listed⟩ := nested.exists_calls
  have core := congrArg (fun core => core.work.calls) (core_withSnapshot machine game)
  dsimp only at core
  rw [made, Option.getD_some] at core
  rw [← listed]
  exact congrArg CallStack.frames core

/-- A game that the machine accepts goes where its workspace says once it is in place. -/
theorem reaches_accepted {story : Array UInt8} (protects : machine.core.Protects story)
    {data : List UInt8} {game : SavedGame} (accepted : machine.accept data = .ok game) :
    Reaches (resumeAfterSave game.pc) (machine.withSnapshot game)
      ((machine.withSnapshot game).work.resume? game.pc) := by
  obtain ⟨decoded, -, size, checked⟩ := accept_eq_ok accepted
  obtain ⟨fits, kept, -⟩ := SaveFile.decode_eq_ok decoded
  obtain ⟨first, second⟩ := checkResumePoint_eq_ok checked
  have guards : (machine.withSnapshot game).work.memory.Guards story :=
    (protects.withSnapshot size).memory
  have same : (machine.withSnapshot game).image.size = machine.image.size :=
    guards.size.trans protects.memory.size.symm
  refine reaches_resumeAfterSave ?_ ?_ ?_ ?_
  · exact guards.dynamicEnd_le_size
  · refine interrupt_kept kept ?_
    rw [← calls_withSnapshot fits.nested]
    exact CallStack.mem_frames.mpr List.mem_cons_self
  · unfold Image.Holds at first ⊢
    rwa [same]
  · unfold Image.Holds at second ⊢
    rwa [same]

/-- The storage hands over a game that the machine accepts, but whose result has no place. -/
def Strands (machine : Machine) : Prop :=
  ∃ game swapped, machine.Offers game swapped ∧ swapped.work.resume? game.pc = none

private theorem core_withSnapshot_log (machine : Machine) (log : Log) (game : SavedGame) :
    ({ machine with log }.withSnapshot game).core = (machine.withSnapshot game).core := by
  rw [core_withSnapshot, core_withSnapshot]
  rfl

private theorem Offers.unique {game other : SavedGame} {swapped swapped' : Machine}
    (offers : machine.Offers game swapped) (offers' : machine.Offers other swapped') :
    game = other ∧ swapped = swapped' := by
  obtain ⟨data, fetched, handed, accepted, rfl⟩ := offers
  obtain ⟨data', fetched', handed', accepted', rfl⟩ := offers'
  rw [handed] at handed'
  cases handed'
  rw [accepted] at accepted'
  cases accepted'
  exact ⟨rfl, rfl⟩

/-- An offered game is resumed, unless its result has no place: then memory is that of the game, and
the program counter has not moved. -/
theorem restore_of_offers {story : Array UInt8} (protects : machine.core.Protects story)
    {game : SavedGame} {swapped : Machine} (offers : machine.Offers game swapped) :
    match swapped.work.resume? game.pc with
    | some (work, pc) =>
        ∃ after, restore machine = .ok true after ∧ after.core = { swapped.core with work, pc }
    | none =>
        ∃ fault after, restore machine = .error (.fault fault) after ∧
          after.work.memory = swapped.work.memory ∧ after.pc = machine.pc := by
  obtain ⟨data, fetched, handed, accepted, rfl⟩ := offers
  obtain ⟨log, run⟩ := restore_eq_resume handed accepted
  have same := core_of_retrieve handed
  have logged : ({ fetched with log } : Machine).core = machine.core := same
  have guarded : ({ fetched with log } : Machine).core.Protects story := by
    rw [logged]
    exact protects
  have accepts : ({ fetched with log } : Machine).accept data = .ok game := by
    rw [accept_congr logged]
    exact accepted
  have size := (accept_eq_ok accepts).2.2.1
  have placed := applySnapshot_eq game { fetched with log }
  rw [if_pos size] at placed
  have reaches := reaches_accepted guarded accepts
  have core := core_withSnapshot_log fetched log game
  have work : ({ fetched with log }.withSnapshot game).work = (fetched.withSnapshot game).work :=
    congrArg Core.work core
  have pc : ({ fetched with log }.withSnapshot game).pc = machine.pc := by
    have unmoved := congrArg Core.pc (core_withSnapshot { fetched with log } game)
    exact unmoved.trans (congrArg Core.pc same)
  unfold resume at run
  rw [Action.bind_of_ok placed] at run
  rw [work] at reaches
  cases leads : (fetched.withSnapshot game).work.resume? game.pc with
  | some place =>
      obtain ⟨work, pc⟩ := place
      rw [leads] at reaches
      rw [Action.bind_of_ok reaches] at run
      refine ⟨_, run, ?_⟩
      rw [← core]
      rfl
  | none =>
      rw [leads] at reaches
      obtain ⟨fault, after, failed, memory, unmoved⟩ := reaches
      rw [Action.bind_of_error failed] at run
      exact ⟨fault, after, run, by rw [memory, work], by rw [unmoved, pc]⟩

/-- What a restore comes to in a machine that protects its story. -/
theorem restore_of_protects {story : Array UInt8} (protects : machine.core.Protects story) :
    ((∃ failure after, restore machine = .error failure after) ↔ machine.Strands) ∧
      (∀ failure after, restore machine = .error failure after →
        failure.IsFault ∧ ∃ game swapped, machine.Offers game swapped ∧
          after.work.memory = swapped.work.memory ∧ after.pc = machine.pc) ∧
      (∀ after, restore machine = .ok false after → after.core = machine.core) ∧
      ∀ after, restore machine = .ok true after →
        ∃ game swapped work pc, machine.Offers game swapped ∧
          swapped.work.resume? game.pc = some (work, pc) ∧
          after.core = { swapped.core with work, pc } := by
  by_cases offered : ∃ game swapped, machine.Offers game swapped
  · obtain ⟨game, swapped, offers⟩ := offered
    have outcome := restore_of_offers protects offers
    cases leads : swapped.work.resume? game.pc with
    | some place =>
        obtain ⟨work, pc⟩ := place
        rw [leads] at outcome
        obtain ⟨after, restored, core⟩ := outcome
        rw [restored]
        refine ⟨⟨?_, ?_⟩, ?_, ?_, ?_⟩
        · rintro ⟨_, _, ⟨⟩⟩
        · rintro ⟨other, swapped', offers', nowhere⟩
          obtain ⟨rfl, rfl⟩ := offers.unique offers'
          rw [leads] at nowhere
          cases nowhere
        · rintro _ _ ⟨⟩
        · rintro _ ⟨⟩
        · rintro _ ⟨⟩
          exact ⟨game, swapped, work, pc, offers, leads, core⟩
    | none =>
        rw [leads] at outcome
        obtain ⟨fault, after, failed, memory, unmoved⟩ := outcome
        rw [failed]
        refine ⟨⟨?_, ?_⟩, ?_, ?_, ?_⟩
        · exact fun _ => ⟨game, swapped, offers, leads⟩
        · exact fun _ => ⟨_, after, rfl⟩
        · rintro _ _ ⟨⟩
          exact ⟨⟨fault, rfl⟩, game, swapped, offers, memory, unmoved⟩
        · rintro _ ⟨⟩
        · rintro _ ⟨⟩
  · obtain ⟨after, refused, core⟩ :=
      restore_of_not_offers fun game swapped offers => offered ⟨game, swapped, offers⟩
    rw [refused]
    refine ⟨⟨?_, ?_⟩, ?_, ?_, ?_⟩
    · rintro ⟨_, _, ⟨⟩⟩
    · rintro ⟨game, swapped, offers, -⟩
      exact absurd ⟨game, swapped, offers⟩ offered
    · rintro _ _ ⟨⟩
    · rintro _ ⟨⟩
      exact core
    · rintro _ ⟨⟩

/-- The exact outcome of a restore at every point of a run. It fails just when the game that is
handed over is accepted although its result has no place; memory is then that of the game while the
program counter has not moved. Otherwise it answers false with the game as it was, or it answers
true with the game in place and resumed. -/
theorem restore_outcome {fresh started : Machine} (unused : fresh.requests = #[])
    (accepted : reset fresh = .ok () started) (passes : Passes started machine) :
    ((∃ failure after, restore machine = .error failure after) ↔ machine.Strands) ∧
      (∀ failure after, restore machine = .error failure after →
        failure.IsFault ∧ ∃ game swapped, machine.Offers game swapped ∧
          after.work.memory = swapped.work.memory ∧ after.pc = machine.pc) ∧
      (∀ after, restore machine = .ok false after → after.core = machine.core) ∧
      ∀ after, restore machine = .ok true after →
        ∃ game swapped work pc, machine.Offers game swapped ∧
          swapped.work.resume? game.pc = some (work, pc) ∧
          after.core = { swapped.core with work, pc } := by
  exact restore_of_protects (protects_of_passes unused accepted passes)

/-- A saved game of the sample story that goes on with a return to its main routine, with a result
for a local that the main routine does not have. -/
def strandedGame : SavedGame where
  release := 1
  serial := [50, 54, 48, 49, 48, 49]
  checksum := 0
  pc := 64
  dynamic := (sampleStory.toList.take 80).set 64 0xc1
  frames := [{}, { returnTo := 82, storeTo := some 5 }]

/-- The sample machine with that game in its slot. -/
def stranded : Machine :=
  { sample with
    storage :=
      .slot .accepting (SaveFile.encode strandedGame (sampleStory.toList.take 80)).toOption }

private theorem reset_stranded : reset stranded = .ok () (reset.finalState stranded) :=
  Action.eq_ok_finalState (by decide +kernel)

private theorem restore_stranded :
    ∃ failure, restore (reset.finalState stranded) =
      .error failure (restore.finalState (reset.finalState stranded)) :=
  Action.eq_error_finalState (by decide +kernel)

/-- A restore fails, and yet memory is that of the saved game. -/
theorem restore_outcome_stranded :
    (reset.finalState stranded).Strands ∧
      (reset.finalState stranded).image.peek 64 = 0 ∧
      (restore.finalState (reset.finalState stranded)).image.peek 64 = 0xc1 ∧
      (restore.finalState (reset.finalState stranded)).pc = (reset.finalState stranded).pc := by
  obtain ⟨failure, failed⟩ := restore_stranded
  have outcome := restore_outcome rfl reset_stranded (.between [])
  obtain ⟨-, game, swapped, -, -, unmoved⟩ := outcome.2.1 _ _ failed
  exact ⟨outcome.1.mp ⟨_, _, failed⟩, by decide +kernel, by decide +kernel, unmoved⟩

/-- A restore can fail: it does not always answer. -/
theorem not_forall_restore_answers :
    ¬ ∀ fresh started machine : Machine, fresh.requests = #[] → reset fresh = .ok () started →
      Passes started machine →
        (∃ after, restore machine = .ok false after ∧ after.core = machine.core) ∨
          ∃ after, restore machine = .ok true after := by
  intro answers
  obtain ⟨failure, failed⟩ := restore_stranded
  rcases answers stranded _ _ rfl reset_stranded (.between []) with
    ⟨after, answered, -⟩ | ⟨after, answered⟩
  · exact absurd (failed.symm.trans answered) (by simp only [reduceCtorEq, not_false_eq_true])
  · exact absurd (failed.symm.trans answered) (by simp only [reduceCtorEq, not_false_eq_true])

end Machine

end StoryMachine
