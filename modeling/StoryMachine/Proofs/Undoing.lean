import StoryMachine.Proofs.Backgrounds
import StoryMachine.Proofs.Resuming

/-!
# Going back to a snapshot

A snapshot is kept by an instruction that goes on with the result one. Whatever
has happened since, going back to it puts the calls and the program counter where
that instruction left them, and memory too, but for the bits of the header that
belong to the machine; the result then reads two.
-/

namespace StoryMachine

open StoryMachine.Action (Keeps)

/-! ## Decoded instructions -/

private theorem Opcode.saveUndo_form :
    ∀ opcode ∈ Opcode.all, opcode.operation = .saveUndo →
      opcode.group = .extended ∧ opcode.stores = true ∧ opcode.branches = false := by
  decide

namespace Instruction

variable {codec : Codec} {tables : Option Image} {image : Image} {address version : Int}
  {instruction : Instruction}

/-- There are instructions that keep snapshots from version five on, and they store a result. -/
theorem target_of_saveUndo (decoded : read codec tables image address version = .ok instruction)
    (saves : instruction.opcode.operation = .saveUndo) :
    5 ≤ version ∧
      instruction.storeTo = some (image.peek instruction.resultAddress.toNat : Int) ∧
      instruction.nextAddress = instruction.resultAddress + 1 := by
  obtain ⟨extended, stores, branches⟩ :=
    Opcode.saveUndo_form _ (opcode_mem_all_of_read decoded) saves
  obtain ⟨-, head, operandsEnd, branchAddress, parts⟩ := read_eq_ok decoded
  have fits := List.find?_some parts.opcode
  simp only [Opcode.isIn, Bool.and_eq_true, decide_eq_true_eq] at fits
  have group : head.group = .extended := fits.1.2.symm.trans extended
  exact ⟨InstructionHead.five_le_of_extended parts.headed group,
    target_of_stores decoded stores branches⟩

end Instruction

/-! ## Workspaces -/

namespace Workspace

variable {left right : Workspace}

private theorem calls_assigned (same : left.calls = right.calls) (number value : Int) :
    (left.assigned number value).calls = (right.assigned number value).calls := by
  unfold assigned
  split
  · rw [same]
  split
  · rw [same]
  · exact same

private theorem Assignable.congr {number : Int} (assignable : right.Assignable number)
    (calls : left.calls = right.calls) (globals : left.globals = right.globals)
    (extent : left.memory.dynamicEnd = right.memory.dynamicEnd) : left.Assignable number := by
  unfold Assignable globalAddress at assignable ⊢
  rw [calls, globals, extent]
  exact assignable

/-- Reading a variable leaves memory alone. -/
theorem keeps_memory_getVariable (memory : GameMemory) (number : Int) (indirect : Bool) :
    Keeps (fun workspace => workspace.memory = memory) (getVariable number indirect) := by
  unfold getVariable
  refine .seq (.lift fun _ _ => trivial) fun _ => ?_
  split
  · split
    · exact .get fun _ _ => .lift fun _ _ => trivial
    · refine .seq (.get fun _ _ => .pure trivial) fun frame => ?_
      refine .seq (.lift fun _ _ => trivial) fun popped => ?_
      exact .seq (.modify fun _ same => same) fun _ => .pure trivial
  split
  · exact .get fun _ _ => .lift fun _ _ => trivial
  · exact .get fun _ _ => .seq (.lift fun _ _ => trivial) fun _ => .pure trivial

end Workspace

namespace Machine

variable {machine : Machine} {data : Array UInt8} {instruction : Instruction}

private theorem image_of_operandValues {values : List Int} {taken : Machine}
    (given : operandValues instruction machine = .ok values taken) :
    taken.image = machine.image := by
  have reads : Keeps (fun taken => taken.work.memory = machine.work.memory)
      (operandValues instruction) :=
    keeps_operandValues_of_reads fun number =>
      .focus (fun _ _ _ => rfl) (fun _ => rfl) fun _ _ =>
        Workspace.keeps_memory_getVariable _ number false
  exact congrArg GameMemory.toImage (reads.of_ok rfl given).1

/-! ## Machines of a story file -/

/-- The machine runs the story of a file, with the globals where the file has them. -/
structure Rooted (data : Array UInt8) (machine : Machine) : Prop where
  protects : machine.core.Protects data
  ledger : machine.core.Ledger fun _ => True
  globals : machine.work.globals = (Image.mk data).globalsAddress

private theorem globals_begun (machine : Machine) :
    machine.begun.core.work.globals = machine.image.globalsAddress := by
  rw [core_begun]
  exact congrArg Int.ofNat (globalsAddress_announce machine.image machine.surroundings)

/-- The globals stay where the file has them through every move. -/
theorem globals_move {reach : Int → Prop} {kind : MoveKind} {after : Machine}
    (protects : machine.core.Protects data) (move : Move reach kind machine after)
    (globals : machine.core.work.globals = (Image.mk data).globalsAddress) :
    after.core.work.globals = (Image.mk data).globalsAddress := by
  cases move with
  | aside apart =>
      rw [apart.core]
      exact globals
  | undo =>
      rw [core_withSnapshot]
      exact globals
  | restore =>
      rw [core_withSnapshot]
      exact globals
  | @restart _ _ memory loaded =>
      have file : machine.file.data = data := protects.file
      rw [file] at loaded
      obtain ⟨-, image, -⟩ := Story.load_eq_ok loaded
      rw [core_restarted, globals_begun]
      have kept := globalsAddress_keepFlags memory.toImage machine.image.flags2
      exact congrArg Int.ofNat (kept.trans (congrArg Image.globalsAddress image))
  | _ => exact globals

/-- That the frames are rooted and the globals stay put survives every move. -/
theorem closed_rooted (data : Array UInt8) : Closed (fun _ => True) (Rooted data) where
  move := fun _ rooted move =>
    ⟨rooted.protects.move move, rooted.ledger.move move,
      globals_move rooted.protects move rooted.globals⟩
  near := fun _ _ => trivial
  ledger := fun rooted found => rooted.ledger.found found

/-- A machine that is started has its frames rooted and its globals in place. -/
theorem rooted_of_reset {fresh started : Machine} (unused : fresh.requests = #[])
    (accepted : reset fresh = .ok () started) : Rooted fresh.file.data started := by
  refine ⟨protects_of_reset accepted, ledger_of_reset accepted unused, ?_⟩
  obtain ⟨story, memory, loaded, rfl⟩ := reset_eq_ok accepted
  obtain ⟨-, image, -⟩ := Story.load_eq_ok loaded
  change (fresh.opened story memory).core.work.globals = _
  unfold opened
  rw [globals_begun]
  exact congrArg Int.ofNat (congrArg Image.globalsAddress image)

/-- The dynamic memory of a snapshot fits every machine of the same story. -/
theorem Rooted.length_dynamic {source : Machine} (rooted : Rooted data machine)
    (other : Rooted data source) (pc : Int) :
    ((source.snapshot pc).dynamic.length : Int) = machine.work.memory.dynamicEnd := by
  have size := GameMemory.size_dynamicBytes other.protects.memory
  exact (congrArg Int.ofNat size).trans rooted.protects.memory.dynamicEnd.symm

/-! ## Moments -/

/-- A moment to go back to: an instruction has kept a snapshot of a machine and left another. -/
structure Moment where
  instruction : Instruction
  taken : Machine
  after : Machine

namespace Moment

/-- The snapshot. -/
def game (moment : Moment) : SavedGame :=
  moment.taken.snapshot moment.instruction.resultAddress

private theorem dynamic_game (moment : Moment) :
    moment.game.dynamic = moment.taken.work.memory.dynamicBytes.toList :=
  rfl

/-- The variable that took the result. -/
def target (moment : Moment) : Int :=
  moment.taken.image.peek moment.instruction.resultAddress.toNat

/-- The instruction stands outside of the header of a story file and has stored its result. -/
structure Sound (data : Array UInt8) (moment : Moment) : Prop where
  rooted : Rooted data moment.taken
  late : 5 ≤ moment.taken.image.version
  beyond : (Header.size : Int) ≤ moment.instruction.resultAddress
  inside : moment.instruction.resultAddress < moment.taken.image.size
  given : moment.instruction.storeTo = some moment.target
  assignable : moment.taken.work.Assignable moment.target
  work : moment.after.work = moment.taken.work.assigned moment.target 1
  pc : moment.after.pc = moment.instruction.resultAddress + 1

end Moment

/-- The machine is back at a moment: the program counter and the calls are as the instruction left
them, except that its result reads two instead of one, and so is memory, but for the bits that the
machine owns and for those that it keeps from the game before. -/
structure BackAt (moment : Moment) (before machine : Machine) : Prop where
  pc : machine.pc = moment.after.pc
  work : ∃ target amended, moment.instruction.storeTo = some target ∧
    Workspace.getVariable target true moment.after.work = .ok 1 moment.after.work ∧
    Workspace.setVariable target 2 true moment.after.work = .ok () amended ∧
    machine.work.calls = amended.calls ∧ machine.image.size = amended.memory.size ∧
    ∀ address bit,
      ¬ Header.Owned moment.taken.image.version before.surroundings address bit →
        ¬ Header.Preserved address bit →
          machine.image.peekFlag address bit = amended.memory.peekFlag address bit
  kept : ∀ address bit, Header.Preserved address bit →
    machine.image.peekFlag address bit = before.image.peekFlag address bit

/-! ## Keeping a snapshot -/

/-- A snapshot that was kept is a moment to go back to. -/
theorem moment_of_saveUndo (rooted : Rooted data machine) {address : Int}
    (decoded : machine.instructionAt address = .ok instruction)
    (saves : instruction.opcode.operation = .saveUndo) (beyond : Header.size ≤ instruction.address)
    {values : List Int} {taken saved : Machine}
    (given : operandValues instruction machine = .ok values taken)
    (executed : executeInstruction instruction machine = .ok () saved) :
    Moment.Sound data ⟨instruction, taken, saved⟩ ∧
      saved.undo = (taken.snapshot instruction.resultAddress :: taken.undo).take maxUndo := by
  have image := image_of_operandValues given
  have within := Instruction.within_of_read decoded
  obtain ⟨late, target, next⟩ := Instruction.target_of_saveUndo decoded saves
  have reading := ensures_operandValues (closed_rooted data) within.operands
    (Instruction.opcode_mem_all_of_read decoded)
  have taken_rooted := (reading.of_ok rooted given).1
  obtain ⟨kept, keeps⟩ : ∃ kept, kept = { taken with
      undo := (taken.snapshot instruction.resultAddress :: taken.undo).take maxUndo } := ⟨_, rfl⟩
  have performed : perform instruction values taken = .ok (.store 1) kept := by
    unfold perform
    rw [Action.get_bind, keeps]
    simp only [saves]
    rfl
  have same : kept.work = taken.work := by rw [keeps]
  unfold executeInstruction at executed
  rw [Action.bind_of_ok given, Action.bind_of_ok performed] at executed
  change storeResult instruction 1 kept = .ok () saved at executed
  have inside : taken.work.memory.dynamicEnd ≤ taken.work.memory.size :=
    GameMemory.Guards.dynamicEnd_le_size taken_rooted.protects.memory
  obtain ⟨assignable, work, pc⟩ := storeResult_eq_ok (same ▸ inside) target executed
  rw [same] at assignable work
  rw [← image] at target assignable work late
  refine ⟨⟨taken_rooted, by exact_mod_cast late, ?_, ?_, target, assignable, work, ?_⟩, ?_⟩
  · have result := within.result
    dsimp only
    omega
  · have stop := within.stop
    rw [← image] at stop
    dsimp only
    omega
  · exact pc.trans next
  · have undo := (ignoresMargin_storeResult instruction 1 kept).undo
    rw [Action.finalState_of_ok executed, keeps] at undo
    exact undo

/-! ## Going back -/

/-- With the snapshot of a sound moment in place, the workspace has the calls of that moment and
matches it otherwise. -/
theorem Moment.Sound.placed {moment : Moment} (sound : moment.Sound data)
    (rooted : Rooted data machine) :
    (machine.withSnapshot moment.game).work.calls = moment.taken.work.calls ∧
      Workspace.Matches
        (fun address bit =>
          Header.Owned moment.taken.image.version machine.surroundings address bit ∨
            Header.Preserved address bit)
        (machine.withSnapshot moment.game).work moment.taken.work := by
  have calls : (machine.withSnapshot moment.game).work.calls = moment.taken.work.calls := by
    refine (congrArg (fun core => core.work.calls) (core_withSnapshot machine moment.game)).trans ?_
    exact congrArg (fun calls => calls.getD machine.work.calls)
      (CallStack.ofFrames?_frames moment.taken.work.calls)
  have size : (moment.game.dynamic.length : Int) = machine.work.memory.dynamicEnd :=
    rooted.length_dynamic sound.rooted moment.instruction.resultAddress
  have protects := rooted.protects.withSnapshot size
  have guards : moment.taken.work.memory.Guards data := sound.rooted.protects.memory
  refine ⟨calls, congrArg CallStack.kept calls, ?_, ?_, ?_⟩
  · have globals := congrArg (fun core => core.work.globals)
      (core_withSnapshot machine moment.game)
    exact globals.trans (rooted.globals.trans sound.rooted.globals.symm)
  · exact protects.memory.size.trans guards.size.symm
  · intro address bit apart
    rw [not_or] at apart
    have kept := peekFlag_withSnapshot rooted.protects guards moment.dynamic_game apart.1
    exact kept.trans (if_neg apart.2)

/-- The snapshot of a sound moment can be put in place and resumed in every machine of the same
story, which is then back at the moment. -/
theorem Moment.Sound.resumed {moment : Moment} (sound : moment.Sound data)
    (apart : Header.size ≤ (Image.mk data).globalsAddress) (rooted : Rooted data machine) :
    ∃ restored, applySnapshot moment.game machine = .ok () (machine.withSnapshot moment.game) ∧
      resumeAfterSave moment.game.pc (machine.withSnapshot moment.game) = .ok () restored ∧
      BackAt moment machine restored := by
  have size : (moment.game.dynamic.length : Int) = machine.work.memory.dynamicEnd :=
    rooted.length_dynamic sound.rooted moment.instruction.resultAddress
  have applied := applySnapshot_eq moment.game machine
  rw [if_pos size] at applied
  obtain ⟨calls, alike⟩ := sound.placed rooted
  have own : moment.taken.work.memory.Guards data := sound.rooted.protects.memory
  have guards : (machine.withSnapshot moment.game).work.memory.Guards data :=
    (rooted.protects.withSnapshot size).memory
  have beyond := sound.beyond
  have reads (place : Nat) (far : place = 0 ∨ Header.size ≤ place) :
      (machine.withSnapshot moment.game).image.peek place = moment.taken.image.peek place := by
    apply Image.peek_eq_of_peekFlag
    intro bit
    refine alike.bits place bit fun unlike => ?_
    simp only [Header.Owned, Header.Preserved, List.mem_cons, List.not_mem_nil, or_false] at unlike
    unfold Header.size at far
    omega
  have version : (machine.withSnapshot moment.game).image.version = moment.taken.image.version :=
    reads 0 (.inl rfl)
  have target : ((machine.withSnapshot moment.game).image.peek moment.game.pc.toNat : Int) =
      moment.target :=
    congrArg Int.ofNat (reads moment.instruction.resultAddress.toNat (.inr (by omega)))
  have holds : (machine.withSnapshot moment.game).image.Holds moment.game.pc := by
    have inside := sound.inside
    have same : (machine.withSnapshot moment.game).image.size = moment.taken.image.size :=
      alike.size
    change 0 ≤ moment.instruction.resultAddress ∧ moment.instruction.resultAddress < _
    omega
  have assignable : (machine.withSnapshot moment.game).work.Assignable moment.target :=
    sound.assignable.congr calls alike.globals (guards.dynamicEnd.trans own.dynamicEnd.symm)
  have stored := onWork_of_ok
    (Workspace.setVariable_of_assignable guards.dynamicEnd_le_size assignable 2)
  have late : ¬ (machine.withSnapshot moment.game).image.version < 4 := by
    have five := sound.late
    omega
  have run := resumeAfterSave_of_late late holds
  rw [target, Action.bind_of_ok stored] at run
  refine ⟨_, applied, run, sound.pc.symm, ?_, ?_⟩
  · have assigned := alike.assigned moment.target 2
    refine ⟨moment.target, moment.taken.work.assigned moment.target 2, sound.given, ?_, ?_,
      Workspace.calls_assigned calls _ _, assigned.size, ?_⟩
    · rw [sound.work]
      exact Workspace.getVariable_assigned own.dynamicEnd_le_size sound.assignable 1
    · rw [sound.work]
      exact Workspace.setVariable_assigned own.dynamicEnd_le_size sound.assignable 1 2
    · intro address bit unowned unpreserved
      exact assigned.bits address bit (not_or.mpr ⟨unowned, unpreserved⟩)
  · intro address bit preserved
    have globals : (machine.withSnapshot moment.game).work.globals = machine.work.globals :=
      congrArg (fun core => core.work.globals) (core_withSnapshot machine moment.game)
    have place := preserved
    unfold Header.Preserved at place
    have rooted_globals := rooted.globals
    unfold Header.size at apart
    have below := Workspace.peek_assigned_of_lt
      (show (address : Int) < (machine.withSnapshot moment.game).work.globals by omega)
      moment.target 2
    have unowned : ¬ Header.Owned moment.taken.image.version machine.surroundings address bit := by
      simp only [Header.Owned, List.mem_cons, List.not_mem_nil, or_false]
      omega
    have kept := peekFlag_withSnapshot rooted.protects own moment.dynamic_game unowned
    exact (congrArg (·.testBit bit) below).trans (kept.trans (if_pos preserved))

/-- The newest snapshot is gone back to, and it is not held any more. -/
theorem Moment.Sound.restoreUndo {moment : Moment} (sound : moment.Sound data)
    (apart : Header.size ≤ (Image.mk data).globalsAddress) (rooted : Rooted data machine)
    {rest : List SavedGame} (newest : machine.undo = moment.game :: rest) :
    ∃ restored, Machine.restoreUndo machine = .ok true restored ∧ restored.undo = rest ∧
      BackAt moment machine restored := by
  obtain ⟨popped, pops⟩ : ∃ popped, popped = { machine with undo := rest } := ⟨_, rfl⟩
  have dropped : Rooted data popped := by
    rw [pops]
    exact (closed_rooted data).of_allowed trivial rooted (.dropUndo newest)
  obtain ⟨restored, applied, resumed, back⟩ := sound.resumed apart dropped
  have run : Machine.restoreUndo machine = .ok true restored := by
    unfold Machine.restoreUndo
    rw [Action.get_bind, newest]
    dsimp only
    rw [Action.modify_bind, ← pops, Action.bind_of_ok applied, Action.bind_of_ok resumed]
    rfl
  refine ⟨restored, run, ?_, ?_⟩
  · have first := (ignoresMargin_applySnapshot moment.game popped).undo
    have second := (ignoresMargin_resumeAfterSave moment.game.pc
      (popped.withSnapshot moment.game)).undo
    rw [Action.finalState_of_ok applied] at first
    rw [Action.finalState_of_ok resumed] at second
    rw [second, first, pops]
  · subst pops
    exact ⟨back.pc, back.work, back.kept⟩

end Machine

end StoryMachine
