import StoryMachine.Proofs.Restoring

/-!
# Save instructions

A decoded save branches on its outcome up to version three and stores it from
then on. One that succeeds has handed the written game to the storage and is then
settled like any other result.
-/

namespace StoryMachine

/-! ## Decoded saves -/

/-- Saves branch up to version three and store a result from then on. -/
theorem Opcode.save_forms :
    ∀ opcode ∈ Opcode.all, opcode.operation = .save →
      opcode.least = 0 ∧ opcode.hasText = false ∧
        (opcode.branches = true ∧ opcode.stores = false ∧ opcode.lastVersion = some 3 ∨
          opcode.branches = false ∧ opcode.stores = true ∧
            (4 ≤ opcode.firstVersion ∨ opcode.group = .extended)) := by
  decide

/-- An extended instruction is decoded from version five on. -/
theorem InstructionHead.five_le_of_extended {image : Image} {address version : Int}
    {head : InstructionHead} (decoded : read image address version = .ok head)
    (extended : head.group = .extended) : 5 ≤ version := by
  have group {form : InstructionForm} {group : OpcodeGroup} {number : Nat} {address : Int}
      (typed : withTypes image form group number address = .ok head) : head.group = group := by
    unfold withTypes at typed
    obtain ⟨bytes, -, typed⟩ := Result.bind_eq_ok typed
    cases typed
    rfl
  unfold read at decoded
  obtain ⟨first, -, decoded⟩ := Result.bind_eq_ok decoded
  dsimp only at decoded
  split at decoded
  · rename_i long
    exact long.2
  split at decoded
  · have other := group decoded
    rw [extended] at other
    split at other <;> cases other
  split at decoded
  · cases decoded
    dsimp only at extended
    split at extended <;> cases extended
  · cases decoded
    cases extended

namespace Instruction

variable {codec : Codec} {tables : Option Image} {image : Image} {address version : Int}
  {instruction : Instruction}

/-- The version decides which of the two forms a save has. -/
theorem branches_of_save (decoded : read codec tables image address version = .ok instruction)
    (saves : instruction.opcode.operation = .save) :
    (version < 4 ∧ instruction.opcode.branches = true ∧ instruction.opcode.stores = false) ∨
      (4 ≤ version ∧ instruction.opcode.branches = false ∧ instruction.opcode.stores = true) := by
  obtain ⟨-, head, operandsEnd, branchAddress, parts⟩ := read_eq_ok decoded
  have listed := opcode_mem_all_of_read decoded
  have fits := List.find?_some parts.opcode
  simp only [Opcode.isIn, Bool.and_eq_true, decide_eq_true_eq] at fits
  obtain ⟨⟨-, group⟩, first, last⟩ := fits
  rcases (Opcode.save_forms _ listed saves).2.2 with
    ⟨branches, stores, until_three⟩ | ⟨branches, stores, since_four | extended⟩
  · rw [until_three] at last
    have early : version ≤ 3 := by simpa using last
    exact .inl ⟨by omega, branches, stores⟩
  · exact .inr ⟨by omega, branches, stores⟩
  · rw [extended] at group
    have five := InstructionHead.five_le_of_extended parts.headed group.symm
    exact .inr ⟨by omega, branches, stores⟩

/-- Up to version three a save is followed by its branch. -/
theorem branch_of_save (decoded : read codec tables image address version = .ok instruction)
    (saves : instruction.opcode.operation = .save) (early : version < 4) :
    instruction.opcode.branches = true ∧ ∃ branch, instruction.branch = some branch ∧
      readBranch image instruction.resultAddress = .ok (branch, instruction.nextAddress) := by
  obtain ⟨-, branches, stores⟩ | ⟨late, -, -⟩ := branches_of_save decoded saves
  · obtain ⟨-, head, operandsEnd, branchAddress, parts⟩ := read_eq_ok decoded
    refine ⟨branches, ?_⟩
    rcases readTargetIf_eq_ok parts.target with ⟨-, -, here⟩ | ⟨storing, -⟩
    · rcases readBranchIf_eq_ok parts.branch with ⟨skipping, -⟩ | ⟨-, branch, found, given⟩
      · rw [branches] at skipping
        cases skipping
      · rw [here] at found
        exact ⟨branch, given, found⟩
    · rw [stores] at storing
      cases storing
  · omega

/-- An instruction that stores its result is followed by the variable that takes it. -/
theorem target_of_stores (decoded : read codec tables image address version = .ok instruction)
    (stores : instruction.opcode.stores = true) (branches : instruction.opcode.branches = false) :
    instruction.storeTo = some (image.peek instruction.resultAddress.toNat : Int) ∧
      instruction.nextAddress = instruction.resultAddress + 1 := by
  obtain ⟨-, head, operandsEnd, branchAddress, parts⟩ := read_eq_ok decoded
  rcases readTargetIf_eq_ok parts.target with ⟨dropping, -⟩ | ⟨-, after, byte, found, given⟩
  · rw [stores] at dropping
    cases dropping
  · rcases readBranchIf_eq_ok parts.branch with ⟨-, -, here⟩ | ⟨branching, -⟩
    · obtain ⟨-, rfl⟩ := Image.byte_eq_ok found
      exact ⟨given, here.trans after⟩
    · rw [branches] at branching
      cases branching

/-- From version four on a save is followed by the variable that takes its result. -/
theorem target_of_save (decoded : read codec tables image address version = .ok instruction)
    (saves : instruction.opcode.operation = .save) (late : 4 ≤ version) :
    instruction.opcode.branches = false ∧
      instruction.storeTo = some (image.peek instruction.resultAddress.toNat : Int) ∧
      instruction.nextAddress = instruction.resultAddress + 1 := by
  obtain ⟨early, -, -⟩ | ⟨-, branches, stores⟩ := branches_of_save decoded saves
  · omega
  · exact ⟨branches, target_of_stores decoded stores branches⟩

/-- Images that agree on two bytes read a branch alike. -/
theorem readBranch_congr {other : Image} (size : image.size = other.size)
    (first : image.peek address.toNat = other.peek address.toNat)
    (second : image.peek (address + 1).toNat = other.peek (address + 1).toNat) :
    readBranch image address = readBranch other address := by
  have byte {place : Int} (same : image.peek place.toNat = other.peek place.toNat) :
      image.byte place = other.byte place := by
    have held : image.Holds place ↔ other.Holds place := by
      unfold Image.Holds
      rw [size]
    unfold Image.byte
    rw [same, size]
    by_cases holds : image.Holds place
    · rw [if_pos holds, if_pos (held.mp holds)]
    · rw [if_neg holds, if_neg (mt held.mpr holds)]
  unfold readBranch
  rw [byte first, byte second]

end Instruction

namespace Machine

variable {machine : Machine}

private theorem perform_save {instruction : Instruction} (saves : instruction.opcode.operation = .save)
    {saved : Bool} {stored : Machine} (outcome : save instruction machine = .ok saved stored) :
    perform instruction [] machine =
      .ok (if instruction.opcode.branches then .branch saved else .store (if saved then 1 else 0))
        stored := by
  unfold perform
  rw [Action.get_bind]
  simp only [saves, List.isEmpty_nil, Bool.not_true, Bool.false_eq_true, ↓reduceIte]
  rw [Action.bind_of_ok outcome]
  split <;> rfl

/-- Without operands there is nothing to read. -/
theorem operandValues_of_bare {instruction : Instruction} (least : instruction.opcode.least = 0)
    (bare : instruction.operands = []) : operandValues instruction machine = .ok [] machine := by
  unfold operandValues
  simp only [bare, least, List.length_nil, Nat.lt_irrefl, ↓reduceIte]
  rfl

private theorem orLogged_eq_ok {α : Type} {what : String} {default a : α} {action : Play α}
    {after : Machine} (outcome : orLogged what default action machine = .ok a after)
    (answered : a ≠ default) : action machine = .ok a after := by
  unfold orLogged at outcome
  split at outcome
  · cases outcome
    assumption
  · cases outcome
    exact absurd rfl answered
  · cases outcome
    exact absurd rfl answered
  · cases outcome

/-- A save that succeeds has handed the written game to the storage, and nothing else of the game
changes before its result is settled. -/
theorem save_eq_ok {instruction : Instruction} {stored : Machine}
    (succeeds : save instruction machine = .ok true stored) :
    (∃ data handed, SaveFile.encode (machine.snapshot instruction.resultAddress)
        machine.freshDynamic = .ok data ∧ store data machine = .ok true handed) ∧
      stored.core = machine.core := by
  refine ⟨?_, ((keeps_save (survivesAside_core machine.core) instruction).of_ok rfl succeeds).1⟩
  unfold save at succeeds
  obtain ⟨result, reached, logged, succeeds⟩ := Action.bind_eq_ok succeeds
  have kept : result = some true := by
    cases result with
    | none => cases succeeds
    | some answer =>
        cases answer with
        | false => cases succeeds
        | true => rfl
  subst kept
  have action := orLogged_eq_ok logged (by simp only [ne_eq, reduceCtorEq, not_false_eq_true])
  rw [Action.get_bind] at action
  obtain ⟨data, between, written, action⟩ := Action.bind_eq_ok action
  obtain ⟨answer, handed, given, action⟩ := Action.bind_eq_ok action
  cases action
  obtain ⟨encoded, rfl⟩ := Action.lift_eq_ok written
  exact ⟨data, reached, encoded, given⟩

/-- What is left of the settling of a save, in a machine that has handed the game over. -/
theorem settle_of_save {instruction : Instruction} (listed : instruction.opcode ∈ Opcode.all)
    (saves : instruction.opcode.operation = .save) (bare : instruction.operands = [])
    {stored saved : Machine} (succeeds : save instruction machine = .ok true stored)
    (executed : executeInstruction instruction machine = .ok () saved) :
    (if instruction.opcode.branches then followBranch instruction true
      else storeResult instruction 1) stored = .ok () saved := by
  have least := (Opcode.save_forms _ listed saves).1
  unfold executeInstruction at executed
  rw [Action.bind_of_ok (operandValues_of_bare least bare),
    Action.bind_of_ok (perform_save saves succeeds)] at executed
  cases branches : instruction.opcode.branches with
  | true =>
      rw [branches] at executed
      exact executed
  | false =>
      rw [branches] at executed
      exact executed

/-! ## Where a result leads -/

private theorem Reaches.eq_some {action : Play Unit} {place : Option (Workspace × Int)} {after : Machine}
    (reaches : Reaches action machine place) (outcome : action machine = .ok () after) :
    place = some (after.work, after.pc) := by
  cases place with
  | none =>
      obtain ⟨fault, failed, error, -⟩ := reaches
      rw [error] at outcome
      cases outcome
  | some place =>
      obtain ⟨work, pc⟩ := place
      unfold Reaches at reaches
      rw [reaches] at outcome
      cases outcome
      rfl

/-- A branch that is followed leads where it is said to lead. -/
theorem followBranch_eq_ok (inside : machine.work.memory.dynamicEnd ≤ machine.work.memory.size)
    (plain : machine.work.calls.current.interrupt = none) {instruction : Instruction}
    {branch : BranchTarget} (given : instruction.branch = some branch) {after : Machine}
    (followed : followBranch instruction true machine = .ok () after) :
    machine.work.follow? branch instruction.nextAddress = some (after.work, after.pc) := by
  unfold followBranch at followed
  unfold Workspace.follow?
  rw [given] at followed
  cases sense : branch.ifTrue with
  | true =>
      simp only [sense, ↓reduceIte] at followed ⊢
      exact (reaches_takeBranch inside plain _ _).eq_some followed
  | false =>
      simp only [sense, Bool.true_eq_false, Bool.false_eq_true, ↓reduceIte] at followed ⊢
      cases followed
      rfl

/-- A result that is stored is assigned to its target, and the machine goes on behind the
instruction. -/
theorem storeResult_eq_ok (inside : machine.work.memory.dynamicEnd ≤ machine.work.memory.size)
    {instruction : Instruction} {target value : Int} (given : instruction.storeTo = some target)
    {after : Machine} (stored : storeResult instruction value machine = .ok () after) :
    machine.work.Assignable target ∧ after.work = machine.work.assigned target value ∧
      after.pc = instruction.nextAddress := by
  have run : storeResult instruction value machine =
      (do onWork (Workspace.setVariable target value); goTo instruction.nextAddress) machine := by
    unfold storeResult
    rw [given]
  rw [run] at stored
  by_cases assignable : machine.work.Assignable target
  · have assigned := onWork_of_ok (Workspace.setVariable_of_assignable inside assignable value)
    rw [Action.bind_of_ok assigned] at stored
    cases stored
    exact ⟨assignable, rfl, rfl⟩
  · obtain ⟨fault, failed⟩ := Workspace.setVariable_of_not_assignable inside assignable value
    rw [Action.bind_of_error (onWork_of_error failed)] at stored
    cases stored

end Machine

end StoryMachine
