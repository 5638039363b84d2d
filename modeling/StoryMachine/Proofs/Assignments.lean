import StoryMachine.Proofs.Actions
import StoryMachine.Proofs.Images

/-!
# Storing results

Which variables take a result, what the workspace is afterwards, and what a
return from a routine makes of both. A result that has no place is a fault that
stores nothing.
-/

namespace StoryMachine

/-! ## Words of memory -/

namespace GameMemory

variable {memory : GameMemory}

/-- The memory with a word at an address. -/
def withWord (memory : GameMemory) (address : Nat) (value : Int) : GameMemory :=
  (memory.withByte address (Byte.ofInt (Word.high (Word.ofInt value)))).withByte (address + 1)
    (Byte.ofInt (Word.low (Word.ofInt value)))

/-- A byte in dynamic memory is written, reduced to a byte. -/
theorem write_eq {address : Nat} (value : Int) (dynamic : (address : Int) < memory.dynamicEnd)
    (inside : address < memory.size) :
    write address value memory = .ok () (memory.withByte address (Byte.ofInt value)) := by
  unfold write
  rw [if_neg (by omega), if_pos (by omega), Int.toNat_natCast]
  rfl

/-- A word in dynamic memory is written. -/
theorem writeWord_of_inside {address : Nat} (value : Int)
    (dynamic : (address : Int) + 1 < memory.dynamicEnd) (inside : address + 1 < memory.size) :
    writeWord address value memory = .ok () (memory.withWord address value) := by
  have first := write_eq (Word.high (Word.ofInt value))
    (show (address : Int) < memory.dynamicEnd by omega) (by omega)
  unfold writeWord
  rw [Action.get_bind]
  dsimp only
  rw [if_neg (by omega), Action.bind_of_ok first, ← Int.natCast_succ]
  refine write_eq (Word.low (Word.ofInt value)) dynamic ?_
  rw [size_withByte]
  exact inside

/-- A word is written where both of its bytes may be, and nowhere else. -/
theorem writeWord_eq (inside : memory.dynamicEnd ≤ memory.size) (address value : Int) :
    writeWord address value memory =
      if 0 ≤ address ∧ address + 1 < memory.dynamicEnd then
        .ok () (memory.withWord address.toNat value)
      else .error (.ofCause (.wordNotDynamic address memory.dynamicEnd)) memory := by
  by_cases dynamic : 0 ≤ address ∧ address + 1 < memory.dynamicEnd
  · obtain ⟨place, rfl⟩ := Int.eq_ofNat_of_zero_le dynamic.1
    rw [if_pos dynamic, Int.toNat_natCast]
    exact writeWord_of_inside value dynamic.2 (by omega)
  · unfold writeWord
    rw [Action.get_bind]
    dsimp only
    rw [if_pos (by omega), if_neg dynamic]
    rfl

/-- Writing a word leaves the size of memory. -/
theorem size_withWord (memory : GameMemory) (address : Nat) (value : Int) :
    (memory.withWord address value).size = memory.size := by
  unfold withWord
  rw [size_withByte, size_withByte]

/-- A word that is written over another leaves nothing of it. -/
theorem withWord_withWord (memory : GameMemory) (address : Nat) (first second : Int) :
    (memory.withWord address first).withWord address second = memory.withWord address second := by
  unfold withWord withByte
  congr 2
  rw [Array.setIfInBounds_comm _ _ (Nat.succ_ne_self address), Array.setIfInBounds_setIfInBounds,
    Array.setIfInBounds_setIfInBounds]

/-- Writing a byte leaves the others. -/
theorem peek_withByte_of_ne {address place : Nat} (apart : address ≠ place) (byte : UInt8) :
    (memory.withByte place byte).peek address = memory.peek address :=
  Image.peek_eq_of_getElem? (Array.getElem?_setIfInBounds_ne (Ne.symm apart))

/-- A byte that has been written is there. -/
theorem peek_withByte_self {address : Nat} (inside : address < memory.size) (byte : UInt8) :
    (memory.withByte address byte).peek address = byte.toNat := by
  unfold withByte Image.peek
  rw [Array.getD_eq_getD_getElem?, Array.getElem?_setIfInBounds_self_of_lt inside,
    Option.getD_some]

/-- There is nothing to write beyond the end of memory. -/
theorem withByte_of_size_le {address : Nat} (outside : memory.size ≤ address) (byte : UInt8) :
    memory.withByte address byte = memory := by
  unfold withByte
  rw [Array.setIfInBounds_eq_of_size_le outside]

/-- Writing a word leaves the other bytes. -/
theorem peek_withWord_of_ne {address place : Nat} (first : address ≠ place)
    (second : address ≠ place + 1) (value : Int) :
    (memory.withWord place value).peek address = memory.peek address := by
  unfold withWord
  rw [peek_withByte_of_ne second, peek_withByte_of_ne first]

/-- A word that was written is read back. -/
theorem word_withWord {address : Nat} (inside : address + 1 < memory.size) (value : Int) :
    (memory.withWord address value).word address = .ok (Word.ofInt value) := by
  have first : (memory.withWord address value).peek address = Word.high (Word.ofInt value) := by
    unfold withWord
    rw [peek_withByte_of_ne (Nat.ne_of_lt (Nat.lt_succ_self address)),
      peek_withByte_self (by omega)]
    exact Image.toNat_byte_ofInt (Nat.mod_lt _ (by decide))
  have second : (memory.withWord address value).peek (address + 1) =
      Word.low (Word.ofInt value) := by
    unfold withWord
    rw [peek_withByte_self (by rwa [size_withByte])]
    exact Image.toNat_byte_ofInt (Nat.mod_lt _ (by decide))
  have size := memory.size_withWord address value
  unfold Image.word
  rw [Image.byte_of_holds (by unfold Image.Holds; omega), Result.ok_bind,
    Image.byte_of_holds (by unfold Image.Holds; omega), Result.ok_bind, Int.toNat_natCast, first,
    ← Int.natCast_succ, Int.toNat_natCast, second]
  exact congrArg Except.ok (Word.high_low (Word.ofInt_lt value))

end GameMemory

/-! ## Variables -/

namespace Workspace

variable {workspace : Workspace} {number : Int}

/-- A variable that a result can be stored in. -/
def Assignable (workspace : Workspace) (number : Int) : Prop :=
  number = 0 ∨
  (1 ≤ number ∧ number < firstGlobal ∧ number ≤ workspace.calls.current.locals.length) ∨
  (firstGlobal ≤ number ∧ number ≤ 255 ∧ 0 ≤ workspace.globalAddress (number - firstGlobal) ∧
    workspace.globalAddress (number - firstGlobal) + 1 < workspace.memory.dynamicEnd)

instance (workspace : Workspace) (number : Int) : Decidable (workspace.Assignable number) :=
  inferInstanceAs (Decidable (_ ∨ _ ∨ _))

/-- The workspace with a result in a variable. -/
def assigned (workspace : Workspace) (number value : Int) : Workspace :=
  if number = 0 then
    { workspace with calls.current := workspace.calls.current.push value }
  else if number < firstGlobal then
    let frame := workspace.calls.current
    { workspace with
      calls.current :=
        { frame with locals := frame.locals.set (number - 1).toNat (Word.ofInt value) } }
  else
    { workspace with
      memory :=
        workspace.memory.withWord (workspace.globalAddress (number - firstGlobal)).toNat value }

private theorem setGlobal_eq (inside : workspace.memory.dynamicEnd ≤ workspace.memory.size)
    (index value : Int) :
    setGlobal index value workspace =
      if 0 ≤ workspace.globalAddress index ∧
          workspace.globalAddress index + 1 < workspace.memory.dynamicEnd then
        .ok () { workspace with
          memory := workspace.memory.withWord (workspace.globalAddress index).toNat value }
      else
        .error (.ofCause
          (.wordNotDynamic (workspace.globalAddress index) workspace.memory.dynamicEnd))
          workspace := by
  unfold setGlobal
  rw [Action.get_bind]
  simp only [onMemory, Action.focus, GameMemory.writeWord_eq inside]
  by_cases dynamic : 0 ≤ workspace.globalAddress index ∧
      workspace.globalAddress index + 1 < workspace.memory.dynamicEnd
  · rw [if_pos dynamic, if_pos dynamic]
  · rw [if_neg dynamic, if_neg dynamic]

/-- Writing a variable from 1 to 15 sets a local. -/
theorem setVariable_local (small : 1 ≤ number ∧ number < firstGlobal) (value : Int)
    (indirect : Bool) :
    setVariable number value indirect workspace =
      match workspace.calls.current.setLocal number value with
      | .ok frame => .ok () { workspace with calls.current := frame }
      | .error failure => .error failure workspace := by
  have checked : checkVariable number = .ok () := by
    unfold checkVariable
    unfold firstGlobal at small
    exact if_neg (by omega)
  unfold setVariable
  rw [checked, if_neg (by omega), if_pos small.2]
  cases assigned : workspace.calls.current.setLocal number value <;>
    simp only [bind, EStateM.bind, liftM, monadLift, MonadLift.monadLift, Action.ofResult, current,
      Action.get_eq, pure, EStateM.pure, assigned]
  rfl

/-- Writing a variable from 16 on sets a global. -/
theorem setVariable_global (large : firstGlobal ≤ number ∧ number ≤ 255) (value : Int)
    (indirect : Bool) :
    setVariable number value indirect workspace =
      setGlobal (number - firstGlobal) value workspace := by
  have checked : checkVariable number = .ok () := by
    unfold checkVariable
    unfold firstGlobal at large
    exact if_neg (by omega)
  unfold setVariable
  rw [checked, if_neg (by unfold firstGlobal at large; omega), if_neg (by omega)]
  rfl

/-- A local that the frame has is set, reduced to a word. -/
theorem setLocal_eq {frame : Frame} (present : 1 ≤ number ∧ number ≤ frame.locals.length)
    (value : Int) :
    frame.setLocal number value =
      .ok { frame with locals := frame.locals.set (number - 1).toNat (Word.ofInt value) } :=
  if_pos present

/-- A variable that takes a value is assigned it. -/
theorem setVariable_of_assignable (inside : workspace.memory.dynamicEnd ≤ workspace.memory.size)
    (assignable : workspace.Assignable number) (value : Int) :
    setVariable number value false workspace = .ok () (workspace.assigned number value) := by
  unfold assigned
  rcases assignable with rfl | ⟨least, small, present⟩ | ⟨large, most, place⟩
  · rfl
  · rw [setVariable_local ⟨least, small⟩, setLocal_eq ⟨least, present⟩, if_neg (by omega),
      if_pos small]
  · have positive : ¬ number = 0 := by
      unfold firstGlobal at large
      omega
    rw [setVariable_global ⟨large, most⟩, setGlobal_eq inside, if_pos place, if_neg positive,
      if_neg (by omega)]

/-- A variable that takes no value is a fault, and all stays as it was. -/
theorem setVariable_of_not_assignable
    (inside : workspace.memory.dynamicEnd ≤ workspace.memory.size)
    (refused : ¬ workspace.Assignable number) (value : Int) :
    ∃ fault, setVariable number value false workspace = .error (.fault fault) workspace := by
  unfold Assignable at refused
  simp only [not_or] at refused
  obtain ⟨positive, missing, misplaced⟩ := refused
  by_cases outside : number < 0 ∨ 255 < number
  · have unchecked : checkVariable number = .fault (.variableOutOfRange number) := if_pos outside
    unfold setVariable
    rw [unchecked]
    exact ⟨_, rfl⟩
  by_cases small : number < firstGlobal
  · have absent : ¬ (1 ≤ number ∧ number ≤ workspace.calls.current.locals.length) :=
      fun present => missing ⟨present.1, small, present.2⟩
    have failed : workspace.calls.current.setLocal number value =
        .fault (.noSuchLocal number workspace.calls.current.locals.length) := if_neg absent
    rw [setVariable_local ⟨by omega, small⟩, failed]
    exact ⟨_, rfl⟩
  · have large : firstGlobal ≤ number ∧ number ≤ 255 := by omega
    rw [setVariable_global large, setGlobal_eq inside,
      if_neg fun place => misplaced ⟨large.1, large.2, place⟩]
    exact ⟨_, rfl⟩

/-- A result can be replaced by another in its place. -/
theorem setVariable_assigned (inside : workspace.memory.dynamicEnd ≤ workspace.memory.size)
    (assignable : workspace.Assignable number) (first second : Int) :
    setVariable number second true (workspace.assigned number first) =
      .ok () (workspace.assigned number second) := by
  unfold assigned
  rcases assignable with rfl | ⟨least, small, present⟩ | ⟨large, most, place⟩
  · rfl
  · have positive : ¬ number = 0 := by omega
    rw [if_neg positive, if_neg positive, if_pos small, if_pos small,
      setVariable_local ⟨least, small⟩]
    dsimp only
    rw [setLocal_eq (by rw [List.length_set]; exact ⟨least, present⟩), List.set_set]
  · have positive : ¬ number = 0 := by
      unfold firstGlobal at large
      omega
    rw [if_neg positive, if_neg positive, if_neg (by omega), if_neg (by omega),
      setVariable_global ⟨large, most⟩, setGlobal_eq]
    · refine (if_pos place).trans ?_
      dsimp only [globalAddress]
      rw [GameMemory.withWord_withWord]
    · rw [GameMemory.size_withWord]
      exact inside

/-- A result is read back from its place. -/
theorem getVariable_assigned (inside : workspace.memory.dynamicEnd ≤ workspace.memory.size)
    (assignable : workspace.Assignable number) (value : Int) :
    getVariable number true (workspace.assigned number value) =
      .ok (Word.ofInt value) (workspace.assigned number value) := by
  have checked : checkVariable number = .ok () := by
    unfold checkVariable
    unfold Assignable firstGlobal at assignable
    exact if_neg (by omega)
  unfold getVariable
  rw [checked]
  rcases assignable with rfl | ⟨least, small, present⟩ | ⟨large, most, place, stop⟩
  · rfl
  · have positive : ¬ number = 0 := by omega
    have read : ({ workspace.calls.current with
        locals := workspace.calls.current.locals.set (number - 1).toNat (Word.ofInt value) } :
          Frame).getLocal number = .ok (Word.ofInt value) := by
      unfold Frame.getLocal
      rw [if_pos least]
      dsimp only
      rw [List.getElem?_set_self (by omega)]
    rw [if_neg positive, if_pos small]
    unfold assigned
    rw [if_neg positive, if_pos small]
    simp only [bind, EStateM.bind, liftM, monadLift, MonadLift.monadLift, Action.ofResult, current,
      Action.get_eq, pure, EStateM.pure, read]
  · have positive : ¬ number = 0 := by
      unfold firstGlobal at large
      omega
    obtain ⟨address, found⟩ := Int.eq_ofNat_of_zero_le place
    have enough : address + 1 < workspace.memory.size := by omega
    have read := GameMemory.word_withWord enough value
    rw [if_neg positive, if_neg (by omega)]
    unfold assigned getGlobal
    rw [if_neg positive, if_neg (by omega), found, Int.toNat_natCast]
    have same : globalAddress { workspace with memory := workspace.memory.withWord address value }
        (number - firstGlobal) = address := found
    simp only [bind, EStateM.bind, liftM, monadLift, MonadLift.monadLift, Action.ofResult,
      Action.get_eq, pure, EStateM.pure, same, read]

/-- The workspace without the top values of the current stack. -/
def dropTop (workspace : Workspace) (count : Nat) : Workspace :=
  { workspace with calls.current.stack := workspace.calls.current.stack.drop count }

@[simp] theorem dropTop_zero (workspace : Workspace) : workspace.dropTop 0 = workspace :=
  rfl

@[simp] theorem dropTop_dropTop (workspace : Workspace) (first second : Nat) :
    (workspace.dropTop first).dropTop second = workspace.dropTop (first + second) := by
  unfold dropTop
  rw [List.drop_drop]

/-- Taking a value off the stack. -/
theorem pop_eq (workspace : Workspace) :
    pop workspace =
      match workspace.calls.current.stack with
      | [] => .error (.ofCause .popEmpty) workspace
      | value :: _ => .ok value (workspace.dropTop 1) := by
  have run : pop workspace = ((liftM workspace.calls.current.pop : Action Workspace (Int × Frame))
      >>= fun top => do setCurrent top.2; return top.1) workspace := rfl
  rw [run]
  unfold Frame.pop dropTop
  cases stack : workspace.calls.current.stack with
  | nil => rfl
  | cons value rest => rfl

/-- A result that may be dropped has a place. -/
def Takes (workspace : Workspace) (storeTo : Option Int) : Prop :=
  ∀ target ∈ storeTo, workspace.Assignable target

instance (workspace : Workspace) (storeTo : Option Int) : Decidable (workspace.Takes storeTo) :=
  inferInstanceAs (Decidable (∀ target ∈ storeTo, _))

@[simp] theorem takes_none (workspace : Workspace) : workspace.Takes none := by
  intro target given
  cases given

@[simp] theorem takes_some (workspace : Workspace) (target : Int) :
    workspace.Takes (some target) ↔ workspace.Assignable target := by
  refine ⟨fun takes => takes target rfl, ?_⟩
  rintro assignable _ ⟨⟩
  exact assignable

/-- The workspace with a result that may be dropped. -/
def stored (workspace : Workspace) (storeTo : Option Int) (value : Int) : Workspace :=
  match storeTo with
  | none => workspace
  | some target => workspace.assigned target value

/-- No result is stored below the globals. -/
theorem peek_assigned_of_lt {address : Nat} (below : address < workspace.globals)
    (number value : Int) :
    (workspace.assigned number value).memory.peek address = workspace.memory.peek address := by
  unfold assigned
  split
  · rfl
  split
  · rfl
  · have place : (address : Int) < workspace.globalAddress (number - firstGlobal) := by
      unfold globalAddress
      omega
    exact GameMemory.peek_withWord_of_ne (by omega) (by omega) value

/-- Storing a result leaves the bytes below the globals. -/
theorem peek_stored_of_lt {address : Nat} (below : address < workspace.globals)
    (storeTo : Option Int) (value : Int) :
    (workspace.stored storeTo value).memory.peek address = workspace.memory.peek address := by
  cases storeTo with
  | none => rfl
  | some target => exact peek_assigned_of_lt below target value

end Workspace

/-! ## Results and returns -/

namespace Machine

variable {machine : Machine}

/-- A success on the workspace is one of the machine. -/
theorem onWork_of_ok {α : Type} {action : Action Workspace α} {a : α} {work : Workspace}
    (outcome : action machine.work = .ok a work) :
    onWork action machine = .ok a { machine with work } := by
  unfold onWork Action.focus
  simp only [outcome]

/-- A failure on the workspace is one of the machine. -/
theorem onWork_of_error {α : Type} {action : Action Workspace α} {failure : Failure}
    {work : Workspace} (outcome : action machine.work = .error failure work) :
    onWork action machine = .error failure { machine with work } := by
  unfold onWork Action.focus
  simp only [outcome]

/-- A return to a caller that takes the result. -/
theorem returnFromRoutine_of_takes {frame : Frame} {calls : CallStack} {value : Int}
    (inside : machine.work.memory.dynamicEnd ≤ machine.work.memory.size)
    (popped : machine.work.calls.pop = .ok (frame, calls)) (plain : frame.interrupt = none)
    (takes : Workspace.Takes { machine.work with calls } frame.storeTo) :
    returnFromRoutine value machine =
      .ok () { machine with
        work := { machine.work with calls }.stored frame.storeTo value
        pc := frame.returnTo } := by
  have left := leave_eq machine
  rw [popped] at left
  unfold returnFromRoutine
  rw [Action.bind_of_ok left, plain]
  cases given : frame.storeTo with
  | none => rfl
  | some target =>
      rw [given, Workspace.takes_some] at takes
      have run : onWork (Workspace.setVariable target value)
          { machine with work.calls := calls } = _ :=
        onWork_of_ok (Workspace.setVariable_of_assignable (by exact inside) takes value)
      exact Action.bind_of_ok run

/-- A return to a caller that has no place for the result: the call has been left all the same. -/
theorem returnFromRoutine_of_not_takes {frame : Frame} {calls : CallStack} {value : Int}
    (inside : machine.work.memory.dynamicEnd ≤ machine.work.memory.size)
    (popped : machine.work.calls.pop = .ok (frame, calls)) (plain : frame.interrupt = none)
    (refused : ¬ Workspace.Takes { machine.work with calls } frame.storeTo) :
    ∃ fault, returnFromRoutine value machine =
      .error (.fault fault) { machine with work.calls := calls } := by
  have left := leave_eq machine
  rw [popped] at left
  unfold returnFromRoutine
  rw [Action.bind_of_ok left, plain]
  cases given : frame.storeTo with
  | none =>
      rw [given] at refused
      exact absurd (Workspace.takes_none _) refused
  | some target =>
      rw [given, Workspace.takes_some] at refused
      obtain ⟨fault, failed⟩ :=
        Workspace.setVariable_of_not_assignable (by exact inside) refused value
      have run : onWork (Workspace.setVariable target value)
          { machine with work.calls := calls } = _ := onWork_of_error failed
      exact ⟨fault, Action.bind_of_error run⟩

end Machine

end StoryMachine
