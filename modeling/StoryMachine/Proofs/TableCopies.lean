import StoryMachine.Proofs.CustomAlphabets
import StoryMachine.Proofs.LineBuffers
import StoryMachine.Proofs.OutputStreams
import StoryMachine.Proofs.Restoring
import StoryMachine.Proofs.WordOperands

/-!
# Copies of tables

A table is cleared, or copied onto another that it may overlap. Unless a size below zero asks for a
copy from the first byte on, the second table becomes what the first one was. A copy from the first
byte on reads what it has already written as soon as the second table begins inside the first: the
bytes between the two beginnings are then repeated to the end.
-/

namespace StoryMachine

/-- The place after one that is counted round a distance. -/
private theorem succ_mod (place distance : Nat) :
    (place + 1) % distance =
      if place % distance + 1 = distance then 0 else place % distance + 1 := by
  rw [← Nat.mod_add_mod]
  split
  · rename_i round
    rw [round, Nat.mod_self]
  · rename_i inner
    obtain rfl | positive := Nat.eq_zero_or_pos distance
    · exact Nat.mod_zero _
    · have less := Nat.mod_lt place positive
      exact Nat.mod_eq_of_lt (by omega)

namespace GameMemory

variable {memory before after : GameMemory} {target source : Int} {count : Nat}
  {byte : Nat → Result Nat}

private theorem byte_withByte_self {address : Nat} (inside : address < memory.size) (byte : UInt8) :
    (memory.withByte address byte).byte address = .ok byte.toNat := by
  have held : (memory.withByte address byte).Holds address := by
    unfold Image.Holds
    rw [size_withByte]
    omega
  rw [Image.byte_of_holds held, Int.toNat_natCast, peek_withByte_self inside]

private theorem byte_withByte_of_ne {address : Nat} {place : Int} (apart : place ≠ address) (byte : UInt8) :
    (memory.withByte address byte).byte place = memory.byte place :=
  ((ChangedWithin.refl (· = (address : Int)) memory).withByte rfl byte).byte_eq apart

/-- Memory in which a run of bytes has been written over, and nothing else. -/
structure Overwritten (before : GameMemory) (target : Int) (count : Nat) (byte : Nat → Result Nat)
    (after : GameMemory) : Prop where
  changed : ChangedWithin (fun address => target ≤ address ∧ address < target + count) before after
  bytes : ∀ place < count, after.byte (target + place) = byte place

private theorem Overwritten.nil (memory : GameMemory) (target : Int) (byte : Nat → Result Nat) :
    Overwritten memory target 0 byte memory :=
  ⟨.refl _ _, nofun⟩

/-- A run that follows a byte. -/
theorem Overwritten.cons {address : Nat} {first : UInt8} {later : Nat → Result Nat}
    (inside : address < memory.size)
    (rest : Overwritten (memory.withByte address first) (address + 1) count later after)
    (head : byte 0 = .ok first.toNat) (tail : ∀ place < count, byte (place + 1) = later place) :
    Overwritten memory address (count + 1) byte after where
  changed := by
    have here : (address : Int) ≤ address ∧ (address : Int) < address + (count + 1 : Nat) := by
      omega
    exact ((ChangedWithin.refl _ memory).withByte here first).trans
      (rest.changed.mono fun place within => by omega)
  bytes := by
    intro place within
    cases place with
    | zero =>
        have stays := rest.changed.byte_eq (show ¬ ((address : Int) + 1 ≤ address ∧ _) by omega)
        rw [Int.natCast_zero, Int.add_zero, head, stays, byte_withByte_self inside]
    | succ place =>
        rw [tail place (by omega), ← rest.bytes place (by omega)]
        congr 1
        omega

/-- Every address of a run may be written. -/
def Writable (memory : GameMemory) (target : Int) (count : Nat) : Prop :=
  ∀ place < count, 0 ≤ target + place ∧ target + place < memory.dynamicEnd

private theorem Writable.uncons (writable : memory.Writable target (count + 1)) (whole : memory.Whole) :
    ∃ address : Nat, target = address ∧ (address : Int) < memory.dynamicEnd ∧
      address < memory.size ∧
      ∀ byte, (memory.withByte address byte).Writable (address + 1) count := by
  have first := writable 0 (Nat.succ_pos count)
  unfold Whole at whole
  obtain ⟨address, rfl⟩ := Int.eq_ofNat_of_zero_le (show 0 ≤ target by omega)
  refine ⟨address, rfl, by omega, by omega, fun byte place within => ?_⟩
  have next := writable (place + 1) (by omega)
  exact ⟨by omega, show (address : Int) + 1 + place < memory.dynamicEnd by omega⟩

private theorem whole_withByte (whole : memory.Whole) (address : Nat) (byte : UInt8) :
    (memory.withByte address byte).Whole := by
  unfold Whole
  rw [size_withByte]
  exact whole

private theorem writeRun_overwrites {values : List Int} (writable : memory.Writable target values.length)
    (whole : memory.Whole) :
    ∃ after, (Store.writeRun target values : Edit Unit) memory = .ok () after ∧
      Overwritten memory target values.length
        (fun place => .ok (Byte.ofInt (values.getD place 0)).toNat) after := by
  induction values generalizing memory target with
  | nil => exact ⟨memory, rfl, .nil _ _ _⟩
  | cons value rest ih =>
      obtain ⟨address, rfl, dynamic, inside, others⟩ := writable.uncons whole
      obtain ⟨after, written, overwritten⟩ :=
        ih (others (Byte.ofInt value)) (whole_withByte whole address _)
      have first := write_eq value dynamic inside
      exact ⟨after, (Action.bind_of_ok first).trans written,
        overwritten.cons inside rfl fun _ _ => rfl⟩

/-- A table that is kept in a list is written as it was. -/
theorem writeRun_byteRun_overwrites (readable : ∀ place < count, memory.Holds (source + place))
    (writable : memory.Writable target count) (whole : memory.Whole) :
    ∃ bytes after, memory.byteRun source count = .ok bytes ∧
      (Store.writeRun target (bytes.map Int.ofNat) : Edit Unit) memory = .ok () after ∧
      Overwritten memory target count (fun place => memory.byte (source + place)) after := by
  have run : memory.byteRun source count =
      .ok ((List.range count).map fun (place : Nat) => memory.peek (source + place).toNat) := by
    obtain rfl | positive := Nat.eq_zero_or_pos count
    · rfl
    · have front := readable 0 positive
      have back := readable (count - 1) (by omega)
      unfold Image.Holds at front back
      exact memory.byteRun_of_inside ⟨by omega, by omega⟩
  have length : (((List.range count).map fun (place : Nat) =>
      memory.peek (source + place).toNat).map Int.ofNat).length = count := by simp
  obtain ⟨after, written, overwritten⟩ := writeRun_overwrites (length.symm ▸ writable) whole
  refine ⟨_, after, run, written, ?_⟩
  rw [length] at overwritten
  refine ⟨overwritten.changed, fun place within => (overwritten.bytes place within).trans ?_⟩
  rw [Image.byte_of_holds (readable place within)]
  simp [within, Image.toNat_byte_ofInt (memory.peek_lt _)]

/-- A copy from the first byte on takes each byte from where the distance of the tables, if the
second lies behind the first, brings its place back to. -/
theorem copyForwards_overwrites (readable : ∀ place < count, memory.Holds (source + place))
    (writable : memory.Writable target count) (whole : memory.Whole) :
    ∃ after, Machine.copyForwards source target count memory = .ok () after ∧
      Overwritten memory target count
        (fun place => memory.byte (source + (place % (target - source).toNat : Nat))) after := by
  induction count generalizing memory source target with
  | zero => exact ⟨memory, rfl, .nil _ _ _⟩
  | succ count ih =>
      obtain ⟨address, rfl, dynamic, inside, others⟩ := writable.uncons whole
      have held := readable 0 (Nat.succ_pos count)
      rw [Int.natCast_zero, Int.add_zero] at held
      have read := Image.byte_of_holds held
      have written := write_eq (memory.peek source.toNat) dynamic inside
      have same : (Byte.ofInt (memory.peek source.toNat)).toNat = memory.peek source.toNat :=
        Image.toNat_byte_ofInt (memory.peek_lt _)
      generalize Byte.ofInt (memory.peek source.toNat) = byte at written same
      have readable :
        ∀ place < count, (memory.withByte address byte).Holds (source + 1 + place) := by
        intro place within
        have held := readable (place + 1) (by omega)
        unfold Image.Holds at held ⊢
        rw [size_withByte]
        omega
      obtain ⟨after, copied, overwritten⟩ :=
        ih readable (others byte) (whole_withByte whole address byte)
      have distance : ((address : Int) + 1 - (source + 1)).toNat = (address - source).toNat := by
        omega
      rw [distance] at overwritten
      refine ⟨after, ?_, overwritten.cons inside ?_ fun place within => ?_⟩
      · unfold Machine.copyForwards
        rw [Action.get_bind, read, Action.lift_bind, Action.bind_of_ok written, copied]
      · rw [Nat.zero_mod, Int.natCast_zero, Int.add_zero, read, same]
      · rw [succ_mod]
        split
        · -- The byte that was written first is the next to be read.
          rename_i round
          have back : source + 1 + (place % (address - source).toNat : Nat) = address := by omega
          rw [back, byte_withByte_self inside, Int.natCast_zero, Int.add_zero, read, same]
        · rename_i inner
          rw [byte_withByte_of_ne]
          · congr 1
            omega
          · omega

end GameMemory

namespace Machine

open GameMemory (ChangedWithin Overwritten)

variable {machine read : Machine} {instruction : Instruction} {first second size : Int}

/-- What becomes of memory when a table at `first` is copied to one at `second`: `size` bytes, or
as many from the first byte on if `size` is negative. -/
structure CopiesTable (before : GameMemory) (first second size : Int) (after : GameMemory) :
    Prop where
  cleared : second = 0 → ∀ place < size.natAbs, after.byte (first + place) = .ok 0
  kept : second ≠ 0 → 0 ≤ size → ∀ place < size.natAbs,
    after.byte (second + place) = before.byte (first + place)
  apart : second ≠ 0 → size < 0 → second - first ≤ 0 ∨ -size ≤ second - first →
    ∀ place < size.natAbs, after.byte (second + place) = before.byte (first + place)
  repeated : second ≠ 0 → size < 0 → 0 < second - first → second - first < -size →
    ∀ place < size.natAbs,
      after.byte (second + place) = before.byte (first + (place : Int) % (second - first))
  changed : ChangedWithin (fun address => (if second = 0 then first else second) ≤ address ∧
    address < (if second = 0 then first else second) + size.natAbs) before after

private theorem copyTable_copies (whole : machine.work.memory.Whole)
    (readable : second ≠ 0 → ∀ place < size.natAbs, machine.image.Holds (first + place))
    (writable : machine.work.memory.Writable (if second = 0 then first else second) size.natAbs) :
    ∃ memory, copyTable first second size machine =
        .ok () { machine with work.memory := memory } ∧
      CopiesTable machine.work.memory first second size memory := by
  unfold copyTable
  by_cases clears : second = 0
  · rw [if_pos clears] at writable ⊢
    have length : (List.replicate size.natAbs (0 : Int)).length = size.natAbs :=
      List.length_replicate
    obtain ⟨memory, cleared, overwritten⟩ :=
      GameMemory.writeRun_overwrites (length.symm ▸ writable) whole
    rw [length] at overwritten
    refine ⟨memory, onMemory_of_ok cleared, fun _ place within => ?_, absurd clears, absurd clears,
      absurd clears, ?_⟩
    · have zero : (List.replicate size.natAbs (0 : Int)).getD place 0 = 0 := by simp [within]
      rw [overwritten.bytes place within, zero]
      rfl
    · rw [if_pos clears]
      exact overwritten.changed
  rw [if_neg clears] at writable ⊢
  by_cases forwards : size < 0
  · rw [if_pos forwards]
    obtain ⟨memory, copied, overwritten⟩ :=
      GameMemory.copyForwards_overwrites (readable clears) writable whole
    refine ⟨memory, onMemory_of_ok copied, fun zero => absurd zero clears, fun _ least => by omega,
      fun _ _ far place within => ?_, fun _ _ behind near place within => ?_, ?_⟩
    · have stays : place % (second - first).toNat = place := by
        obtain before | after := far
        · rw [Int.toNat_of_nonpos before, Nat.mod_zero]
        · exact Nat.mod_eq_of_lt (by omega)
      rw [overwritten.bytes place within, stays]
    · rw [overwritten.bytes place within, Int.natCast_mod, Int.toNat_of_nonneg (by omega)]
    · rw [if_neg clears]
      exact overwritten.changed
  · rw [if_neg forwards]
    have count : size.toNat = size.natAbs := by omega
    obtain ⟨bytes, memory, read, written, overwritten⟩ :=
      GameMemory.writeRun_byteRun_overwrites (readable clears) writable whole
    rw [count, Action.bind_of_ok (ask_of_ok read)]
    refine ⟨memory, onMemory_of_ok written, fun zero => absurd zero clears,
      fun _ _ => overwritten.bytes, fun _ below => absurd below forwards,
      fun _ below => absurd below forwards, ?_⟩
    rw [if_neg clears]
    exact overwritten.changed

/-- A copy of a table, whatever instruction makes it: its size is read with a sign, and how the
tables overlap decides whether bytes are repeated. -/
theorem table_copied {more : List Int}
    (performs : Performs .copyTable (first :: second :: size :: more) instruction machine read)
    (readable : second ≠ 0 →
      ∀ place < (Word.signed size).natAbs, machine.image.Holds (first + place))
    (writable : machine.work.memory.Writable (if second = 0 then first else second)
      (Word.signed size).natAbs) :
    ∃ memory, executeInstruction instruction machine =
        .ok () { read with work.memory := memory, pc := instruction.nextAddress } ∧
      CopiesTable machine.work.memory first second (Word.signed size) memory := by
  have given : operandValues instruction machine =
      .ok (first :: second :: Word.signed size :: more) read :=
    performs.values rfl (Nat.le_add_left 3 _)
  have same := performs.memory_eq
  unfold image at readable
  rw [← same] at readable writable ⊢
  obtain ⟨memory, copied, copies⟩ := copyTable_copies performs.whole readable writable
  refine ⟨memory, ?_, copies⟩
  have performed : perform instruction (first :: second :: Word.signed size :: more) read =
      .ok .proceed { read with work.memory := memory } := by
    unfold perform
    rw [Action.get_bind]
    simp only [performs.operates]
    exact Action.bind_of_ok copied
  unfold executeInstruction
  rw [Action.bind_of_ok given, Action.bind_of_ok performed]
  rfl

/-- A machine with eight bytes that can all be written. -/
def counted : Machine :=
  { sample with
    work.memory := { bytes := #[1, 2, 3, 4, 5, 6, 7, 8], dynamicEnd := 8, highStart := 8 } }

/-- A copy of five bytes to two places further on, from the first byte on. -/
def repeatingCopy : Instruction where
  address := 0
  form := .variable
  opcode :=
    { group := .variable, number := 29, name := "copy_table", operation := .copyTable,
      senses := [.unsigned, .unsigned, .signed], least := 3, firstVersion := 5 }
  operands := [⟨.small, 1⟩, ⟨.small, 3⟩, ⟨.large, 0xfffb⟩]
  resultAddress := 6
  nextAddress := 6

/-- Two bytes are repeated to the end of the second table. -/
theorem table_copied_repeating :
    ∃ memory, executeInstruction repeatingCopy counted =
        .ok () { counted with work.memory := memory, pc := 6 } ∧
      ∀ place < 5, memory.byte (3 + (place : Nat)) = .ok (2 + place % 2) := by
  have performs : Performs .copyTable [1, 3, 0xfffb] repeatingCopy counted counted :=
    ⟨by decide, rfl, .cons rfl (.cons rfl (.cons rfl (.nil _))), Int.le_refl 8⟩
  obtain ⟨memory, run, copies⟩ :=
    table_copied performs (fun _ => by decide) (by unfold GameMemory.Writable; decide)
  have source : ∀ place < 5, counted.work.memory.byte (1 + (place : Nat) % (3 - 1)) =
      .ok (2 + place % 2) := by
    decide
  refine ⟨memory, run, fun place within => ?_⟩
  exact (copies.repeated (by decide) (by decide) (by decide) (by decide) place within).trans
    (source place within)

end Machine

end StoryMachine
