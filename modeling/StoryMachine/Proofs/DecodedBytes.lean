import StoryMachine.Proofs.Assembling
import StoryMachine.Proofs.PackedWords

/-!
# The bytes of an instruction

Decoding reads the bytes from the address of an instruction up to the next one,
and no others. Each part of an instruction is read from the bytes up to where the
part ends, so another image with the same bytes there holds the same part.
-/

namespace StoryMachine

namespace Image

variable {image other : Image} {start stop : Int}

/-- Another image has the bytes of this one at the addresses from one up to another. -/
def AgreesOn (image other : Image) (start stop : Int) : Prop :=
  ∀ address, start ≤ address → address < stop → other.byte address = image.byte address

namespace AgreesOn

variable {address : Int}

private theorem byte {value : Nat} (agrees : image.AgreesOn other start stop)
    (read : image.byte address = .ok value) (behind : start ≤ address) (before : address < stop) :
    other.byte address = .ok value :=
  (agrees address behind before).trans read

private theorem word {value : Nat} (agrees : image.AgreesOn other start stop)
    (read : image.word address = .ok value) (behind : start ≤ address)
    (before : address + 1 < stop) : other.word address = .ok value := by
  unfold Image.word at read ⊢
  rw [agrees address behind (by omega), agrees (address + 1) (by omega) before]
  exact read

private theorem byteRun {count : Nat} {values : List Nat} (agrees : image.AgreesOn other start stop)
    (read : image.byteRun address count = .ok values) (behind : start ≤ address)
    (before : address + count ≤ stop) : other.byteRun address count = .ok values := by
  induction count generalizing address values with
  | zero => exact read
  | succ count ih =>
      obtain ⟨first, found, read⟩ := Result.bind_eq_ok read
      obtain ⟨rest, more, read⟩ := Result.bind_eq_ok read
      rw [Image.byteRun, agrees.byte found behind (by omega), Result.ok_bind,
        ih more (by omega) (by omega)]
      exact read

private theorem carries {bytes : List UInt8} (agrees : image.AgreesOn other start stop)
    (carried : image.Carries address bytes) (behind : start ≤ address)
    (before : address + bytes.length ≤ stop) : other.Carries address bytes := by
  induction bytes generalizing address with
  | nil => trivial
  | cons byte rest ih =>
      rw [List.length_cons] at before
      exact ⟨agrees.byte carried.1 behind (by omega), ih carried.2 (by omega) (by omega)⟩

/-- The bytes of a string settle what its zchars are: they are packed into these bytes. -/
theorem zcharsToEnd {zchars : List Int} (agrees : image.AgreesOn other start stop)
    (read : image.zcharsToEnd address = .ok zchars) (behind : start ≤ address)
    (before : address + zchars.length / 3 * 2 ≤ stop) :
    other.zcharsToEnd address = .ok zchars := by
  obtain ⟨words, spelled, rfl⟩ := exists_stringAt read
  obtain ⟨bytes, packed, length, carried⟩ := spelled.pack
  have counted := StringAt.length_zchars words
  have zchars (zchar : Int) (member : zchar ∈ words.flatMap wordZchars) : Codec.IsZchar zchar := by
    obtain ⟨word, -, member⟩ := List.mem_flatMap.mp member
    exact isZchar_of_mem_wordZchars member
  have some : words.flatMap wordZchars ≠ [] := by
    apply List.ne_nil_of_length_pos
    have longer := List.length_pos_iff.mpr spelled.ne_nil
    omega
  exact (Codec.zcharsToEnd_of_pack zchars some packed
    (agrees.carries carried behind (by omega))).1

end AgreesOn

end Image

namespace InstructionHead

variable {image other : Image} {address version start stop : Int} {head : InstructionHead}

private theorem withTypes_local {form : InstructionForm} {group : OpcodeGroup} {number : Nat}
    (agrees : image.AgreesOn other start stop)
    (read : withTypes image form group number address = .ok head) (behind : start ≤ address)
    (before : head.next ≤ stop) : withTypes other form group number address = .ok head := by
  obtain ⟨bytes, found, read⟩ := Result.bind_eq_ok read
  have next : head.next = address + (if hasTwoTypeBytes group number then 2 else 1 : Nat) := by
    cases read
    rfl
  unfold withTypes
  dsimp only
  rw [agrees.byteRun found behind (by omega)]
  exact read

/-- The head of an instruction is read from the bytes before its operands. -/
theorem read_local (agrees : image.AgreesOn other address stop)
    (decoded : read image address version = .ok head) (before : head.next ≤ stop) :
    read other address version = .ok head := by
  obtain ⟨-, forward, -, -⟩ := read_eq_ok decoded
  obtain ⟨first, found, decoded⟩ := Result.bind_eq_ok decoded
  unfold read
  rw [agrees.byte found (Int.le_refl _) (by omega), Result.ok_bind]
  dsimp only at decoded ⊢
  split at decoded
  · rename_i extended
    obtain ⟨number, numbered, decoded⟩ := Result.bind_eq_ok decoded
    obtain ⟨-, onward, -, -⟩ := withTypes_eq_ok decoded
    rw [if_pos extended, agrees.byte numbered (by omega) (by omega), Result.ok_bind]
    exact withTypes_local agrees decoded (by omega) before
  rename_i plain
  rw [if_neg plain]
  split at decoded
  · rename_i typed
    rw [if_pos typed]
    exact withTypes_local agrees decoded (by omega) before
  · -- The short and the long forms are one byte.
    rename_i untyped
    rw [if_neg untyped]
    exact decoded

end InstructionHead

namespace Instruction

variable {image other : Image} {address version start stop next : Int} {codec codec' : Codec}
  {tables tables' : Option Image} {instruction : Instruction}

private theorem readOperands_local {kinds : List OperandKind} {operands : List Operand}
    (agrees : image.AgreesOn other start stop)
    (read : readOperands image kinds address = .ok (operands, next)) (inside : address ≤ image.size)
    (behind : start ≤ address) (before : next ≤ stop) :
    readOperands other kinds address = .ok (operands, next) := by
  induction kinds generalizing address operands with
  | nil => exact read
  | cons kind kinds ih =>
      unfold readOperands at read ⊢
      by_cases large : kind = .large
      · simp only [large, ↓reduceIte] at read ⊢
        obtain ⟨value, found, read⟩ := Result.bind_eq_ok read
        obtain ⟨⟨rest, after⟩, more, read⟩ := Result.bind_eq_ok read
        cases read
        obtain ⟨-, within, -⟩ := Image.word_eq_ok found
        have fits : address + 2 ≤ image.size := by
          have := within.2
          omega
        obtain ⟨-, forward, -⟩ := readOperands_eq_ok fits more
        rw [agrees.word found behind (by omega), Result.ok_bind, ih more fits (by omega)]
        rfl
      · simp only [large, ↓reduceIte] at read ⊢
        obtain ⟨value, found, read⟩ := Result.bind_eq_ok read
        obtain ⟨⟨rest, after⟩, more, read⟩ := Result.bind_eq_ok read
        cases read
        obtain ⟨within, -⟩ := Image.byte_eq_ok found
        have fits : address + 1 ≤ image.size := within.2
        obtain ⟨-, forward, -⟩ := readOperands_eq_ok fits more
        rw [agrees.byte found behind (by omega), Result.ok_bind, ih more fits (by omega)]
        rfl

/-- The zchars of a string are read from its bytes; what they spell is for the codec to say. -/
theorem readTextIf_local {present : Bool} {text : Option Text}
    (agrees : image.AgreesOn other start stop)
    (read : readTextIf present codec tables image address = .ok (text, next))
    (spells : present = true → codec' = codec ∧ tables' = tables) (behind : start ≤ address)
    (before : next ≤ stop) :
    readTextIf present codec' tables' other address = .ok (text, next) := by
  cases present with
  | false => exact read
  | true =>
      obtain ⟨rfl, rfl⟩ := spells rfl
      simp only [readTextIf, ↓reduceIte] at read ⊢
      obtain ⟨⟨spelled, after⟩, found, read⟩ := Result.bind_eq_ok read
      cases read
      obtain ⟨zchars, unpacked, found⟩ := Result.bind_eq_ok found
      obtain ⟨decoded, fed, found⟩ := Result.bind_eq_ok found
      cases found
      have same := agrees.zcharsToEnd unpacked behind before
      rw [readText, same, Result.ok_bind, fed]
      rfl

private theorem readTargetIf_local {present : Bool} {target : Option Int}
    (agrees : image.AgreesOn other start stop)
    (read : readTargetIf present image address = .ok (target, next)) (behind : start ≤ address)
    (before : next ≤ stop) : readTargetIf present other address = .ok (target, next) := by
  cases present with
  | false => exact read
  | true =>
      obtain ⟨byte, found, read⟩ := Result.bind_eq_ok read
      cases read
      simp only [readTargetIf, ↓reduceIte]
      rw [agrees.byte found behind (by omega)]
      rfl

private theorem readBranchIf_local {present : Bool} {branch : Option BranchTarget}
    (agrees : image.AgreesOn other start stop)
    (read : readBranchIf present image address = .ok (branch, next)) (behind : start ≤ address)
    (before : next ≤ stop) : readBranchIf present other address = .ok (branch, next) := by
  cases present with
  | false => exact read
  | true =>
      simp only [readBranchIf, ↓reduceIte] at read ⊢
      obtain ⟨⟨target, after⟩, found, read⟩ := Result.bind_eq_ok read
      cases read
      obtain ⟨-, forward, -⟩ := readBranch_eq_ok found
      obtain ⟨first, one, found⟩ := Result.bind_eq_ok found
      rw [readBranch, agrees.byte one behind (by omega), Result.ok_bind]
      dsimp only at found ⊢
      split at found
      · rename_i short
        cases found
        rw [if_pos short]
        rfl
      · rename_i long
        obtain ⟨second, two, found⟩ := Result.bind_eq_ok found
        cases found
        rw [if_neg long, agrees.byte two (by omega) (by omega)]
        rfl

/-- An image with the bytes of an instruction holds that instruction. Where a string follows the
opcode, the codec and the abbreviations have to be the same as well. -/
theorem read_local
    (decoded : read codec tables image address version = .ok instruction)
    (agrees : image.AgreesOn other address instruction.nextAddress)
    (spells : instruction.opcode.hasText = true → codec' = codec ∧ tables' = tables) :
    read codec' tables' other address version = .ok instruction := by
  obtain ⟨head, headed, decoded⟩ := Result.bind_eq_ok decoded
  cases found : Opcode.find? head.group head.number version with
  | none => simp only [found, throw, throwThe, MonadExceptOf.throw, reduceCtorEq] at decoded
  | some opcode =>
      simp only [found] at decoded
      obtain ⟨⟨operands, operandsEnd⟩, listed, decoded⟩ := Result.bind_eq_ok decoded
      obtain ⟨⟨text, resultAddress⟩, spelled, decoded⟩ := Result.bind_eq_ok decoded
      obtain ⟨⟨storeTo, branchAddress⟩, stored, decoded⟩ := Result.bind_eq_ok decoded
      obtain ⟨⟨branch, nextAddress⟩, branched, decoded⟩ := Result.bind_eq_ok decoded
      cases decoded
      dsimp only at agrees spells listed spelled stored branched
      -- Each part ends where the next one starts, and the last one at the next instruction.
      obtain ⟨-, afterHead, headEnd, -⟩ := InstructionHead.read_eq_ok headed
      obtain ⟨-, afterOperands, operandsStop⟩ := readOperands_eq_ok headEnd listed
      obtain ⟨afterText, -⟩ := readTextIf_eq_ok spelled operandsStop
      have afterTarget : resultAddress ≤ branchAddress := by
        obtain ⟨-, -, same⟩ | ⟨-, same, -⟩ := readTargetIf_eq_ok stored <;> omega
      have afterBranch : branchAddress ≤ nextAddress := by
        obtain ⟨-, -, same⟩ | ⟨-, target, reached, -⟩ := readBranchIf_eq_ok branched
        · omega
        · exact Int.le_of_lt (readBranch_eq_ok reached).2.1
      rw [read, InstructionHead.read_local agrees headed (by omega), Result.ok_bind]
      simp only [found]
      rw [readOperands_local agrees listed headEnd (by omega) (by omega), Result.ok_bind]
      dsimp only
      rw [readTextIf_local agrees spelled spells (by omega) (by omega), Result.ok_bind]
      dsimp only
      rw [readTargetIf_local agrees stored (by omega) (by omega), Result.ok_bind]
      dsimp only
      rw [readBranchIf_local agrees branched (by omega) (Int.le_refl _)]
      rfl

/-- An instruction that is decoded is longer than nothing and lies inside its image, with its
result between its operands and its end. It has at most eight operands, each a byte or, for a large
constant, a word; the variable that takes its result is a byte, and its branch has fourteen bits.
Nothing but its bytes decides what it is: any image that has them at its address holds the same
instruction there, for whatever codec if no string follows the opcode, and otherwise for the same
codec and abbreviations. -/
theorem decoded_from_own_bytes
    (decoded : read codec tables image address version = .ok instruction) :
    instruction.address = address ∧
      (address < instruction.nextAddress ∧ instruction.nextAddress ≤ image.size) ∧
      (address < instruction.resultAddress ∧
        instruction.resultAddress ≤ instruction.nextAddress) ∧
      (instruction.operands.length ≤ 8 ∧
        ∀ operand ∈ instruction.operands, operand.kind ≠ .omitted ∧ 0 ≤ operand.value ∧
          operand.value < if operand.kind = .large then 65536 else 256) ∧
      (∀ target ∈ instruction.storeTo, 0 ≤ target ∧ target < 256) ∧
      (∀ branch ∈ instruction.branch, -8192 ≤ branch.offset ∧ branch.offset ≤ 8191) ∧
      ∀ (other : Image) (codec' : Codec) (tables' : Option Image),
        image.AgreesOn other address instruction.nextAddress →
        (instruction.opcode.hasText = true → codec' = codec ∧ tables' = tables) →
          read codec' tables' other address version = .ok instruction := by
  obtain ⟨rfl, -⟩ := read_eq_ok decoded
  have within := within_of_read decoded
  have legal := legal_of_read decoded
  have forward : instruction.address < instruction.nextAddress :=
    Int.lt_of_lt_of_le within.result within.next
  refine ⟨rfl, ⟨forward, within.stop⟩, ⟨within.result, within.next⟩, ⟨within.operands, ?_⟩,
    within.target, ?_, ?_⟩
  · intro operand member
    have written := legal.operands operand member
    exact ⟨written.kind, written.lower, written.upper⟩
  · intro branch given
    obtain ⟨least, most⟩ := within.branch branch given
    constructor <;> omega
  · exact fun other codec' tables' agrees spells => read_local decoded agrees spells

/-- A search of a table, with operands of each kind, a result and a long branch. -/
def sampleSearch : Image :=
  ⟨#[0xff, 0xf7, 0x1b, 0x12, 0x34, 0x05, 0x00, 0x10, 0x3f, 0xfe, 0xff]⟩

/-- The search takes nine bytes, and stands in every image that has these. -/
theorem decoded_from_own_bytes_search :
    ∃ instruction, read { version := 4 } none sampleSearch 1 4 = .ok instruction ∧
      instruction.nextAddress = 10 ∧ instruction.resultAddress = 7 ∧
      instruction.operands = [⟨.large, 0x1234⟩, ⟨.small, 5⟩, ⟨.variable, 0⟩] ∧
      ∀ (other : Image) (codec' : Codec) (tables' : Option Image),
        sampleSearch.AgreesOn other 1 10 →
          read codec' tables' other 1 4 = .ok instruction := by
  obtain ⟨instruction, decoded, next, result, operands, plain⟩ :
      ∃ instruction, read { version := 4 } none sampleSearch 1 4 = .ok instruction ∧
        instruction.nextAddress = 10 ∧ instruction.resultAddress = 7 ∧
        instruction.operands = [⟨.large, 0x1234⟩, ⟨.small, 5⟩, ⟨.variable, 0⟩] ∧
        instruction.opcode.hasText = false :=
    ⟨_, rfl, rfl, rfl, rfl, rfl⟩
  obtain ⟨-, -, -, -, -, -, elsewhere⟩ := decoded_from_own_bytes decoded
  refine ⟨instruction, decoded, next, result, operands, fun other codec' tables' agrees => ?_⟩
  exact elsewhere other codec' tables' (next ▸ agrees) (by simp [plain])

end Instruction

end StoryMachine
