import StoryMachine.Instruction.Decode
import StoryMachine.Proofs.Images

/-!
# Decoded instructions

What a decoded instruction says about the bytes that it was read from: where its
parts stand, in which order, and that all of them lie inside the image.
-/

namespace StoryMachine

namespace Image

variable {image : Image}

/-- A word that is read lies inside the image, its high byte first. -/
theorem word_eq_ok {address : Int} {value : Nat} (read : image.word address = .ok value) :
    image.Holds address ∧ image.Holds (address + 1) ∧
      value = image.peek address.toNat * 256 + image.peek (address + 1).toNat := by
  unfold word at read
  obtain ⟨high, first, read⟩ := Result.bind_eq_ok read
  obtain ⟨low, second, read⟩ := Result.bind_eq_ok read
  obtain ⟨holds, rfl⟩ := byte_eq_ok first
  obtain ⟨holds', rfl⟩ := byte_eq_ok second
  cases read
  exact ⟨holds, holds', rfl⟩

/-- What is read as a word fits one. -/
theorem word_lt {address : Int} {value : Nat} (read : image.word address = .ok value) :
    value < 0x10000 := by
  obtain ⟨-, -, rfl⟩ := word_eq_ok read
  have high := image.peek_lt address.toNat
  have low := image.peek_lt (address + 1).toNat
  omega

/-- A run of bytes that is read lies inside the image. -/
theorem byteRun_eq_ok {count : Nat} :
    ∀ {address : Int} {values : List Nat}, image.byteRun address count = .ok values →
      values.length = count ∧ (0 < count → 0 ≤ address ∧ address + count ≤ image.size) := by
  induction count with
  | zero =>
      intro address values read
      cases read
      exact ⟨rfl, fun positive => absurd positive (Nat.lt_irrefl 0)⟩
  | succ count ih =>
      intro address values read
      unfold byteRun at read
      obtain ⟨first, byte, read⟩ := Result.bind_eq_ok read
      obtain ⟨rest, more, read⟩ := Result.bind_eq_ok read
      cases read
      obtain ⟨length, inside⟩ := ih more
      obtain ⟨holds, -⟩ := byte_eq_ok byte
      unfold Holds at holds
      refine ⟨by rw [List.length_cons, length], fun _ => ⟨holds.1, ?_⟩⟩
      cases count with
      | zero => omega
      | succ count =>
          have := (inside (Nat.succ_pos count)).2
          omega

/-- A string takes two bytes for every three zchars, all of them inside the image. -/
theorem zcharsToEnd_eq_ok {address : Int} {zchars : List Int}
    (read : image.zcharsToEnd address = .ok zchars) :
    ∃ words : Nat, zchars.length = 3 * words ∧ 0 < words ∧ 0 ≤ address ∧
      address + 2 * words ≤ image.size := by
  fun_induction zcharsToEnd image address generalizing zchars with
  | case1 address inside ih =>
      obtain ⟨word, found, read⟩ := Result.bind_eq_ok read
      unfold Holds at inside
      by_cases ends : wordEnds word = true
      · simp only [ends, ↓reduceIte] at read
        cases read
        exact ⟨1, rfl, by omega, by omega, by omega⟩
      · simp only [ends] at read
        obtain ⟨rest, more, read⟩ := Result.bind_eq_ok read
        obtain ⟨words, length, positive, start, stop⟩ := ih more
        cases read
        refine ⟨words + 1, ?_, by omega, by omega, by omega⟩
        rw [List.length_append, length]
        simp only [wordZchars, List.length_cons, List.length_nil]
        omega
  | case2 address outside =>
      obtain ⟨word, found, read⟩ := Result.bind_eq_ok read
      obtain ⟨first, second, -⟩ := word_eq_ok found
      exact absurd ⟨first, second⟩ outside

end Image

namespace InstructionHead

variable {image : Image} {address version : Int} {head : InstructionHead}

/-- A byte of types stands for at most four operands. -/
theorem length_kindsOfBytes_le (bytes : List Nat) :
    (kindsOfBytes bytes).length ≤ 4 * bytes.length := by
  have all : (bytes.flatMap kindsOfByte).length = 4 * bytes.length := by
    induction bytes with
    | nil => rfl
    | cons byte rest ih =>
        rw [List.flatMap_cons, List.length_append, ih, List.length_cons]
        simp only [kindsOfByte, List.map_cons, List.map_nil, List.length_cons, List.length_nil]
        omega
  rw [← all]
  exact (List.takeWhile_sublist _).length_le

/-- A head with types lies inside the image and has at most eight operands. -/
theorem withTypes_eq_ok {form : InstructionForm} {group : OpcodeGroup} {number : Nat}
    (read : withTypes image form group number address = .ok head) :
    0 ≤ address ∧ address < head.next ∧ head.next ≤ image.size ∧ head.kinds.length ≤ 8 := by
  unfold withTypes at read
  obtain ⟨bytes, found, read⟩ := Result.bind_eq_ok read
  obtain ⟨length, inside⟩ := Image.byteRun_eq_ok found
  have kinds := length_kindsOfBytes_le bytes
  cases read
  rw [length] at kinds
  generalize count : (if hasTwoTypeBytes group number then 2 else 1) = types at *
  have few : types = 1 ∨ types = 2 := by
    rw [← count]
    split
    · exact .inr rfl
    · exact .inl rfl
  obtain ⟨start, stop⟩ := inside (by omega)
  refine ⟨start, ?_, stop, ?_⟩
  · dsimp only
    omega
  · dsimp only
    omega

/-- A head that is read lies inside the image and has at most eight operands. -/
theorem read_eq_ok (decoded : read image address version = .ok head) :
    0 ≤ address ∧ address < head.next ∧ head.next ≤ image.size ∧ head.kinds.length ≤ 8 := by
  unfold read at decoded
  obtain ⟨first, byte, decoded⟩ := Result.bind_eq_ok decoded
  obtain ⟨holds, -⟩ := Image.byte_eq_ok byte
  unfold Image.Holds at holds
  dsimp only at decoded
  split at decoded
  · obtain ⟨number, -, decoded⟩ := Result.bind_eq_ok decoded
    obtain ⟨-, before, stop, few⟩ := withTypes_eq_ok decoded
    exact ⟨holds.1, by omega, stop, few⟩
  split at decoded
  · obtain ⟨-, before, stop, few⟩ := withTypes_eq_ok decoded
    exact ⟨holds.1, by omega, stop, few⟩
  split at decoded
  · cases decoded
    refine ⟨holds.1, Int.lt_succ address, by dsimp only; omega, ?_⟩
    dsimp only
    split
    · exact Nat.zero_le 8
    · exact Nat.le_of_ble_eq_true rfl
  · cases decoded
    exact ⟨holds.1, Int.lt_succ address, by dsimp only; omega, Nat.le_of_ble_eq_true rfl⟩

end InstructionHead

namespace Instruction

variable {image : Image}

/-- Operands that are read lie inside the image, one for each kind. -/
theorem readOperands_eq_ok {kinds : List OperandKind} :
    ∀ {address next : Int} {operands : List Operand}, address ≤ image.size →
      readOperands image kinds address = .ok (operands, next) →
        operands.length = kinds.length ∧ address ≤ next ∧ next ≤ image.size := by
  induction kinds with
  | nil =>
      intro address next operands start read
      cases read
      exact ⟨rfl, Int.le_refl _, start⟩
  | cons kind kinds ih =>
      intro address next operands start read
      unfold readOperands at read
      dsimp only at read
      by_cases large : kind = .large
      · simp only [large, ↓reduceIte] at read
        obtain ⟨value, found, read⟩ := Result.bind_eq_ok read
        obtain ⟨⟨rest, after⟩, more, read⟩ := Result.bind_eq_ok read
        obtain ⟨-, holds, -⟩ := Image.word_eq_ok found
        unfold Image.Holds at holds
        cases read
        obtain ⟨length, before, stop⟩ := ih (by omega) more
        exact ⟨by rw [List.length_cons, List.length_cons, length], by omega, stop⟩
      · simp only [large, ↓reduceIte] at read
        obtain ⟨value, found, read⟩ := Result.bind_eq_ok read
        obtain ⟨⟨rest, after⟩, more, read⟩ := Result.bind_eq_ok read
        obtain ⟨holds, -⟩ := Image.byte_eq_ok found
        unfold Image.Holds at holds
        cases read
        obtain ⟨length, before, stop⟩ := ih (by omega) more
        exact ⟨by rw [List.length_cons, List.length_cons, length], by omega, stop⟩

/-- A branch that is read lies inside the image, and its offset has fourteen bits. -/
theorem readBranch_eq_ok {address next : Int} {branch : BranchTarget}
    (read : readBranch image address = .ok (branch, next)) :
    0 ≤ address ∧ address < next ∧ next ≤ image.size ∧
      -0x2000 ≤ branch.offset ∧ branch.offset < 0x2000 := by
  unfold readBranch at read
  obtain ⟨first, byte, read⟩ := Result.bind_eq_ok read
  have small := Image.byte_lt byte
  obtain ⟨holds, -⟩ := Image.byte_eq_ok byte
  unfold Image.Holds at holds
  dsimp only at read
  split at read
  · cases read
    refine ⟨holds.1, Int.lt_succ address, by omega, ?_, ?_⟩
    · dsimp only
      omega
    · dsimp only
      omega
  · obtain ⟨second, byte', read⟩ := Result.bind_eq_ok read
    have small' := Image.byte_lt byte'
    obtain ⟨holds', -⟩ := Image.byte_eq_ok byte'
    unfold Image.Holds at holds'
    cases read
    refine ⟨holds.1, by omega, by omega, ?_, ?_⟩
    · dsimp only
      split <;> omega
    · dsimp only
      split <;> omega

/-- How an instruction stands in an image: its head, its operands, and what its opcode demands
behind them, one after the other. -/
structure ReadFrom (instruction : Instruction) (codec : Codec) (tables : Option Image)
    (image : Image) (version : Int) (head : InstructionHead) (operandsEnd branchAddress : Int) :
    Prop where
  headed : InstructionHead.read image instruction.address version = .ok head
  opcode : Opcode.find? head.group head.number version = some instruction.opcode
  operands : readOperands image head.kinds head.next = .ok (instruction.operands, operandsEnd)
  text : readTextIf instruction.opcode.hasText codec tables image operandsEnd =
    .ok (instruction.text, instruction.resultAddress)
  target : readTargetIf instruction.opcode.stores image instruction.resultAddress =
    .ok (instruction.storeTo, branchAddress)
  branch : readBranchIf instruction.opcode.branches image branchAddress =
    .ok (instruction.branch, instruction.nextAddress)

variable {codec : Codec} {tables : Option Image} {address version : Int}
  {instruction : Instruction}

/-- An instruction is read from its parts, one after the other. -/
theorem read_eq_ok (decoded : read codec tables image address version = .ok instruction) :
    instruction.address = address ∧ ∃ head operandsEnd branchAddress,
      instruction.ReadFrom codec tables image version head operandsEnd branchAddress := by
  unfold read at decoded
  obtain ⟨head, headed, decoded⟩ := Result.bind_eq_ok decoded
  cases found : Opcode.find? head.group head.number version with
  | none => simp only [found, throw, throwThe, MonadExceptOf.throw, reduceCtorEq] at decoded
  | some opcode =>
      simp only [found] at decoded
      obtain ⟨⟨operands, operandsEnd⟩, listed, decoded⟩ := Result.bind_eq_ok decoded
      obtain ⟨⟨text, resultAddress⟩, spelled, decoded⟩ := Result.bind_eq_ok decoded
      obtain ⟨⟨storeTo, branchAddress⟩, stored, decoded⟩ := Result.bind_eq_ok decoded
      obtain ⟨⟨branch, nextAddress⟩, branched, decoded⟩ := Result.bind_eq_ok decoded
      cases decoded
      exact ⟨rfl, head, operandsEnd, branchAddress, headed, found, listed, spelled, stored,
        branched⟩

private theorem readText_eq_ok {next : Int} {text : Text}
    (spelled : readText codec tables image address = .ok (text, next)) :
    address < next ∧ next ≤ image.size := by
  unfold readText at spelled
  obtain ⟨zchars, found, spelled⟩ := Result.bind_eq_ok spelled
  obtain ⟨decoded, -, spelled⟩ := Result.bind_eq_ok spelled
  obtain ⟨words, length, positive, -, stop⟩ := Image.zcharsToEnd_eq_ok found
  cases spelled
  rw [length]
  omega

/-- The text of an instruction lies inside the image. -/
theorem readTextIf_eq_ok {present : Bool} {next : Int} {text : Option Text}
    (spelled : readTextIf present codec tables image address = .ok (text, next))
    (start : address ≤ image.size) : address ≤ next ∧ next ≤ image.size := by
  unfold readTextIf at spelled
  cases present with
  | false =>
      cases spelled
      exact ⟨Int.le_refl _, start⟩
  | true =>
      obtain ⟨⟨text, after⟩, found, spelled⟩ := Result.bind_eq_ok spelled
      cases spelled
      obtain ⟨before, stop⟩ := readText_eq_ok found
      exact ⟨Int.le_of_lt before, stop⟩

/-- The target of an instruction is one byte, if it has any. -/
theorem readTargetIf_eq_ok {present : Bool} {next : Int} {target : Option Int}
    (stored : readTargetIf present image address = .ok (target, next)) :
    (present = false ∧ target = none ∧ next = address) ∨
      (present = true ∧ next = address + 1 ∧
        ∃ byte : Nat, image.byte address = .ok byte ∧ target = some (byte : Int)) := by
  unfold readTargetIf at stored
  cases present with
  | false =>
      cases stored
      exact .inl ⟨rfl, rfl, rfl⟩
  | true =>
      obtain ⟨byte, found, stored⟩ := Result.bind_eq_ok stored
      cases stored
      exact .inr ⟨rfl, rfl, byte, found, rfl⟩

/-- The branch of an instruction is read where it stands, if it has any. -/
theorem readBranchIf_eq_ok {present : Bool} {next : Int} {branch : Option BranchTarget}
    (branched : readBranchIf present image address = .ok (branch, next)) :
    (present = false ∧ branch = none ∧ next = address) ∨
      (present = true ∧
        ∃ found, readBranch image address = .ok (found, next) ∧ branch = some found) := by
  unfold readBranchIf at branched
  cases present with
  | false =>
      cases branched
      exact .inl ⟨rfl, rfl, rfl⟩
  | true =>
      obtain ⟨⟨branch, after⟩, found, branched⟩ := Result.bind_eq_ok branched
      cases branched
      exact .inr ⟨rfl, branch, found, rfl⟩

/-- The bounds of a decoded instruction in an image. -/
structure Within (instruction : Instruction) (image : Image) : Prop where
  start : 0 ≤ instruction.address
  result : instruction.address < instruction.resultAddress
  next : instruction.resultAddress ≤ instruction.nextAddress
  stop : instruction.nextAddress ≤ image.size
  operands : instruction.operands.length ≤ 8
  target : ∀ target, instruction.storeTo = some target → 0 ≤ target ∧ target < 256
  branch : ∀ branch, instruction.branch = some branch →
    -0x2000 ≤ branch.offset ∧ branch.offset < 0x2000

/-- A decoded instruction lies inside its image. -/
theorem within_of_read (decoded : read codec tables image address version = .ok instruction) :
    instruction.Within image := by
  obtain ⟨-, head, operandsEnd, branchAddress, parts⟩ := read_eq_ok decoded
  obtain ⟨start, before, headEnd, kinds⟩ := InstructionHead.read_eq_ok parts.headed
  obtain ⟨count, listed, operandsStop⟩ := readOperands_eq_ok headEnd parts.operands
  obtain ⟨spelled, textStop⟩ := readTextIf_eq_ok parts.text operandsStop
  have stored : instruction.resultAddress ≤ branchAddress ∧ branchAddress ≤ image.size ∧
      ∀ target, instruction.storeTo = some target → 0 ≤ target ∧ target < 256 := by
    rcases readTargetIf_eq_ok parts.target with ⟨-, none, same⟩ | ⟨-, after, byte, found, some⟩
    · refine ⟨by omega, by omega, ?_⟩
      intro target given
      rw [none] at given
      cases given
    · have small := Image.byte_lt found
      obtain ⟨holds, -⟩ := Image.byte_eq_ok found
      unfold Image.Holds at holds
      refine ⟨by omega, by omega, ?_⟩
      intro target given
      rw [some] at given
      cases given
      omega
  obtain ⟨afterResult, branchStart, targets⟩ := stored
  rcases readBranchIf_eq_ok parts.branch with ⟨-, none, same⟩ | ⟨-, found, branched, some⟩
  · refine ⟨start, by omega, by omega, by omega, by omega, targets, ?_⟩
    intro branch given
    rw [none] at given
    cases given
  · obtain ⟨-, after, stop, least, most⟩ := readBranch_eq_ok branched
    refine ⟨start, by omega, by omega, stop, by omega, targets, ?_⟩
    intro branch given
    rw [some] at given
    cases given
    exact ⟨least, most⟩

/-- The opcode of a decoded instruction belongs to the instruction set. -/
theorem opcode_mem_all_of_read
    (decoded : read codec tables image address version = .ok instruction) :
    instruction.opcode ∈ Opcode.all := by
  obtain ⟨-, head, operandsEnd, branchAddress, parts⟩ := read_eq_ok decoded
  exact List.mem_of_find?_eq_some parts.opcode

end Instruction

end StoryMachine
