import StoryMachine.Proofs.InstructionForms
import StoryMachine.Proofs.SaveInstructions

/-!
# Assembled instructions

The assembler and the decoder agree: the bytes of an instruction, wherever they
are placed, are read as that instruction. The head is read in the form that the
assembler chose, then the operands, then the variable and the branch that the
opcode demands.
-/

namespace StoryMachine

namespace Assembly

/-! ## Operands -/

/-- An operand that can be written down: a byte, or a word for a large constant. -/
structure IsWritten (operand : Operand) : Prop where
  kind : operand.kind ≠ .omitted
  lower : 0 ≤ operand.value
  upper : operand.value < if operand.kind = .large then 65536 else 256

instance (operand : Operand) : Decidable (IsWritten operand) :=
  decidable_of_iff (operand.kind ≠ .omitted ∧ 0 ≤ operand.value ∧
      operand.value < if operand.kind = .large then 65536 else 256)
    ⟨fun ⟨kind, lower, upper⟩ => ⟨kind, lower, upper⟩,
      fun written => ⟨written.kind, written.lower, written.upper⟩⟩

private theorem operandBytes_eq {operand : Operand} (written : IsWritten operand) :
    (∀ value ∈ operandBytes operand, IsByte value) ∧
      (operandBytes operand).length = (if operand.kind = .large then 2 else 1) ∧
      ∀ (image : Image) (address : Int),
        image.Carries address ((operandBytes operand).map Byte.ofInt) →
          (if operand.kind = .large then image.word address else image.byte address) =
            .ok operand.value.toNat := by
  obtain ⟨present, lower, upper⟩ := written
  obtain ⟨kind, value⟩ := operand
  by_cases large : kind = .large
  · subst large
    simp only [↓reduceIte] at upper lower ⊢
    obtain ⟨word, rfl⟩ := Int.eq_ofNat_of_zero_le lower
    have bound : word < 65536 := by omega
    have high : IsByte (Word.high word) := by
      unfold IsByte Word.high
      omega
    have low : IsByte (Word.low word) := by
      unfold IsByte Word.low
      omega
    unfold operandBytes
    simp only [Word.ofInt_natCast bound]
    refine ⟨by simpa using ⟨high, low⟩, rfl, fun image address carried => ?_⟩
    obtain ⟨first, carried⟩ := byte_of_carries high carried
    obtain ⟨second, -⟩ := byte_of_carries low carried
    rw [Image.word_of_bytes first second, Int.toNat_natCast, Int.toNat_natCast,
      Word.high_low bound, Int.toNat_natCast]
  · simp only [large, ↓reduceIte] at upper lower ⊢
    have alone : operandBytes { kind, value } = [value] := by
      cases kind with
      | large => exact absurd rfl large
      | omitted => exact absurd rfl present
      | _ => exact congrArg (fun byte => [byte]) (Int.emod_eq_of_lt lower upper)
    rw [alone]
    refine ⟨by simpa using ⟨lower, upper⟩, rfl, fun image address carried => ?_⟩
    exact (byte_of_carries ⟨lower, upper⟩ carried).1

private theorem readOperands_of_carries {operands : List Operand}
    (written : ∀ operand ∈ operands, IsWritten operand) {image : Image} {address : Int}
    (carried : image.Carries address ((operands.flatMap operandBytes).map Byte.ofInt)) :
    Instruction.readOperands image (operands.map Operand.kind) address =
      .ok (operands, address + (operands.flatMap operandBytes).length) := by
  induction operands generalizing address with
  | nil => simp [Instruction.readOperands]
  | cons operand rest ih =>
      obtain ⟨first, others⟩ := List.forall_mem_cons.mp written
      obtain ⟨-, length, reads⟩ := operandBytes_eq first
      rw [List.flatMap_cons, List.map_append, Image.carries_append, List.length_map] at carried
      obtain ⟨here, later⟩ := carried
      have value := reads image address here
      have same : { kind := operand.kind, value := (operand.value.toNat : Int) } = operand := by
        rw [Int.toNat_of_nonneg first.lower]
      rw [List.map_cons, Instruction.readOperands, List.flatMap_cons, List.length_append, length]
      rw [length] at later
      by_cases large : operand.kind = .large
      · simp only [large, ↓reduceIte, Nat.cast_ofNat] at value later same ⊢
        rw [value, Result.ok_bind, same, ih others later, Int.natCast_add, ← Int.add_assoc]
        rfl
      · simp only [large, ↓reduceIte, Int.natCast_one] at value later ⊢
        rw [value, Result.ok_bind, same, ih others later, Int.natCast_add, ← Int.add_assoc]
        rfl

/-! ## Branches -/

private theorem readBranch_of_carries {branch : BranchTarget}
    (near : -0x2000 ≤ branch.offset ∧ branch.offset < 0x2000) :
    (∀ value ∈ branchBytes branch, IsByte value) ∧
      ∀ (image : Image) (address : Int),
        image.Carries address ((branchBytes branch).map Byte.ofInt) →
          Instruction.readBranch image address =
            .ok (branch, address + (branchBytes branch).length) := by
  obtain ⟨offset, ifTrue⟩ := branch
  obtain ⟨flag, flagged, few, told⟩ : ∃ flag : Nat,
      (if ifTrue then 0x80 else 0) = (flag * 128 : Int) ∧ flag < 2 ∧
        decide (flag = 1) = ifTrue := by
    cases ifTrue with
    | false => exact ⟨0, by decide⟩
    | true => exact ⟨1, by decide⟩
  unfold branchBytes
  simp only [flagged] at near ⊢
  by_cases short : 0 ≤ offset ∧ offset < 64
  · rw [if_pos short]
    obtain ⟨places, rfl⟩ := Int.eq_ofNat_of_zero_le short.1
    have byte : IsByte (flag * 128 + 0x40 + places) := by
      unfold IsByte
      omega
    refine ⟨by simpa using byte, fun image address carried => ?_⟩
    obtain ⟨read, -⟩ := byte_of_carries byte carried
    obtain ⟨first, whole⟩ : ∃ first, ((flag * 128 + 0x40 + places : Int)).toNat = first := ⟨_, rfl⟩
    rw [whole] at read
    have sense : decide (0x80 ≤ first) = ifTrue := by
      rw [← told, decide_eq_decide]
      omega
    have low : first % 64 = places := by omega
    rw [Instruction.readBranch, read, Result.ok_bind]
    simp only
    rw [if_pos (by omega), sense, low]
    rfl
  · rw [if_neg short]
    obtain ⟨raw, folded⟩ : ∃ raw : Nat, offset % 0x4000 = raw :=
      Int.eq_ofNat_of_zero_le (by omega)
    rw [folded]
    have high : IsByte (flag * 128 + (raw : Int) / 256) := by
      unfold IsByte
      omega
    have low : IsByte ((raw : Int) % 256) := by
      unfold IsByte
      omega
    refine ⟨by simpa using ⟨high, low⟩, fun image address carried => ?_⟩
    obtain ⟨read, carried⟩ := byte_of_carries high carried
    obtain ⟨read', -⟩ := byte_of_carries low carried
    obtain ⟨first, whole⟩ : ∃ first, (flag * 128 + (raw : Int) / 256).toNat = first := ⟨_, rfl⟩
    obtain ⟨second, rest⟩ : ∃ second, ((raw : Int) % 256).toNat = second := ⟨_, rfl⟩
    rw [whole] at read
    rw [rest] at read'
    have sense : decide (0x80 ≤ first) = ifTrue := by
      rw [← told, decide_eq_decide]
      omega
    have joined : first % 64 * 256 + second = raw := by omega
    have signed : (if (0x2000 : Int) ≤ raw then (raw : Int) - 0x4000 else raw) = offset := by
      split <;> omega
    rw [Instruction.readBranch, read, Result.ok_bind]
    simp only
    rw [if_neg (by omega), read', Result.ok_bind, joined, sense, signed]
    rfl

/-! ## What the opcode demands behind the operands -/

private theorem readTargetIf_of_carries {target : Option Int} (small : ∀ value ∈ target, IsByte value)
    {image : Image} {address : Int}
    (carried : image.Carries address (target.toList.map Byte.ofInt)) :
    Instruction.readTargetIf target.isSome image address =
      .ok (target, address + target.toList.length) := by
  cases target with
  | none => simp [Instruction.readTargetIf]
  | some value =>
      have byte := small value rfl
      obtain ⟨read, -⟩ := byte_of_carries byte carried
      rw [Option.isSome_some, Instruction.readTargetIf, if_pos rfl, read, Result.ok_bind,
        Int.toNat_of_nonneg byte.1]
      rfl

private theorem readBranchIf_of_carries {branch : Option BranchTarget}
    (near : ∀ target ∈ branch, -0x2000 ≤ target.offset ∧ target.offset < 0x2000)
    {image : Image} {address : Int}
    (carried : image.Carries address (((branch.map branchBytes).getD []).map Byte.ofInt)) :
    Instruction.readBranchIf branch.isSome image address =
      .ok (branch, address + ((branch.map branchBytes).getD []).length) := by
  cases branch with
  | none => simp [Instruction.readBranchIf]
  | some target =>
      have read := (readBranch_of_carries (near target rfl)).2 image address carried
      rw [Option.isSome_some, Instruction.readBranchIf, if_pos rfl, read]
      rfl

end Assembly

/-! ## Legal instructions -/

/-- An instruction without a string is read part by part. -/
theorem Instruction.read_of_parts {codec : Codec} {tables : Option Image} {image : Image}
    {address version resultAddress branchAddress nextAddress : Int} {head : InstructionHead}
    {opcode : Opcode} {operands : List Operand} {storeTo : Option Int}
    {branch : Option BranchTarget}
    (headed : InstructionHead.read image address version = .ok head)
    (found : Opcode.find? head.group head.number version = some opcode)
    (plain : opcode.hasText = false)
    (listed : readOperands image head.kinds head.next = .ok (operands, resultAddress))
    (stored : readTargetIf opcode.stores image resultAddress = .ok (storeTo, branchAddress))
    (branched : readBranchIf opcode.branches image branchAddress = .ok (branch, nextAddress)) :
    read codec tables image address version = .ok
      { address, form := head.form, opcode, operands, storeTo, branch, resultAddress,
        nextAddress } := by
  rw [read, headed, Result.ok_bind]
  simp only [found]
  rw [listed, Result.ok_bind]
  simp only [readTextIf, plain, Bool.false_eq_true, ↓reduceIte]
  rw [Result.ok_bind]
  simp only
  rw [stored, Result.ok_bind]
  simp only
  rw [branched]
  rfl

/-- A decoded instruction as it would be assembled. -/
def Instruction.assembly (instruction : Instruction) : Assembly where
  group := instruction.opcode.group
  number := instruction.opcode.number
  operands := instruction.operands
  storeTo := instruction.storeTo
  branch := instruction.branch

/-- Whether the forms that an opcode can be written in hold a number of operands. -/
def OpcodeGroup.Holds (number count : Nat) : OpcodeGroup → Prop
  | .zeroOperands => count = 0
  | .oneOperand => count = 1
  | .twoOperands => count ≤ 4
  | .variable => count ≤ if number = 12 ∨ number = 26 then 8 else 4
  | .extended => count ≤ 4

instance (number count : Nat) : (group : OpcodeGroup) → Decidable (group.Holds number count)
  | .zeroOperands | .oneOperand => inferInstanceAs (Decidable (count = _))
  | .twoOperands | .variable | .extended => inferInstanceAs (Decidable (count ≤ _))

namespace Opcode

/-- Where the numbers of each group end. The one number that is missing below sixteen introduces the
extended set. -/
theorem number_lt : ∀ opcode ∈ all,
    (opcode.group = .zeroOperands → opcode.number < 16 ∧ opcode.number ≠ 14) ∧
      (opcode.group = .oneOperand → opcode.number < 16) ∧
      (opcode.group = .twoOperands ∨ opcode.group = .variable → opcode.number < 32) ∧
      opcode.number < 256 := by
  decide

private theorem find?_eq_some {group : OpcodeGroup} {number : Nat} {version : Int} {opcode : Opcode}
    (found : find? group number version = some opcode) :
    opcode ∈ all ∧ opcode.group = group ∧ opcode.number = number := by
  have listed := List.find?_some found
  simp only [Bool.and_eq_true, decide_eq_true_eq] at listed
  exact ⟨List.mem_of_find?_eq_some found, listed.1.2, listed.1.1⟩

end Opcode

namespace Assembly

/-- Operands that the forms of an opcode can hold, and behind them a variable and a branch exactly
where the opcode has them. -/
structure Legal (assembly : Assembly) (opcode : Opcode) : Prop where
  count : opcode.group.Holds opcode.number assembly.operands.length
  operands : ∀ operand ∈ assembly.operands, IsWritten operand
  stores : assembly.storeTo.isSome = opcode.stores
  target : ∀ target ∈ assembly.storeTo, IsByte target
  branches : assembly.branch.isSome = opcode.branches
  branch : ∀ branch ∈ assembly.branch, -0x2000 ≤ branch.offset ∧ branch.offset < 0x2000

instance (assembly : Assembly) (opcode : Opcode) : Decidable (assembly.Legal opcode) :=
  decidable_of_iff (opcode.group.Holds opcode.number assembly.operands.length ∧
      (∀ operand ∈ assembly.operands, IsWritten operand) ∧
      assembly.storeTo.isSome = opcode.stores ∧ (∀ target ∈ assembly.storeTo, IsByte target) ∧
      assembly.branch.isSome = opcode.branches ∧
      ∀ branch ∈ assembly.branch, -0x2000 ≤ branch.offset ∧ branch.offset < 0x2000)
    ⟨fun ⟨count, operands, stores, target, branches, branch⟩ =>
        ⟨count, operands, stores, target, branches, branch⟩,
      fun legal => ⟨legal.count, legal.operands, legal.stores, legal.target, legal.branches,
        legal.branch⟩⟩

variable {assembly : Assembly} {opcode : Opcode} {version : Int}

/-- The assembler writes a head that the decoder reads, if the version has the form. -/
theorem Legal.exists_head (legal : assembly.Legal opcode) (group : opcode.group = assembly.group)
    (number : assembly.number = opcode.number) (listed : opcode ∈ Opcode.all)
    (late : assembly.group = .extended → 5 ≤ version) :
    ∃ values, assembly.head = .ok values ∧ HeadReads values assembly.group opcode.number
      (assembly.operands.map Operand.kind) version := by
  obtain ⟨zero, one, two, every⟩ := Opcode.number_lt opcode listed
  have written : ∀ kind ∈ assembly.operands.map Operand.kind, kind ≠ .omitted := by
    intro kind member
    obtain ⟨operand, given, rfl⟩ := List.mem_map.mp member
    exact (legal.operands operand given).kind
  have count := legal.count
  rw [← List.length_map (f := Operand.kind)] at count
  unfold Assembly.head
  rw [number]
  generalize assembly.operands.map Operand.kind = kinds at written count ⊢
  rw [group] at zero one two count
  cases grouped : assembly.group with
  | zeroOperands =>
      simp only [grouped] at zero count ⊢
      rw [List.length_eq_zero_iff.mp count]
      obtain ⟨small, plain⟩ := zero trivial
      exact ⟨_, rfl, headReads_zeroOperands small plain⟩
  | oneOperand =>
      simp only [grouped] at one count ⊢
      obtain ⟨kind, rfl⟩ := List.length_eq_one_iff.mp count
      exact ⟨_, rfl, headReads_oneOperand (one trivial) (written kind List.mem_cons_self)⟩
  | twoOperands =>
      simp only [grouped] at two count ⊢
      have small := two (.inl trivial)
      have typed : HeadReads (withBits 0xc0 opcode.number :: types kinds) .twoOperands opcode.number
          kinds version :=
        headReads_types (.inl ⟨rfl, rfl⟩) small rfl count written
      split
      · rename_i first second
        split
        · exact ⟨_, rfl, typed⟩
        · rename_i long
          obtain ⟨short, short'⟩ := not_or.mp long
          have kind := small_or_variable short (written first (by simp))
          have kind' := small_or_variable short' (written second (by simp))
          exact ⟨_, rfl, headReads_long small kind kind'⟩
      · exact ⟨_, rfl, typed⟩
  | «variable» =>
      simp only [grouped, OpcodeGroup.Holds] at two count ⊢
      have small := two (.inr trivial)
      by_cases double : opcode.number = 12 ∨ opcode.number = 26
      · rw [if_pos double] at count
        have doubled : (opcode.number : Int) = 12 ∨ (opcode.number : Int) = 26 := by omega
        obtain ⟨first, second, typed, byte, byte', read⟩ := kindsOfBytes_twoTypes count written
        have all : ∀ value ∈ [first, second], IsByte value := by
          simpa using ⟨byte, byte'⟩
        have pair : [first, second].length =
            if InstructionHead.hasTwoTypeBytes .variable opcode.number then 2 else 1 := by
          simp [InstructionHead.hasTwoTypeBytes, double]
        rw [if_pos doubled, typed]
        refine ⟨_, rfl, ?_⟩
        rw [← read]
        exact headReads_variable (.inr ⟨rfl, rfl⟩) small all pair
      · rw [if_neg double] at count
        have single : ¬ ((opcode.number : Int) = 12 ∨ (opcode.number : Int) = 26) := by omega
        rw [if_neg single]
        have one : InstructionHead.hasTwoTypeBytes .variable opcode.number = false := by
          simpa [InstructionHead.hasTwoTypeBytes] using double
        exact ⟨_, rfl, headReads_types (.inr ⟨rfl, rfl⟩) small one count written⟩
  | extended =>
      simp only [grouped] at late count ⊢
      exact ⟨_, rfl, headReads_extended (late trivial) every count written⟩

/-- The bytes behind the operands. -/
def resultBytes (assembly : Assembly) : List Int :=
  assembly.storeTo.toList ++ (assembly.branch.map branchBytes).getD []

/-- An instruction can be assembled, and its bytes are decoded as what was assembled, wherever they
are placed. The next instruction starts right behind them, and the result address is that of the
variable or the branch, which stand last. -/
def ReadsBack (assembly : Assembly) (opcode : Opcode) (version : Int) : Prop :=
  ∃ bytes, assembly.assemble = .ok bytes ∧
    ∀ (codec : Codec) (tables : Option Image) (image : Image) (address : Int),
      image.Carries address bytes →
        ∃ instruction, Instruction.read codec tables image address version = .ok instruction ∧
          instruction.address = address ∧ instruction.opcode = opcode ∧
          instruction.assembly = assembly ∧ instruction.text = none ∧
          instruction.nextAddress = address + bytes.length ∧
          instruction.resultAddress + assembly.resultBytes.length = instruction.nextAddress

private theorem Legal.readsBack (legal : assembly.Legal opcode) {number : Nat}
    (numbered : assembly.number = number)
    (found : Opcode.find? assembly.group number version = some opcode)
    (plain : opcode.hasText = false) (late : assembly.group = .extended → 5 ≤ version) :
    assembly.ReadsBack opcode version := by
  obtain ⟨listed, group, rfl⟩ := Opcode.find?_eq_some found
  obtain ⟨head, headed, reads⟩ := legal.exists_head group numbered listed late
  obtain ⟨operands, spelled⟩ : ∃ operands, assembly.operands.flatMap operandBytes = operands :=
    ⟨_, rfl⟩
  obtain ⟨branch, branched⟩ : ∃ branch, (assembly.branch.map branchBytes).getD [] = branch :=
    ⟨_, rfl⟩
  have all : ∀ value ∈ head ++ operands ++ assembly.storeTo.toList ++ branch, IsByte value := by
    simp only [List.forall_mem_append]
    refine ⟨⟨⟨reads.bytes, ?_⟩, ?_⟩, ?_⟩
    · intro value member
      rw [← spelled] at member
      obtain ⟨operand, given, member⟩ := List.mem_flatMap.mp member
      exact (operandBytes_eq (legal.operands operand given)).1 value member
    · intro value member
      exact legal.target value (Option.mem_toList.mp member)
    · rw [← branched]
      intro value member
      cases given : assembly.branch with
      | none => simp [given] at member
      | some target =>
          simp only [given, Option.map_some, Option.getD_some] at member
          exact (readBranch_of_carries (legal.branch target given)).1 value member
  refine ⟨(head ++ operands ++ assembly.storeTo.toList ++ branch).map Byte.ofInt, ?_, ?_⟩
  · rw [assemble, headed, Result.ok_bind, spelled, branched, toBytes_of_isByte all]
  intro codec tables image address carried
  simp only [List.map_append, Image.carries_append, List.length_append, List.length_map,
    Int.natCast_add, ← Int.add_assoc] at carried
  obtain ⟨⟨⟨atHead, atOperands⟩, atTarget⟩, atBranch⟩ := carried
  obtain ⟨form, first⟩ := reads.reads image address atHead
  subst spelled branched
  have second := readOperands_of_carries legal.operands atOperands
  have third := readTargetIf_of_carries legal.target atTarget
  have fourth := readBranchIf_of_carries legal.branch atBranch
  rw [legal.stores] at third
  rw [legal.branches] at fourth
  refine ⟨_, Instruction.read_of_parts first found plain second third fourth, rfl, rfl, ?_, rfl, ?_,
    ?_⟩
  · rw [Instruction.assembly, group, ← numbered]
  · simp only [List.length_map, List.length_append, Int.natCast_add, Int.add_assoc]
  · simp only [resultBytes, List.length_append, Int.natCast_add, Int.add_assoc]

end Assembly

/-! ## Decoded instructions -/

namespace InstructionHead

/-- The operands of a decoded head: none of them is omitted, and the opcode can hold as many. -/
structure Legal (head : InstructionHead) : Prop where
  written : ∀ kind ∈ head.kinds, kind ≠ .omitted
  count : head.group.Holds head.number head.kinds.length

variable {image : Image} {address version : Int} {head : InstructionHead}

private theorem withTypes_legal {form : InstructionForm} {group : OpcodeGroup} {number : Nat}
    (typed : group = .twoOperands ∨ group = .variable ∨ group = .extended)
    (read : withTypes image form group number address = .ok head) : head.Legal := by
  obtain ⟨bytes, found, read⟩ := Result.bind_eq_ok read
  have few := length_kindsOfBytes_le bytes
  rw [(Image.byteRun_eq_ok found).1] at few
  cases read
  refine ⟨fun kind member => ?_, ?_⟩
  · exact bne_iff_ne.mp (List.all_eq_true.mp List.all_takeWhile kind member)
  · rcases typed with rfl | rfl | rfl
    · simpa [OpcodeGroup.Holds, hasTwoTypeBytes] using few
    · simp only [OpcodeGroup.Holds, hasTwoTypeBytes, decide_true, Bool.true_and, Bool.or_eq_true,
        decide_eq_true_eq] at few ⊢
      split at few
      · rename_i double
        rwa [if_pos double]
      · rename_i single
        rwa [if_neg single]
    · simpa [OpcodeGroup.Holds, hasTwoTypeBytes] using few

private theorem legal_of_read (decoded : read image address version = .ok head) : head.Legal := by
  unfold read at decoded
  obtain ⟨first, -, decoded⟩ := Result.bind_eq_ok decoded
  dsimp only at decoded
  split at decoded
  · obtain ⟨number, -, decoded⟩ := Result.bind_eq_ok decoded
    exact withTypes_legal (.inr (.inr rfl)) decoded
  split at decoded
  · refine withTypes_legal ?_ decoded
    split
    · exact .inr (.inl rfl)
    · exact .inl rfl
  split at decoded
  · cases decoded
    by_cases omitted : OperandKind.ofBits (first / 16 % 4) = .omitted
    · simp only [omitted, ↓reduceIte]
      exact ⟨by simp, rfl⟩
    · simp only [omitted, ↓reduceIte]
      exact ⟨by simpa using omitted, rfl⟩
  · cases decoded
    have kinds (bit : Nat) : (if bit = 1 then OperandKind.variable else .small) ≠ .omitted := by
      split <;> decide
    exact ⟨by simp [kinds], (by decide : 2 ≤ 4)⟩

end InstructionHead

namespace Instruction

variable {codec : Codec} {tables : Option Image} {image : Image} {address version : Int}
  {instruction : Instruction}

private theorem isWritten_of_readOperands {kinds : List OperandKind} {next : Int} {operands : List Operand}
    (written : ∀ kind ∈ kinds, kind ≠ .omitted)
    (read : readOperands image kinds address = .ok (operands, next)) :
    operands.length = kinds.length ∧ ∀ operand ∈ operands, Assembly.IsWritten operand := by
  induction kinds generalizing address operands with
  | nil =>
      cases read
      simp
  | cons kind kinds ih =>
      obtain ⟨present, others⟩ := List.forall_mem_cons.mp written
      unfold readOperands at read
      by_cases large : kind = .large
      · simp only [large, ↓reduceIte] at read
        obtain ⟨value, found, read⟩ := Result.bind_eq_ok read
        obtain ⟨⟨rest, after⟩, more, read⟩ := Result.bind_eq_ok read
        cases read
        obtain ⟨length, all⟩ := ih others more
        have bound := Image.word_lt found
        refine ⟨by rw [List.length_cons, List.length_cons, length], ?_⟩
        refine List.forall_mem_cons.mpr ⟨⟨large ▸ present, Int.natCast_nonneg value, ?_⟩, all⟩
        rw [if_pos rfl]
        exact Int.ofNat_lt.mpr bound
      · simp only [large, ↓reduceIte] at read
        obtain ⟨value, found, read⟩ := Result.bind_eq_ok read
        obtain ⟨⟨rest, after⟩, more, read⟩ := Result.bind_eq_ok read
        cases read
        obtain ⟨length, all⟩ := ih others more
        have bound := Image.byte_lt found
        refine ⟨by rw [List.length_cons, List.length_cons, length], ?_⟩
        refine List.forall_mem_cons.mpr ⟨⟨present, Int.natCast_nonneg value, ?_⟩, all⟩
        rw [if_neg large]
        exact Int.ofNat_lt.mpr bound

/-- What was decoded can be assembled. -/
theorem legal_of_read (decoded : read codec tables image address version = .ok instruction) :
    instruction.assembly.Legal instruction.opcode := by
  have within := within_of_read decoded
  obtain ⟨-, head, operandsEnd, branchAddress, parts⟩ := read_eq_ok decoded
  obtain ⟨listed, group, number⟩ := Opcode.find?_eq_some parts.opcode
  have headed := InstructionHead.legal_of_read parts.headed
  obtain ⟨length, written⟩ := isWritten_of_readOperands headed.written parts.operands
  refine ⟨?_, written, ?_, within.target, ?_, within.branch⟩
  · have count := headed.count
    rwa [← length, ← group, ← number] at count
  · rcases readTargetIf_eq_ok parts.target with ⟨skips, none, -⟩ | ⟨stores, -, byte, -, some⟩
    · rw [assembly, none, skips]
      rfl
    · rw [assembly, some, stores]
      rfl
  · rcases readBranchIf_eq_ok parts.branch with ⟨skips, none, -⟩ | ⟨branches, found, -, some⟩
    · rw [assembly, none, skips]
      rfl
    · rw [assembly, some, branches]
      rfl

end Instruction

namespace Assembly

/-- The assembler and the decoder agree. Every legal instruction of a version reads back as it was
assembled, the extended ones from version five on; so does every decoded instruction without a
string. -/
theorem assembled_reads_back (version : Int) :
    (∀ (assembly : Assembly) (number : Nat) (opcode : Opcode), assembly.number = number →
      Opcode.find? assembly.group number version = some opcode → opcode.hasText = false →
      (assembly.group = .extended → 5 ≤ version) → assembly.Legal opcode →
        assembly.ReadsBack opcode version) ∧
    (∀ (codec : Codec) (tables : Option Image) (image : Image) (address : Int)
      (instruction : Instruction),
      Instruction.read codec tables image address version = .ok instruction →
        instruction.opcode.hasText = false →
          instruction.assembly.ReadsBack instruction.opcode version) := by
  constructor
  · intro assembly number opcode numbered found plain late legal
    exact legal.readsBack numbered found plain late
  · intro codec tables image address instruction decoded plain
    obtain ⟨-, head, operandsEnd, branchAddress, parts⟩ := Instruction.read_eq_ok decoded
    obtain ⟨-, group, number⟩ := Opcode.find?_eq_some parts.opcode
    have found := parts.opcode
    rw [← group, ← number] at found
    refine (Instruction.legal_of_read decoded).readsBack rfl found plain fun extended => ?_
    exact InstructionHead.five_le_of_extended parts.headed (group.symm.trans extended)

/-- A call with five arguments, whose second types byte is half empty. -/
def sampleCall : Assembly where
  group := .variable
  number := 12
  operands := [⟨.large, 0x1234⟩, ⟨.small, 1⟩, ⟨.variable, 2⟩, ⟨.small, 3⟩, ⟨.large, 4⟩,
    ⟨.variable, 0⟩]
  storeTo := some 16

/-- A call with four operands is read back. -/
theorem assembled_reads_back_call :
    ∃ opcode, Opcode.find? .variable 12 4 = some opcode ∧ sampleCall.ReadsBack opcode 4 :=
  ⟨_, rfl, (assembled_reads_back 4).1 sampleCall 12 _ rfl rfl rfl (by decide) (by decide)⟩

/-- A shift of the extended set. -/
def sampleShift : Assembly where
  group := .extended
  number := 2
  operands := [⟨.small, 1⟩, ⟨.small, 2⟩]
  storeTo := some 0

/-- Before version five the extended set has its opcodes but no form to write them in. -/
theorem not_forall_assembled_reads_back :
    ¬ ∀ (version : Int) (assembly : Assembly) (number : Nat) (opcode : Opcode),
      assembly.number = number → Opcode.find? assembly.group number version = some opcode →
        opcode.hasText = false → assembly.Legal opcode → assembly.ReadsBack opcode version := by
  intro agrees
  obtain ⟨bytes, assembled, reads⟩ := agrees 3 sampleShift 2 _ rfl rfl rfl (by decide)
  have spelled : sampleShift.assemble = .ok [0xbe, 2, 0x5f, 1, 2, 0] := by decide +kernel
  cases assembled.symm.trans spelled
  obtain ⟨instruction, decoded, -⟩ := reads { version := 3 } none ⟨#[0xbe, 2, 0x5f, 1, 2, 0]⟩ 0
    (by decide +kernel)
  have unknown : Instruction.read { version := 3 } none ⟨#[0xbe, 2, 0x5f, 1, 2, 0]⟩ 0 3 =
      .error (.fault { cause := .unknownOpcode .zeroOperands 14 0, pc := some 0 }) := by
    decide +kernel
  cases decoded.symm.trans unknown

end Assembly

end StoryMachine
