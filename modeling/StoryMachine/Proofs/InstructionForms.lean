import StoryMachine.Instruction.Assemble
import StoryMachine.Instruction.Decode
import StoryMachine.Proofs.Images

/-!
# The forms of instructions

An opcode can be written in the short, the long, the variable or the extended
form. In each of them the bytes that the assembler writes for an opcode and the
kinds of its operands are read as that opcode and those kinds.
-/

namespace StoryMachine

namespace Assembly

/-! ## Bytes -/

/-- A number that fits a byte. -/
def IsByte (value : Int) : Prop :=
  0 ≤ value ∧ value < 256

instance (value : Int) : Decidable (IsByte value) :=
  inferInstanceAs (Decidable (_ ∧ _))

/-- Numbers below 256 are written as bytes. -/
theorem toBytes_of_isByte {values : List Int} (all : ∀ value ∈ values, IsByte value) :
    toBytes values = .ok (values.map Byte.ofInt) := by
  induction values with
  | nil => rfl
  | cons value rest ih =>
      obtain ⟨first, others⟩ := List.forall_mem_cons.mp all
      unfold IsByte at first
      rw [toBytes, ih others, Result.ok_bind, if_pos first]
      rfl

variable {image : Image} {address : Int}

/-- The first of the bytes that an image carries is read, and the others stand behind it. -/
theorem byte_of_carries {value : Int} {rest : List Int} (small : IsByte value)
    (carried : image.Carries address ((value :: rest).map Byte.ofInt)) :
    image.byte address = .ok value.toNat ∧ image.Carries (address + 1) (rest.map Byte.ofInt) := by
  obtain ⟨read, later⟩ := carried
  obtain ⟨byte, rfl⟩ := Int.eq_ofNat_of_zero_le small.1
  rw [Image.toNat_byte_ofInt (Int.ofNat_lt.mp small.2)] at read
  exact ⟨read, later⟩

/-! ## Types -/

private theorem toBits_lt (kind : OperandKind) : kind.toBits < 4 := by
  cases kind <;> decide

private theorem kindsOfByte_byteOf (a b c d : OperandKind) :
    IsByte (typeBytes.byteOf a b c d) ∧
      InstructionHead.kindsOfByte (typeBytes.byteOf a b c d).toNat = [a, b, c, d] := by
  have first := toBits_lt a
  have second := toBits_lt b
  have third := toBits_lt c
  have fourth := toBits_lt d
  obtain ⟨byte, whole⟩ :
      ∃ byte, a.toBits * 64 + b.toBits * 16 + c.toBits * 4 + d.toBits = byte := ⟨_, rfl⟩
  have fields : byte / 64 = a.toBits ∧ byte / 16 % 4 = b.toBits ∧ byte / 4 % 4 = c.toBits ∧
      byte % 4 = d.toBits := by
    omega
  unfold typeBytes.byteOf IsByte InstructionHead.kindsOfByte
  rw [whole, Int.toNat_natCast, fields.1, fields.2.1, fields.2.2.1, fields.2.2.2]
  refine ⟨by omega, ?_⟩
  simp only [List.map_cons, List.map_nil, OperandKind.ofBits_toBits]

/-- Up to four kinds are written in one byte, and the places that are left read as omitted. -/
theorem types_eq {kinds : List OperandKind} (few : kinds.length ≤ 4) :
    ∃ byte, types kinds = [byte] ∧ IsByte byte ∧ InstructionHead.kindsOfByte byte.toNat =
      kinds ++ List.replicate (4 - kinds.length) .omitted := by
  match kinds, few with
  | [], _ => exact ⟨0xff, rfl, by unfold IsByte; decide, rfl⟩
  | [a], _ => exact ⟨_, rfl, kindsOfByte_byteOf a .omitted .omitted .omitted⟩
  | [a, b], _ => exact ⟨_, rfl, kindsOfByte_byteOf a b .omitted .omitted⟩
  | [a, b, c], _ => exact ⟨_, rfl, kindsOfByte_byteOf a b c .omitted⟩
  | [a, b, c, d], _ => exact ⟨_, rfl, kindsOfByte_byteOf a b c d⟩

private theorem takeWhile_written {kinds : List OperandKind} (written : ∀ kind ∈ kinds, kind ≠ .omitted)
    (count : Nat) :
    (kinds ++ List.replicate count OperandKind.omitted).takeWhile (· != .omitted) = kinds := by
  rw [List.takeWhile_append_of_pos fun kind member => bne_iff_ne.mpr (written kind member)]
  simp

/-- Kinds that stand in types bytes are read up to the first that is omitted. -/
theorem kindsOfBytes_types {kinds : List OperandKind} (few : kinds.length ≤ 4)
    (written : ∀ kind ∈ kinds, kind ≠ .omitted) :
    ∃ byte, types kinds = [byte] ∧ IsByte byte ∧
      InstructionHead.kindsOfBytes [byte.toNat] = kinds := by
  obtain ⟨byte, typed, small, read⟩ := types_eq few
  refine ⟨byte, typed, small, ?_⟩
  rw [InstructionHead.kindsOfBytes, List.flatMap_singleton, read, takeWhile_written written]

/-- The kinds of an opcode with two types bytes, of which the second can be empty. -/
theorem kindsOfBytes_twoTypes {kinds : List OperandKind} (few : kinds.length ≤ 8)
    (written : ∀ kind ∈ kinds, kind ≠ .omitted) :
    ∃ first second,
      types ((kinds ++ List.replicate (8 - kinds.length) OperandKind.omitted).take 4) ++
        types (((kinds ++ List.replicate (8 - kinds.length) OperandKind.omitted).drop 4).take 4) =
          [first, second] ∧
      IsByte first ∧ IsByte second ∧
      InstructionHead.kindsOfBytes [first.toNat, second.toNat] = kinds := by
  obtain ⟨padded, whole⟩ :
      ∃ padded, kinds ++ List.replicate (8 - kinds.length) .omitted = padded := ⟨_, rfl⟩
  have eight : padded.length = 8 := by
    rw [← whole, List.length_append, List.length_replicate]
    omega
  have front : (padded.take 4).length = 4 := by
    rw [List.length_take]
    omega
  have back : ((padded.drop 4).take 4).length = 4 := by
    rw [List.length_take, List.length_drop]
    omega
  obtain ⟨first, typed, small, read⟩ := types_eq front.le
  obtain ⟨second, typed', small', read'⟩ := types_eq back.le
  rw [front, Nat.sub_self, List.replicate_zero, List.append_nil] at read
  rw [back, Nat.sub_self, List.replicate_zero, List.append_nil,
    List.take_of_length_le (by rw [List.length_drop]; omega)] at read'
  rw [whole, typed, typed']
  refine ⟨first, second, rfl, small, small', ?_⟩
  rw [InstructionHead.kindsOfBytes, List.flatMap_cons, List.flatMap_singleton, read, read',
    List.take_append_drop, ← whole, takeWhile_written written]

/-! ## Heads -/

/-- The bytes of a head, and that they are read as the head of an opcode with operands of the given
kinds. -/
structure HeadReads (values : List Int) (group : OpcodeGroup) (number : Nat)
    (kinds : List OperandKind) (version : Int) : Prop where
  bytes : ∀ value ∈ values, IsByte value
  reads : ∀ (image : Image) (address : Int), image.Carries address (values.map Byte.ofInt) →
    ∃ form, InstructionHead.read image address version =
      .ok { form, group, number, kinds, next := address + values.length }

/-- The bits of a number below a power of two are added to bits from there on. -/
theorem withBits_eq {number i : Nat} (small : number < 2 ^ i) (high : Nat) :
    withBits (2 ^ i * high) number = (2 ^ i * high + number : Nat) := by
  unfold withBits
  rw [if_neg (Int.not_lt.mpr (Int.natCast_nonneg number)), Int.toNat_natCast,
    Nat.two_pow_add_eq_or_of_lt small]

variable {number : Nat} {version : Int} {kinds : List OperandKind}

/-- A head without operands is read back. -/
theorem headReads_zeroOperands (small : number < 16) (plain : number ≠ 14) :
    HeadReads [withBits 0xb0 number] .zeroOperands number [] version := by
  have first : withBits 0xb0 number = ((0xb0 + number : Nat) : Int) :=
    withBits_eq (i := 4) small 0xb
  have byte : IsByte (withBits 0xb0 number) := by
    rw [first]
    unfold IsByte
    omega
  refine ⟨by simpa using byte, fun image address carried => ⟨.short, ?_⟩⟩
  obtain ⟨read, -⟩ := byte_of_carries byte carried
  rw [first, Int.toNat_natCast] at read
  have kind : OperandKind.ofBits ((0xb0 + number) / 16 % 4) = .omitted := by
    rw [show (0xb0 + number) / 16 % 4 = 3 by omega]
    rfl
  have low : (0xb0 + number) % 16 = number := by omega
  rw [InstructionHead.read, read, Result.ok_bind]
  simp only
  rw [if_neg (by omega), if_neg (by omega), if_pos (by omega), kind, low]
  rfl

/-- A head with one operand is read back. -/
theorem headReads_oneOperand (small : number < 16) {kind : OperandKind}
    (written : kind ≠ .omitted) :
    HeadReads [withBits (0x80 ||| kind.toBits * 16) number] .oneOperand number [kind] version := by
  obtain ⟨field, named⟩ : ∃ field, kind.toBits = field := ⟨_, rfl⟩
  have few : field < 3 := by
    rw [← named]
    cases kind with
    | omitted => exact absurd rfl written
    | _ => decide
  have fixed : 0x80 ||| kind.toBits * 16 = 2 ^ 4 * (8 + field) := by
    rw [← named]
    cases kind <;> rfl
  have first : withBits (0x80 ||| kind.toBits * 16) number =
      ((0x80 + field * 16 + number : Nat) : Int) := by
    rw [fixed, withBits_eq small]
    congr 2
    omega
  have byte : IsByte (withBits (0x80 ||| kind.toBits * 16) number) := by
    rw [first]
    unfold IsByte
    omega
  refine ⟨by simpa using byte, fun image address carried => ⟨.short, ?_⟩⟩
  obtain ⟨read, -⟩ := byte_of_carries byte carried
  rw [first, Int.toNat_natCast] at read
  have read' : OperandKind.ofBits ((0x80 + field * 16 + number) / 16 % 4) = kind := by
    rw [show (0x80 + field * 16 + number) / 16 % 4 = field by omega, ← named,
      OperandKind.ofBits_toBits]
  have low : (0x80 + field * 16 + number) % 16 = number := by omega
  rw [InstructionHead.read, read, Result.ok_bind]
  simp only
  rw [if_neg (by omega), if_neg (by omega), if_pos (by omega), read', low, if_neg written,
    if_neg written]
  rfl

/-- The bit of an operand in the long form, and the kind that it is read as. -/
theorem longBit_eq {kind : OperandKind} (written : kind = .small ∨ kind = .variable)
    (weight : Nat) :
    ∃ bit < 2, (if kind = .variable then weight else 0) = bit * weight ∧
      (if bit = 1 then OperandKind.variable else .small) = kind := by
  rcases written with rfl | rfl
  · exact ⟨0, by decide, by simp, rfl⟩
  · exact ⟨1, by decide, by simp, rfl⟩

/-- An operand of one byte is a small constant or a variable. -/
theorem small_or_variable {kind : OperandKind} (short : kind ≠ .large)
    (written : kind ≠ .omitted) : kind = .small ∨ kind = .variable := by
  cases kind with
  | large => exact absurd rfl short
  | small => exact .inl rfl
  | «variable» => exact .inr rfl
  | omitted => exact absurd rfl written

/-- Two operands of which none is a large constant are written in the long form. -/
theorem headReads_long (small : number < 32) {first second : OperandKind}
    (one : first = .small ∨ first = .variable) (two : second = .small ∨ second = .variable) :
    HeadReads [withBits ((if first = .variable then 0x40 else 0) +
      if second = .variable then 0x20 else 0) number] .twoOperands number [first, second]
      version := by
  obtain ⟨high, few, fixed, named⟩ := longBit_eq one 0x40
  obtain ⟨low, few', fixed', named'⟩ := longBit_eq two 0x20
  have whole : withBits ((if first = .variable then 0x40 else 0) +
      if second = .variable then 0x20 else 0) number =
      ((high * 64 + low * 32 + number : Nat) : Int) := by
    have bits := withBits_eq (i := 5) small (high * 2 + low)
    rw [fixed, fixed', show high * 64 + low * 32 = 2 ^ 5 * (high * 2 + low) by omega, bits]
  have byte : IsByte ((high * 64 + low * 32 + number : Nat) : Int) := by
    unfold IsByte
    omega
  rw [whole]
  refine ⟨by simpa using byte, fun image address carried => ⟨.long, ?_⟩⟩
  obtain ⟨read, -⟩ := byte_of_carries byte carried
  rw [Int.toNat_natCast] at read
  have fields : (high * 64 + low * 32 + number) / 64 % 2 = high ∧
      (high * 64 + low * 32 + number) / 32 % 2 = low ∧
      (high * 64 + low * 32 + number) % 32 = number := by
    omega
  rw [InstructionHead.read, read, Result.ok_bind]
  simp only
  rw [if_neg (by omega), if_neg (by omega), if_neg (by omega), fields.1, fields.2.1, fields.2.2,
    named, named']
  rfl

/-- The bytes that an image carries are read as a run. -/
theorem byteRun_of_carries {values : List Int} (all : ∀ value ∈ values, IsByte value)
    (carried : image.Carries address (values.map Byte.ofInt)) :
    image.byteRun address values.length = .ok (values.map Int.toNat) := by
  induction values generalizing address with
  | nil => rfl
  | cons value rest ih =>
      obtain ⟨first, others⟩ := List.forall_mem_cons.mp all
      obtain ⟨read, later⟩ := byte_of_carries first carried
      rw [List.length_cons, Image.byteRun, read, Result.ok_bind, ih others later]
      rfl

private theorem withTypes_of_carries (form : InstructionForm) (group : OpcodeGroup) (number : Nat)
    {typed : List Int} (all : ∀ value ∈ typed, IsByte value)
    (count : typed.length = if InstructionHead.hasTwoTypeBytes group number then 2 else 1)
    (carried : image.Carries address (typed.map Byte.ofInt)) :
    InstructionHead.withTypes image form group number address =
      .ok { form, group, number, kinds := InstructionHead.kindsOfBytes (typed.map Int.toNat),
            next := address + typed.length } := by
  rw [InstructionHead.withTypes, ← count, byteRun_of_carries all carried]
  rfl

/-- In the variable form the opcode byte tells the group. -/
theorem headReads_variable {group : OpcodeGroup} {fixed : Nat}
    (grouped : group = .twoOperands ∧ fixed = 0xc0 ∨ group = .variable ∧ fixed = 0xe0)
    (small : number < 32) {typed : List Int} (all : ∀ value ∈ typed, IsByte value)
    (count : typed.length = if InstructionHead.hasTwoTypeBytes group number then 2 else 1) :
    HeadReads (withBits fixed number :: typed) group number
      (InstructionHead.kindsOfBytes (typed.map Int.toNat)) version := by
  have high : withBits fixed number = ((fixed + number : Nat) : Int) := by
    rcases grouped with ⟨-, rfl⟩ | ⟨-, rfl⟩
    · exact withBits_eq (i := 5) small 6
    · exact withBits_eq (i := 5) small 7
  have range : 0xc0 ≤ fixed ∧ fixed ≤ 0xe0 := by omega
  have byte : IsByte (withBits fixed number) := by
    rw [high]
    unfold IsByte
    omega
  refine ⟨List.forall_mem_cons.mpr ⟨byte, all⟩, fun image address carried => ⟨.variable, ?_⟩⟩
  obtain ⟨read, later⟩ := byte_of_carries byte carried
  rw [high, Int.toNat_natCast] at read
  have told : (if (fixed + number) / 32 % 2 = 1 then OpcodeGroup.variable else .twoOperands) =
      group := by
    rcases grouped with ⟨rfl, rfl⟩ | ⟨rfl, rfl⟩
    · exact if_neg (by omega)
    · exact if_pos (by omega)
  have low : (fixed + number) % 32 = number := by omega
  rw [InstructionHead.read, read, Result.ok_bind]
  simp only
  rw [if_neg (by omega), if_pos (by omega), told, low,
    withTypes_of_carries .variable group number all count later, List.length_cons]
  congr 2
  omega

/-- The variable form with one types byte. -/
theorem headReads_types {group : OpcodeGroup} {fixed : Nat}
    (grouped : group = .twoOperands ∧ fixed = 0xc0 ∨ group = .variable ∧ fixed = 0xe0)
    (small : number < 32) (single : InstructionHead.hasTwoTypeBytes group number = false)
    (few : kinds.length ≤ 4) (written : ∀ kind ∈ kinds, kind ≠ .omitted) :
    HeadReads (withBits fixed number :: types kinds) group number kinds version := by
  obtain ⟨byte, typed, bound, read⟩ := kindsOfBytes_types few written
  have count : [byte].length = if InstructionHead.hasTwoTypeBytes group number then 2 else 1 := by
    rw [single]
    rfl
  rw [typed, ← read]
  exact headReads_variable grouped small (List.forall_mem_singleton.mpr bound) count

/-- An extended head is read back from version five on. -/
theorem headReads_extended (late : 5 ≤ version) (small : number < 256) (few : kinds.length ≤ 4)
    (written : ∀ kind ∈ kinds, kind ≠ .omitted) :
    HeadReads (0xbe :: number :: types kinds) .extended number kinds version := by
  obtain ⟨typed, one, byte, kinds_eq⟩ := kindsOfBytes_types few written
  have mark : IsByte 0xbe := by
    unfold IsByte
    decide
  have numbered : IsByte number := by
    unfold IsByte
    omega
  rw [one]
  refine ⟨by simpa using ⟨mark, numbered, byte⟩, fun image address carried => ⟨.extended, ?_⟩⟩
  obtain ⟨read, carried⟩ := byte_of_carries mark carried
  obtain ⟨read', carried⟩ := byte_of_carries numbered carried
  rw [InstructionHead.read, read, Result.ok_bind]
  simp only
  rw [if_pos ⟨rfl, late⟩, read', Result.ok_bind, Int.toNat_natCast,
    show address + 2 = address + 1 + 1 by omega,
    withTypes_of_carries .extended .extended number (List.forall_mem_singleton.mpr byte) rfl
      carried,
    List.map_singleton, kinds_eq]
  congr 2
  simp only [List.length_cons, List.length_nil]
  omega

end Assembly

end StoryMachine
