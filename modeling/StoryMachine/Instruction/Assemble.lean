import StoryMachine.Instruction

/-!
# Assembling instructions

The bytes of an instruction, in the shortest form that its operands allow. A
number that does not fit its byte is refused.
-/

namespace StoryMachine

/-- An instruction to be assembled. -/
structure Assembly where
  group : OpcodeGroup
  number : Int
  operands : List Operand := []
  storeTo : Option Int := none
  branch : Option BranchTarget := none
deriving DecidableEq, Repr

namespace Assembly

/-- The bits of a number added to fixed bits; a negative number stays one. -/
def withBits (fixed : Nat) (number : Int) : Int :=
  if number < 0 then number else ((fixed ||| number.toNat : Nat) : Int)

/-- Types bytes for operand kinds, four to a byte; missing kinds count as omitted. -/
def typeBytes : List OperandKind → List Int
  | [] => []
  | [a] => [byteOf a .omitted .omitted .omitted]
  | [a, b] => [byteOf a b .omitted .omitted]
  | [a, b, c] => [byteOf a b c .omitted]
  | a :: b :: c :: d :: rest => byteOf a b c d :: typeBytes rest
where
  byteOf (a b c d : OperandKind) : Int :=
    (a.toBits * 64 + b.toBits * 16 + c.toBits * 4 + d.toBits : Nat)

/-- Types bytes, of which there is at least one. -/
def types (kinds : List OperandKind) : List Int :=
  if kinds.isEmpty then [0xff] else typeBytes kinds

/-- The opcode and the types of an instruction. -/
def head (assembly : Assembly) : Result (List Int) :=
  let kinds := assembly.operands.map Operand.kind
  match assembly.group with
  | .zeroOperands => .ok [withBits 0xb0 assembly.number]
  | .oneOperand =>
      match kinds with
      | [] => .refuse .indexOutOfRange
      | kind :: _ => .ok [withBits (0x80 ||| kind.toBits * 16) assembly.number]
  | .twoOperands =>
      match kinds with
      | [first, second] =>
          if first = .large ∨ second = .large then
            .ok (withBits 0xc0 assembly.number :: types kinds)
          else
            let bits := (if first = .variable then 0x40 else 0) +
              if second = .variable then 0x20 else 0
            .ok [withBits bits assembly.number]
      | _ => .ok (withBits 0xc0 assembly.number :: types kinds)
  | .variable =>
      if assembly.number = 12 ∨ assembly.number = 26 then
        let padded := kinds ++ List.replicate (8 - kinds.length) .omitted
        .ok (withBits 0xe0 assembly.number :: (types (padded.take 4) ++
          types ((padded.drop 4).take 4)))
      else .ok (withBits 0xe0 assembly.number :: types kinds)
  | .extended => .ok (0xbe :: assembly.number :: types kinds)

/-- The bytes of an operand. -/
def operandBytes (operand : Operand) : List Int :=
  match operand.kind with
  | .large => [Word.high (Word.ofInt operand.value), Word.low (Word.ofInt operand.value)]
  | .omitted => []
  | _ => [operand.value % 256]

/-- The bytes of a branch: one for an offset below 64, else two. -/
def branchBytes (branch : BranchTarget) : List Int :=
  let flag : Int := if branch.ifTrue then 0x80 else 0
  if 0 ≤ branch.offset ∧ branch.offset < 64 then [flag + 0x40 + branch.offset]
  else
    let raw := branch.offset % 0x4000
    [flag + raw / 256, raw % 256]

/-- Numbers as bytes, if all of them are. -/
def toBytes : List Int → Result (List UInt8)
  | [] => .ok []
  | value :: rest => do
      let rest ← toBytes rest
      if 0 ≤ value ∧ value < 256 then return Byte.ofInt value :: rest
      else .refuse .valueOutOfRange

/-- The bytes of an instruction. -/
def assemble (assembly : Assembly) : Result (List UInt8) := do
  let head ← assembly.head
  toBytes (head ++ assembly.operands.flatMap operandBytes ++ assembly.storeTo.toList ++
    (assembly.branch.map branchBytes).getD [])

end Assembly

end StoryMachine
