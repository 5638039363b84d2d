import StoryMachine.Instruction

/-!
# Decoding instructions

An instruction starts with an opcode in one of four forms, followed by the types
of its operands unless the form implies them, the operands, and, as its opcode
demands, a string, the variable that takes the result, and a branch.
-/

namespace StoryMachine

/-- The opcode of an instruction and the kinds of its operands, with the address after them. -/
structure InstructionHead where
  form : InstructionForm
  group : OpcodeGroup
  number : Nat
  kinds : List OperandKind
  next : Int
deriving DecidableEq, Repr

namespace InstructionHead

/-- The four operand kinds of a types byte. -/
def kindsOfByte (byte : Nat) : List OperandKind :=
  [byte / 64, byte / 16 % 4, byte / 4 % 4, byte % 4].map OperandKind.ofBits

/-- The operand kinds of types bytes, up to the first that is omitted. -/
def kindsOfBytes (bytes : List Nat) : List OperandKind :=
  (bytes.flatMap kindsOfByte).takeWhile (· != .omitted)

/-- Whether an opcode has two types bytes. -/
def hasTwoTypeBytes (group : OpcodeGroup) (number : Nat) : Bool :=
  group = .variable && (number = 12 || number = 26)

/-- A head whose operand kinds stand in types bytes at an address. -/
def withTypes (image : Image) (form : InstructionForm) (group : OpcodeGroup) (number : Nat)
    (address : Int) : Result InstructionHead := do
  let count := if hasTwoTypeBytes group number then 2 else 1
  let bytes ← image.byteRun address count
  return { form, group, number, kinds := kindsOfBytes bytes, next := address + count }

/-- The head of the instruction at an address. -/
def read (image : Image) (address version : Int) : Result InstructionHead := do
  let first ← image.byte address
  if first = 0xbe ∧ 5 ≤ version then
    let number ← image.byte (address + 1)
    withTypes image .extended .extended number (address + 2)
  else if 0xc0 ≤ first then
    let group := if first / 32 % 2 = 1 then .variable else .twoOperands
    withTypes image .variable group (first % 32) (address + 1)
  else if 0x80 ≤ first then
    let kind := OperandKind.ofBits (first / 16 % 4)
    return {
      form := .short
      group := if kind = .omitted then .zeroOperands else .oneOperand
      number := first % 16
      kinds := if kind = .omitted then [] else [kind]
      next := address + 1 }
  else
    let kindOf (bit : Nat) : OperandKind := if bit = 1 then .variable else .small
    return {
      form := .long
      group := .twoOperands
      number := first % 32
      kinds := [kindOf (first / 64 % 2), kindOf (first / 32 % 2)]
      next := address + 1 }

end InstructionHead

namespace Instruction

/-- The operands of the given kinds at an address, and the address after them. -/
def readOperands (image : Image) : List OperandKind → Int → Result (List Operand × Int)
  | [], address => .ok ([], address)
  | kind :: kinds, address => do
      let value ← if kind = .large then image.word address else image.byte address
      let (rest, next) ← readOperands image kinds (address + if kind = .large then 2 else 1)
      return ({ kind, value } :: rest, next)

/-- The branch at an address, and the address after it. A short offset has six bits, a long one is
a signed number of fourteen. -/
def readBranch (image : Image) (address : Int) : Result (BranchTarget × Int) := do
  let first ← image.byte address
  let ifTrue := decide (0x80 ≤ first)
  if first / 64 % 2 = 1 then
    return ({ offset := (first % 64 : Nat), ifTrue }, address + 1)
  let second ← image.byte (address + 1)
  let raw : Int := (first % 64 * 256 + second : Nat)
  return ({ offset := if 0x2000 ≤ raw then raw - 0x4000 else raw, ifTrue }, address + 2)

/-- The string at an address, and the address after it. -/
def readText (codec : Codec) (tables : Option Image) (image : Image) (address : Int) :
    Result (Text × Int) := do
  let zchars ← image.zcharsToEnd address
  let text ← codec.decodeZchars tables zchars
  return (text, address + zchars.length / 3 * 2)

/-- The string that stands at an address if there is one, and the address after it. -/
def readTextIf (present : Bool) (codec : Codec) (tables : Option Image) (image : Image)
    (address : Int) : Result (Option Text × Int) :=
  if present then do
    let (text, next) ← readText codec tables image address
    return (some text, next)
  else .ok (none, address)

/-- The variable that takes the result, if there is one, and the address after it. -/
def readTargetIf (present : Bool) (image : Image) (address : Int) : Result (Option Int × Int) :=
  if present then do
    let target ← image.byte address
    return (some (target : Int), address + 1)
  else .ok (none, address)

/-- The branch that stands at an address if there is one, and the address after it. -/
def readBranchIf (present : Bool) (image : Image) (address : Int) :
    Result (Option BranchTarget × Int) :=
  if present then do
    let (branch, next) ← readBranch image address
    return (some branch, next)
  else .ok (none, address)

/-- The instruction at an address. The abbreviations in its string stand in the given tables. -/
def read (codec : Codec) (tables : Option Image) (image : Image) (address version : Int) :
    Result Instruction := do
  let head ← InstructionHead.read image address version
  match Opcode.find? head.group head.number version with
  | none =>
      throw (.fault
        { cause := .unknownOpcode head.group head.number address, pc := some address })
  | some opcode =>
      let (operands, operandsEnd) ← readOperands image head.kinds head.next
      let (text, resultAddress) ← readTextIf opcode.hasText codec tables image operandsEnd
      let (storeTo, branchAddress) ← readTargetIf opcode.stores image resultAddress
      let (branch, nextAddress) ← readBranchIf opcode.branches image branchAddress
      return {
        address, opcode, operands, text, storeTo, branch, resultAddress, nextAddress
        form := head.form }

end Instruction

end StoryMachine
