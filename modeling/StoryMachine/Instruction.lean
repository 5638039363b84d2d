import StoryMachine.Codec.Decoder
import StoryMachine.Instruction.Opcode

/-!
# Instructions

A decoded instruction: its opcode, its operands as they stand in memory, and
what follows them. Variables are not read until the instruction is executed,
because reading the stack takes its top off.
-/

namespace StoryMachine

/-- How an operand is written. -/
inductive OperandKind where
  | large
  | small
  | variable
  | omitted
deriving DecidableEq, Repr, Inhabited

namespace OperandKind

/-- The kind of a two-bit field. -/
def ofBits : Nat → OperandKind
  | 0 => large
  | 1 => small
  | 2 => .variable
  | _ => omitted

/-- The two-bit field of a kind. -/
def toBits : OperandKind → Nat
  | large => 0
  | small => 1
  | .variable => 2
  | omitted => 3

/-- A kind of operand is read back from its bits. -/
theorem ofBits_toBits (kind : OperandKind) : ofBits kind.toBits = kind := by
  cases kind <;> rfl

end OperandKind

/-- An operand: a constant, or the number of a variable. -/
structure Operand where
  kind : OperandKind
  value : Int
deriving DecidableEq, Repr, Inhabited

/-- How the opcode of an instruction is written. -/
inductive InstructionForm where
  | long
  | extended
  | short
  | variable
deriving DecidableEq, Repr

/-- Where an instruction branches to, and on which outcome. Offsets zero and one return that value
from the routine. -/
structure BranchTarget where
  offset : Int
  ifTrue : Bool
deriving DecidableEq, Repr, Inhabited

/-- A decoded instruction. -/
structure Instruction where
  address : Int
  form : InstructionForm
  opcode : Opcode
  operands : List Operand
  text : Option Text := none
  storeTo : Option Int := none
  branch : Option BranchTarget := none
  /-- Where the store byte or the branch stands; a saved game resumes there. -/
  resultAddress : Int
  nextAddress : Int
deriving DecidableEq, Repr

namespace Instruction

/-- The name of an instruction's opcode. -/
def name (instruction : Instruction) : String :=
  instruction.opcode.name

/-- The written form of an operand: variables are marked, the stack most of all. -/
def operandText (operand : Operand) : String :=
  match operand.kind with
  | .variable => if operand.value = 0 then " sp" else s!" var{operand.value}"
  | _ => s!" {operand.value}"

/-- The quoted text of an instruction, without the single quotes around it. -/
def textText (text : Text) : String :=
  let bare := (Quoted.ofText text).toList.dropWhile (· == Char.ofNat 0x27)
  s!" ({String.ofList (bare.reverse.dropWhile (· == Char.ofNat 0x27)).reverse})"

/-- The written form of a branch. -/
def branchText (nextAddress : Int) (branch : BranchTarget) : String :=
  let inverted := if branch.ifTrue then "" else "!"
  let target :=
    if branch.offset = 0 then "rfalse"
    else if branch.offset = 1 then "rtrue"
    else Numeral.hexWidth 4 (nextAddress + branch.offset - 2)
  s!" ?{inverted}{target}"

/-- The written form of an instruction. -/
def describe (instruction : Instruction) : String :=
  let text :=
    match instruction.text with
    | some (c :: rest) => textText (c :: rest)
    | _ => ""
  let store := (instruction.storeTo.map fun target => s!" -> {target}").getD ""
  let branch := (instruction.branch.map (branchText instruction.nextAddress)).getD ""
  s!"{instruction.opcode.group.label}:{instruction.name}" ++
    String.join (instruction.operands.map operandText) ++ text ++ store ++ branch

end Instruction

end StoryMachine
