/-!
# Operand groups of opcodes

Opcodes are numbered within five groups: those that take no, one or two
operands, those with a variable number, and the extended ones.
-/

namespace StoryMachine

/-- The group within which an opcode is numbered. -/
inductive OpcodeGroup where
  | zeroOperands
  | oneOperand
  | twoOperands
  | variable
  | extended
deriving DecidableEq, Repr

namespace OpcodeGroup

/-- The written name of a group. -/
def label : OpcodeGroup → String
  | zeroOperands => "0OP"
  | oneOperand => "1OP"
  | twoOperands => "2OP"
  | .variable => "VAR"
  | extended => "EXT"

/-- Every group. -/
def all : List OpcodeGroup :=
  [zeroOperands, oneOperand, twoOperands, .variable, extended]

/-- The group with the given written name. -/
def ofLabel? (name : String) : Option OpcodeGroup :=
  all.find? (·.label == name)

end OpcodeGroup

end StoryMachine
