import StoryMachine.Instruction.Group

/-!
# Opcodes

The instruction set as a list of opcodes: where each is numbered, in which
versions, what follows it in memory, how its operands are read and what it does.
The decoder and the machine consult the same list.
-/

namespace StoryMachine

/-- What an instruction does. -/
inductive Operation where
  | returnTrue
  | returnFalse
  | print
  | printReturn
  | nop
  | save
  | restore
  | restart
  | returnPopped
  | pop
  | catchFrame
  | quit
  | newLine
  | showStatus
  | verify
  | piracy
  | jumpZero
  | getSibling
  | getChild
  | getParent
  | getPropertyLength
  | increment
  | decrement
  | printAddress
  | call
  | removeObject
  | printObject
  | returnValue
  | jump
  | printPackedAddress
  | loadVariable
  | bitNot
  | callDropping
  | jumpEqual
  | jumpLess
  | jumpGreater
  | decrementCheck
  | incrementCheck
  | jumpInside
  | bitTest
  | bitOr
  | bitAnd
  | testAttribute
  | setAttribute
  | clearAttribute
  | storeVariable
  | insertObject
  | loadWord
  | loadByte
  | getProperty
  | getPropertyAddress
  | getNextProperty
  | add
  | subtract
  | multiply
  | divide
  | remainder
  | setColour
  | throwTo
  | storeWord
  | storeByte
  | putProperty
  | readLine
  | printChar
  | printNumber
  | random
  | push
  | pull
  | splitWindow
  | setWindow
  | eraseWindow
  | eraseLine
  | setCursor
  | getCursor
  | setTextStyle
  | bufferMode
  | outputStream
  | inputStream
  | soundEffect
  | readChar
  | scanTable
  | tokenise
  | encodeText
  | copyTable
  | printTable
  | checkArgumentCount
  | logicalShift
  | arithmeticShift
  | setFont
  | saveUndo
  | restoreUndo
  | printUnicode
  | checkUnicode
  | setTrueColour
deriving DecidableEq, Repr

/-- How the value of an operand is read. -/
inductive Sense where
  | unsigned
  | signed
deriving DecidableEq, Repr

/-- An opcode of the instruction set. -/
structure Opcode where
  group : OpcodeGroup
  number : Nat
  name : String
  operation : Operation
  stores : Bool := false
  branches : Bool := false
  hasText : Bool := false
  senses : List Sense := []
  /-- The fewest operands that it takes. -/
  least : Nat := senses.length
  firstVersion : Int := 1
  lastVersion : Option Int := none
deriving DecidableEq, Repr

namespace Opcode

/-- Whether a version has the opcode. -/
def isIn (opcode : Opcode) (version : Int) : Bool :=
  opcode.firstVersion ≤ version && opcode.lastVersion.all (version ≤ ·)

/-- How an operand is read; operands beyond the listed ones are unsigned. -/
def sense (opcode : Opcode) (index : Nat) : Sense :=
  opcode.senses.getD index .unsigned

/-! ## The instruction set

An entry of a list gives the number of an opcode in its group, its name, what it does and how its
operands are read (`u` and `s` for unsigned and signed). What follows it in memory and the versions
that have it are added behind. -/

/-- An opcode that every version has and that nothing follows. -/
def entry (number : Nat) (name : String) (operation : Operation) (senses : List Sense) : Opcode :=
  { group := .zeroOperands, number, name, operation, senses }

/-- The opcode stores a result. -/
def storing (opcode : Opcode) : Opcode :=
  { opcode with stores := true }

/-- The opcode branches. -/
def branching (opcode : Opcode) : Opcode :=
  { opcode with branches := true }

/-- A string follows the opcode. -/
def withText (opcode : Opcode) : Opcode :=
  { opcode with hasText := true }

/-- The opcode can do with fewer operands than it can read. -/
def atLeast (opcode : Opcode) (least : Nat) : Opcode :=
  { opcode with least }

/-- Earlier versions lack the opcode. -/
def since (opcode : Opcode) (firstVersion : Int) : Opcode :=
  { opcode with firstVersion }

/-- Later versions lack the opcode or use its number for another. -/
def upTo (opcode : Opcode) (lastVersion : Int) : Opcode :=
  { opcode with lastVersion := some lastVersion }

/-- The opcodes without operands. -/
def withoutOperands : List Opcode :=
  [(entry 0 "rtrue" .returnTrue []),
   (entry 1 "rfalse" .returnFalse []),
   (entry 2 "print" .print []).withText,
   (entry 3 "print_ret" .printReturn []).withText,
   (entry 4 "nop" .nop []),
   (entry 5 "save" .save []).branching.upTo 3,
   ((entry 5 "save" .save []).storing.since 4).upTo 8,
   (entry 6 "restore" .restore []).branching.upTo 3,
   ((entry 6 "restore" .restore []).storing.since 4).upTo 8,
   (entry 7 "restart" .restart []),
   (entry 8 "ret_popped" .returnPopped []),
   (entry 9 "pop" .pop []).upTo 4,
   ((entry 9 "catch" .catchFrame []).storing.since 5).upTo 8,
   (entry 10 "quit" .quit []),
   (entry 11 "new_line" .newLine []),
   (entry 12 "show_status" .showStatus []),
   (entry 13 "verify" .verify []).branching,
   (entry 15 "piracy" .piracy []).branching.since 5]

/-- The opcodes with one operand. -/
def withOneOperand : List Opcode :=
  let u := Sense.unsigned
  let s := Sense.signed
  [(entry 0 "jz" .jumpZero [u]).branching,
   (entry 1 "get_sibling" .getSibling [u]).storing.branching,
   (entry 2 "get_child" .getChild [u]).storing.branching,
   (entry 3 "get_parent" .getParent [u]).storing,
   (entry 4 "get_prop_len" .getPropertyLength [u]).storing,
   (entry 5 "inc" .increment [u]),
   (entry 6 "dec" .decrement [u]),
   (entry 7 "print_addr" .printAddress [u]),
   (entry 8 "call_1s" .call [u]).storing.since 4,
   (entry 9 "remove_obj" .removeObject [u]),
   (entry 10 "print_obj" .printObject [u]),
   (entry 11 "ret" .returnValue [u]),
   (entry 12 "jump" .jump [s]),
   (entry 13 "print_paddr" .printPackedAddress [u]),
   (entry 14 "load" .loadVariable [u]).storing,
   (entry 15 "not" .bitNot [u]).storing.upTo 4,
   ((entry 15 "call_1n" .callDropping [u]).since 5).upTo 8]

/-- The opcodes with two operands. -/
def withTwoOperands : List Opcode :=
  let u := Sense.unsigned
  let s := Sense.signed
  [(entry 1 "je" .jumpEqual [s, s, s, s]).branching.atLeast 1,
   (entry 2 "jl" .jumpLess [s, s]).branching,
   (entry 3 "jg" .jumpGreater [s, s]).branching,
   (entry 4 "dec_chk" .decrementCheck [u, s]).branching,
   (entry 5 "inc_chk" .incrementCheck [u, s]).branching,
   (entry 6 "jin" .jumpInside [u, u]).branching,
   (entry 7 "test" .bitTest [u, u]).branching,
   (entry 8 "or" .bitOr [u, u]).storing,
   (entry 9 "and" .bitAnd [u, u]).storing,
   (entry 10 "test_attr" .testAttribute [u, u]).branching,
   (entry 11 "set_attr" .setAttribute [u, u]),
   (entry 12 "clear_attr" .clearAttribute [u, u]),
   (entry 13 "store" .storeVariable [u, u]),
   (entry 14 "insert_obj" .insertObject [u, u]),
   (entry 15 "loadw" .loadWord [u, u]).storing,
   (entry 16 "loadb" .loadByte [u, u]).storing,
   (entry 17 "get_prop" .getProperty [u, u]).storing,
   (entry 18 "get_prop_addr" .getPropertyAddress [u, u]).storing,
   (entry 19 "get_next_prop" .getNextProperty [u, u]).storing,
   (entry 20 "add" .add [s, s]).storing,
   (entry 21 "sub" .subtract [s, s]).storing,
   (entry 22 "mul" .multiply [s, s]).storing,
   (entry 23 "div" .divide [s, s]).storing,
   (entry 24 "mod" .remainder [s, s]).storing,
   (entry 25 "call_2s" .call [u, u]).storing.since 4,
   (entry 26 "call_2n" .callDropping [u, u]).since 5,
   (entry 27 "set_colour" .setColour [u, u]).since 5,
   (entry 28 "throw" .throwTo [u, u]).since 5]

/-- The opcodes with a variable number of operands. -/
def withVariableOperands : List Opcode :=
  let u := Sense.unsigned
  let s := Sense.signed
  [(entry 0 "call" .call [u, u, u, u]).storing.atLeast 1,
   (entry 1 "storew" .storeWord [u, u, u]),
   (entry 2 "storeb" .storeByte [u, u, u]),
   (entry 3 "put_prop" .putProperty [u, u, u]),
   ((entry 4 "sread" .readLine [u, u, u, u]).atLeast 1).upTo 4,
   (((entry 4 "aread" .readLine [u, u, u, u]).storing.atLeast 1).since 5).upTo 8,
   (entry 5 "print_char" .printChar [u]),
   (entry 6 "print_num" .printNumber [s]),
   (entry 7 "random" .random [s]).storing,
   (entry 8 "push" .push [u]),
   (entry 9 "pull" .pull [u]),
   (entry 10 "split_window" .splitWindow [u]).since 3,
   (entry 11 "set_window" .setWindow [u]).since 3,
   ((entry 12 "call_vs2" .call [u, u, u, u, u, u, u, u]).storing.atLeast 1).since 4,
   (entry 13 "erase_window" .eraseWindow [s]).since 4,
   (entry 14 "erase_line" .eraseLine [u]).since 4,
   ((entry 15 "set_cursor" .setCursor [s, u, u]).atLeast 2).since 4,
   (entry 16 "get_cursor" .getCursor [u]).since 4,
   (entry 17 "set_text_style" .setTextStyle [u]).since 4,
   (entry 18 "buffer_mode" .bufferMode [u]).since 4,
   ((entry 19 "output_stream" .outputStream [s, u, u]).atLeast 1).since 3,
   (entry 20 "input_stream" .inputStream [u]).since 3,
   ((entry 21 "sound_effect" .soundEffect [u, u, u, u]).atLeast 0).since 3,
   ((entry 22 "read_char" .readChar [u, u, u]).storing.atLeast 1).since 4,
   ((entry 23 "scan_table" .scanTable [u, u, u, u]).storing.branching.atLeast 3).since 4,
   (entry 24 "not" .bitNot [u]).storing.since 5,
   ((entry 25 "call_vn" .callDropping [u, u, u, u]).atLeast 1).since 5,
   ((entry 26 "call_vn2" .callDropping [u, u, u, u, u, u, u, u]).atLeast 1).since 5,
   ((entry 27 "tokenise" .tokenise [u, u, u, u]).atLeast 2).since 5,
   (entry 28 "encode_text" .encodeText [u, u, u, u]).since 5,
   (entry 29 "copy_table" .copyTable [u, u, s]).since 5,
   ((entry 30 "print_table" .printTable [u, u, u, u]).atLeast 2).since 5,
   (entry 31 "check_arg_count" .checkArgumentCount [u]).branching.since 5]

/-- The opcodes of the extended set. -/
def extendedOnes : List Opcode :=
  let u := Sense.unsigned
  let s := Sense.signed
  [(entry 0 "save" .save [u, u, u]).storing.atLeast 0,
   (entry 1 "restore" .restore [u, u, u]).storing.atLeast 0,
   (entry 2 "log_shift" .logicalShift [u, s]).storing,
   (entry 3 "art_shift" .arithmeticShift [s, s]).storing,
   (entry 4 "set_font" .setFont [u]).storing,
   (entry 9 "save_undo" .saveUndo []).storing,
   (entry 10 "restore_undo" .restoreUndo []).storing,
   (entry 11 "print_unicode" .printUnicode [u]),
   (entry 12 "check_unicode" .checkUnicode [u]).storing,
   (entry 13 "set_true_colour" .setTrueColour [s, s, u]).atLeast 2]

/-- The instruction set. -/
def all : List Opcode :=
  [(OpcodeGroup.zeroOperands, withoutOperands), (.oneOperand, withOneOperand),
    (.twoOperands, withTwoOperands), (.variable, withVariableOperands),
    (.extended, extendedOnes)].flatMap
      fun (group, opcodes) => opcodes.map fun opcode => { opcode with group }

/-- The opcode of a number in a group, for a version. -/
def find? (group : OpcodeGroup) (number : Nat) (version : Int) : Option Opcode :=
  all.find? fun opcode => opcode.number = number && opcode.group = group && opcode.isIn version

end Opcode

end StoryMachine
