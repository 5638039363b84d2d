import StoryMachine.Instruction.Decode
import StoryMachine.Machine.Save
import StoryMachine.Machine.Start
import StoryMachine.ObjectTable.Property
import StoryMachine.ObjectTable.Tree

/-!
# Operations

What each operation does, given the values of its operands. An operation acts on
the machine and says how it goes on; storing a result, branching, calling and
returning are left to `Machine.settle`.
-/

namespace StoryMachine

/-- How the machine goes on after an operation. -/
inductive Next where
  /-- With the next instruction. -/
  | proceed
  /-- With the next instruction, after a result is stored. -/
  | store (value : Int)
  /-- With a branch, if its sense is that of the outcome. -/
  | branch (outcome : Bool)
  /-- With a stored result and a branch. -/
  | storeAndBranch (value : Int) (outcome : Bool)
  /-- With a routine. -/
  | call (address : Int) (storeTo : Option Int) (arguments : List Int)
  /-- With the caller. -/
  | return (value : Int)
  /-- At a distance from the next instruction. -/
  | jump (offset : Int)
  /-- Not at all: the game is over. -/
  | quit
  /-- From the start. -/
  | restart
  /-- When the player has answered. -/
  | read (token : Nat)
  /-- Where the operation has already put it. -/
  | moved
deriving DecidableEq, Repr

namespace Machine

/-! ## Calls -/

/-- A call of a packed address; address zero does nothing and gives false. -/
def performCall (instruction : Instruction) (dropResult : Bool) :
    List Int → Play Next
  | [] => Action.refuse .indexOutOfRange
  | packed :: arguments => do
      let storeTo := if dropResult then none else instruction.storeTo
      if packed = 0 then
        return if storeTo.isNone then .proceed else .store 0
      let address := (← get).story.version.unpackRoutine packed
      return .call address storeTo arguments

/-! ## Text -/

/-- Prints the string at an address. -/
def printAt (address : Int) : Play Unit := do
  let codec := (← get).story.codec
  let text ← ask (codec.decode · address)
  print text

/-- Prints a row of a table of ZSCII codes. -/
def printRow (address : Int) (width : Nat) : Play Unit := do
  let codes ← ask (·.byteRun address width)
  print ((← get).story.codec.zsciiTexts (codes.map Int.ofNat))

/-- Prints the rows of a table after the first, each on a line of its own. -/
def printRows (width skip : Int) : Nat → Int → Play Unit
  | 0, _ => pure ()
  | rows + 1, address => do
      newLine
      printRow address width.toNat
      printRows width skip rows (address + width + skip)

/-- Prints a table of ZSCII codes. -/
def printTable (address width height skip : Int) : Play Unit := do
  match height.toNat with
  | 0 => pure ()
  | rows + 1 =>
      printRow address width.toNat
      printRows width skip rows (address + width + skip)

/-- Encodes ZSCII codes for comparison with dictionary words. -/
def encodeText (address length target : Int) : Play Unit := do
  let codes ← ask (·.byteRun address length.toNat)
  let codec := (← get).story.codec
  let encoded ← codec.encrypt (codec.zsciiTexts (codes.map Int.ofNat))
  onMemory (Store.writeRun target (encoded.map fun byte => (byte.toNat : Int)))

/-- Splits the text in a buffer and fills a parse table. -/
def tokeniseBuffer (textBuffer parseBuffer dictionaryAddress : Int) (skipUnknown : Bool) :
    Play Unit := do
  let story := (← get).story
  let dictionary ←
    if dictionaryAddress = 0 then pure story.dictionary
    else ask fun image => Dictionary.load story.codec image dictionaryAddress
  let (codes, offset) ← ask (·.textBuffer textBuffer)
  let _ ← onMemory (dictionary.tokenise codes parseBuffer offset skipUnknown)

/-! ## Tables -/

/-- The address of the first field of a table with a value; fields are words or bytes. -/
def scan (image : Image) (value : Int) (words : Bool) (size : Int) :
    Nat → Int → Result (Option Int)
  | 0, _ => .ok none
  | count + 1, address => do
      let field ← if words then image.word address else image.byte address
      if (field : Int) = value then return some address
      scan image value words size count (address + size)

/-- Copies bytes one by one from the first on, whether or not the tables overlap. -/
def copyForwards (source target : Int) : Nat → GameMemory.Edit Unit
  | 0 => pure ()
  | count + 1 => do
      let byte ← (← get).byte source
      GameMemory.write target byte
      copyForwards (source + 1) (target + 1) count

/-- Copies a table, or fills it with zeros if there is no second one. A negative size asks for a
copy from the first byte on; otherwise the first table is kept as it was. -/
def copyTable (first second size : Int) : Play Unit := do
  if second = 0 then
    onMemory (Store.writeRun first (List.replicate size.natAbs 0))
  else if size < 0 then
    onMemory (copyForwards first second size.natAbs)
  else
    let bytes ← ask (·.byteRun first size.toNat)
    onMemory (Store.writeRun second (bytes.map Int.ofNat))

/-! ## Numbers -/

/-- Adds to a variable and gives its new signed value. -/
def changeVariable (number change : Int) : Play Int := do
  let value ← onWork (Workspace.getVariable number true)
  let changed := Word.signed (Word.signed value + change)
  onWork (Workspace.setVariable number changed true)
  return changed

/-- A shift: to the left for a positive number of places, else to the right. A fault for more than
fifteen places still stores a result. -/
def shift (instruction : Instruction) (number places beyond : Int) : Play Next := do
  if places < -15 ∨ 15 < places then
    match instruction.storeTo with
    | none => pure ()
    | some target => onWork (Workspace.setVariable target beyond)
    Action.fault (.shiftOutOfRange instruction.name places)
  if 0 ≤ places then return .store (number * Nat.pow 2 places.toNat % 65536)
  return .store (Int.fdiv number (Nat.pow 2 places.natAbs))

/-- Reseeds the random numbers. -/
def reseed (value : Int) : Play Unit := do
  note .debug "zmachine.rng" (Random.reseedNote value)
  modify fun machine => { machine with random := machine.random.reseed value }

/-- The bitwise combination of two unsigned numbers. -/
def bitwise (combine : Nat → Nat → Nat) (a b : Int) : Int :=
  combine a.toNat b.toNat

/-! ## Sound -/

/-- Records an order to the sound device. -/
def orderSound (call : SoundCall) : Play Unit :=
  modify fun machine => { machine with sound := machine.sound.map (·.order call) }

/-- Plays a sound. Its repeats are those asked for, else those of the resource file. -/
def playSound (number volume routine : Int) : Play Unit := do
  let machine ← get
  let asked := Int.fdiv volume 256
  let listed : Int :=
    match machine.file.resources with
    | some resources => ((resources.repeats? number).map Int.ofNat).getD 1
    | none => 1
  let repeats := if asked = 0 then listed else asked
  match machine.sound with
  | none => pure ()
  | some device =>
      let (token, device) :=
        device.play number (if repeats = 0 then 1 else repeats) (volume % 256)
      modify fun machine => { machine with sound := some device }
      match token with
      | none => pure ()
      | some token =>
          if routine ≠ 0 then
            modify fun machine =>
              { machine with soundRoutines := machine.soundRoutines ++ [(token, routine)] }

/-- Bleeps, or prepares, starts, stops or unloads a sound. -/
def soundEffect (number effect volume routine : Int) : Play Unit :=
  if number = 1 ∨ number = 2 then orderSound (.bleep number)
  else if effect = 1 then orderSound (.prepare number)
  else if effect = 2 then playSound number volume routine
  else if effect = 3 then orderSound (.stop number)
  else if effect = 4 then orderSound (.unload number)
  else pure ()

/-! ## All operations -/

/-- Performs an operation with the values of its operands. -/
def perform (instruction : Instruction) (values : List Int) : Play Next := do
  let a := values.getD 0 0
  let b := values.getD 1 0
  let c := values.getD 2 0
  let d := values.getD 3 0
  let story := (← get).story
  let exactlyTwo : Play Unit :=
    if values.length = 2 then pure () else Action.refuse .valueOutOfRange
  let divisor : Play Unit := do
    if b = 0 then Action.fault (.divisionByZero instruction.name a)
    exactlyTwo
  match instruction.opcode.operation with
  -- text
  | .newLine => newLine; return .proceed
  | .print => print (instruction.text.getD []); return .proceed
  | .printReturn =>
      print (instruction.text.getD [])
      newLine
      return .return 1
  | .printPackedAddress => printAt (story.version.unpackString a); return .proceed
  | .printAddress => printAt a; return .proceed
  | .printNumber => print (Text.ofString (toString a)); return .proceed
  | .printChar => print (story.codec.zsciiText a); return .proceed
  | .printUnicode => print [a.toNat]; return .proceed
  | .checkUnicode => return .store (if 0xd800 ≤ a ∧ a ≤ 0xdfff then 0 else 3)
  | .printObject =>
      print (← ask (story.objectName · a))
      return .proceed
  | .printTable => printTable a b (values.getD 2 1) d; return .proceed
  | .tokenise => tokeniseBuffer a b c (d ≠ 0); return .proceed
  | .encodeText => encodeText (a + c) b d; return .proceed
  -- input
  | .readLine => return .read (← beginLine instruction a b c d)
  | .readChar => return .read (← beginKey instruction b c)
  | .inputStream =>
      modify fun machine => { machine with input := machine.input.select a }
      return .proceed
  -- the screen and the output streams
  | .splitWindow => onScreen fun screen => { screen with upperLines := a }; return .proceed
  | .setWindow => onScreen (·.setWindow a); return .proceed
  | .eraseWindow => onScreen (·.eraseWindow a); return .proceed
  | .eraseLine => return .proceed
  | .setCursor => onScreen fun screen => { screen with cursor := (a, b) }; return .proceed
  | .getCursor =>
      let (row, column) := (← get).screen.cursor
      onMemory (GameMemory.writeWord a row)
      onMemory (GameMemory.writeWord (a + 2) column)
      return .proceed
  | .setTextStyle => onScreen (·.setStyle a.toNat); return .proceed
  | .bufferMode => onScreen fun screen => { screen with buffered := a ≠ 0 }; return .proceed
  | .setColour => onScreen fun screen => { screen with colours := (a, b) }; return .proceed
  | .setTrueColour => return .proceed
  | .setFont =>
      let (previous, screen) := (← get).screen.setFont a
      onScreen fun _ => screen
      return .store previous
  | .outputStream =>
      if 0 < a then selectOutput a b
      else if a < 0 then deselectOutput (-a)
      return .proceed
  | .soundEffect =>
      soundEffect (values.getD 0 1) (values.getD 1 2) (values.getD 2 0xff) d
      return .proceed
  | .showStatus =>
      if story.version.isEarly then showStatus
      return .proceed
  -- calls, returns and jumps
  | .call => performCall instruction false values
  | .callDropping => performCall instruction true values
  | .returnValue => return .return a
  | .returnPopped => return .return (← onWork Workspace.pop)
  | .returnTrue => return .return 1
  | .returnFalse => return .return 0
  | .jump => return .jump a
  | .jumpEqual => return .branch ((values.drop 1).contains a)
  | .jumpLess => return .branch (a < b)
  | .jumpGreater => return .branch (a > b)
  | .jumpZero => return .branch (a = 0)
  | .incrementCheck => return .branch ((← changeVariable a 1) > b)
  | .decrementCheck => return .branch ((← changeVariable a (-1)) < b)
  | .checkArgumentCount => return .branch (a ≤ (← get).work.calls.current.argumentCount)
  | .catchFrame => return .store (← get).work.calls.depth
  | .throwTo =>
      onWork (Workspace.unwind b)
      return .return a
  | .piracy => return .branch true
  | .verify => return .branch (← verify)
  -- variables and memory
  | .storeVariable => onWork (Workspace.setVariable a b true); return .proceed
  | .loadVariable => return .store (← onWork (Workspace.getVariable a true))
  | .storeWord =>
      onMemory (GameMemory.writeWord ((a + 2 * b) % 65536) c)
      return .proceed
  | .storeByte =>
      onMemory (GameMemory.write ((a + b) % 65536) c)
      return .proceed
  | .loadWord =>
      exactlyTwo
      return .store (← ask (·.word ((a + 2 * b) % 65536)))
  | .loadByte =>
      exactlyTwo
      return .store (← ask (·.byte ((a + b) % 65536)))
  | .push => onWork (Workspace.push a); return .proceed
  | .pull =>
      let value ← onWork Workspace.pop
      onWork (Workspace.setVariable a value true)
      return .proceed
  | .pop =>
      let _ ← onWork Workspace.pop
      return .proceed
  | .scanTable =>
      let form := (values.getD 3 0x82).toNat
      if form % 128 = 0 then Action.fault .emptyScanField
      match ← ask fun image => scan image a (form / 128 % 2 = 1) (form % 128 : Nat) c.toNat b with
      | some address => return .storeAndBranch address true
      | none => return .storeAndBranch 0 false
  | .copyTable => copyTable a b c; return .proceed
  -- objects
  | .jumpInside => return .branch ((← ask (story.objects.parent · a)) = b)
  | .getSibling =>
      let sibling ← ask (story.objects.sibling · a)
      return .storeAndBranch sibling (sibling ≠ 0)
  | .getChild =>
      let child ← ask (story.objects.child · a)
      return .storeAndBranch child (child ≠ 0)
  | .getParent => return .store (← ask (story.objects.parent · a))
  | .removeObject => onMemory (story.objects.remove a); return .proceed
  | .insertObject => onMemory (story.objects.insert a b); return .proceed
  | .testAttribute => return .branch (← ask (story.objects.hasAttribute · a b))
  | .setAttribute => onMemory (story.objects.setAttribute a b); return .proceed
  | .clearAttribute => onMemory (story.objects.clearAttribute a b); return .proceed
  | .getProperty => return .store (← ask (story.objects.getProperty · a b))
  | .getPropertyAddress => return .store (← ask (story.objects.propertyAddress · a b))
  | .getNextProperty => return .store (← ask (story.objects.nextProperty · a b))
  | .getPropertyLength => return .store (← ask (story.objects.propertyLength · a))
  | .putProperty => onMemory (story.objects.putProperty a b c); return .proceed
  -- numbers
  | .add => return .store (a + b)
  | .subtract => return .store (a - b)
  | .multiply => return .store (a * b)
  | .divide =>
      divisor
      return .store (Int.tdiv a b)
  | .remainder =>
      divisor
      return .store (Int.tmod a b)
  | .increment =>
      let value ← onWork (Workspace.getVariable a true)
      onWork (Workspace.setVariable a (value + 1) true)
      return .proceed
  | .decrement =>
      let value ← onWork (Workspace.getVariable a true)
      onWork (Workspace.setVariable a (value - 1) true)
      return .proceed
  | .random =>
      if 0 < a then
        let (value, random) := (← get).random.next a
        modify fun machine => { machine with random }
        return .store value
      else
        reseed a
        return .store 0
  | .bitNot => return .store (65535 - a)
  | .bitTest =>
      exactlyTwo
      return .branch (bitwise Nat.land a b = b)
  | .bitOr => return .store (bitwise Nat.lor a b)
  | .bitAnd => return .store (bitwise Nat.land a b)
  | .logicalShift =>
      exactlyTwo
      shift instruction a b 0
  | .arithmeticShift =>
      exactlyTwo
      shift instruction a b (if a < 0 ∧ b < 0 then 0xffff else 0)
  -- the game
  | .quit => return .quit
  | .nop => return .proceed
  | .restart => return .restart
  | .save =>
      if !values.isEmpty then
        note .warning "zmachine.instructions" "save of a memory table is not supported"
        return .store 0
      let saved ← save instruction
      if instruction.opcode.branches then return .branch saved
      return .store (if saved then 1 else 0)
  | .restore =>
      if !values.isEmpty then
        note .warning "zmachine.instructions" "restore of a memory table is not supported"
        return .store 0
      if ← restore then return .moved
      if instruction.opcode.branches then return .branch false
      return .store 0
  | .saveUndo =>
      saveUndo instruction
      return .store 1
  | .restoreUndo =>
      if ← restoreUndo then return .moved
      return .store 0

/-- Stores the result of an instruction and goes on after it. -/
def storeResult (instruction : Instruction) (value : Int) : Play Unit := do
  match instruction.storeTo with
  | none => pure ()
  | some target => onWork (Workspace.setVariable target value)
  goTo instruction.nextAddress

/-- Follows the branch of an instruction if its sense is that of the outcome. -/
def followBranch (instruction : Instruction) (outcome : Bool) : Play Unit :=
  match instruction.branch with
  | some branch =>
      if outcome = branch.ifTrue then takeBranch branch.offset instruction.nextAddress
      else goTo instruction.nextAddress
  | none => goTo instruction.nextAddress

/-- Goes on as an operation demands. -/
def settle (instruction : Instruction) : Next → Play Unit
  | .proceed => goTo instruction.nextAddress
  | .store value => storeResult instruction value
  | .branch outcome => followBranch instruction outcome
  | .storeAndBranch value outcome => do
      storeResult instruction value
      followBranch instruction outcome
  | .call address storeTo arguments =>
      callRoutine address instruction.nextAddress storeTo arguments
  | .return value => returnFromRoutine value
  | .jump offset => goTo (instruction.nextAddress + offset - 2)
  | .quit => quit
  | .restart => restart
  | .read token => suspend token
  | .moved => pure ()

end Machine

end StoryMachine
