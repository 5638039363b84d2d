import StoryMachine.Machine.Typing

/-!
# Reading from the player

A read takes two phases: a request is entered and the machine waits, with the
program counter still on the reading instruction; the answer to the request
finishes the instruction. A request can have a routine that is called when its
time runs out and that can end the read.
-/

namespace StoryMachine

namespace Image

/-- The codes at an address, up to a zero or a number of them; the byte after the last is read
too. -/
def codesUpTo (image : Image) : Nat → Int → Result (List Int)
  | limit, address => do
      let code ← image.byte address
      if code = 0 then return []
      match limit with
      | 0 => return []
      | limit + 1 =>
          let rest ← image.codesUpTo limit (address + 1)
          return (code : Int) :: rest

/-- The codes in a text buffer, and where the first stands in it. Early buffers end with a zero,
later ones count their codes. -/
def textBuffer (image : Image) (buffer : Int) : Result (List Int × Int) := do
  if image.version < 5 then
    let first ← image.byte (buffer + 1)
    if first = 0 then return ([], 1)
    let limit ← image.byte buffer
    let codes ← image.codesUpTo limit (buffer + 1)
    return (codes, 1)
  else
    let count ← image.byte (buffer + 1)
    let codes ← image.byteRun (buffer + 2) count
    return (codes.map Int.ofNat, 2)

/-- The codes that end a line: the line end, and from version 5 on those of a table that ends with
a zero. -/
def terminators (image : Image) : Result (List Int) :=
  let address := if 5 ≤ image.version then image.terminatingCharsAddress else 0
  if address = 0 then .ok [Zscii.newline]
  else
    let rest := (image.bytes.extract address image.size).toList
    let codes := rest.takeWhile (· != 0)
    if codes.length = rest.length then
      .fault (.outsideMemory (address + codes.length) image.size)
    else .ok (Zscii.newline :: codes.map fun code => (code.toNat : Int))

end Image

namespace Machine

/-- Shows the status line: the room, and the score or the time. -/
def showStatus : Play Unit := do
  let roomId ← onWork (Workspace.getGlobal 0)
  let story := (← get).story
  let room ←
    if story.objects.isValidId roomId then ask (story.objectName · roomId) else pure []
  let first ← onWork (Workspace.getGlobal 1)
  let second ← onWork (Workspace.getGlobal 2)
  if (← get).image.showsTime then
    onScreen (·.showStatus { room, scoreMode := false, hours := first, minutes := second })
  else
    onScreen (·.showStatus { room, score := Word.signed first, turns := second })

/-- Begins to read a line. Text that a later story left in its buffer counts as typed. -/
def beginLine (instruction : Instruction) (textBuffer parseBuffer time routine : Int) :
    Play Nat := do
  if (← get).image.version < 4 then showStatus
  let size ← ask (·.byte textBuffer)
  let image := (← get).image
  let initial ←
    if image.version < 5 then pure []
    else do
      let (codes, _) ← image.textBuffer textBuffer
      pure ((← get).story.codec.zsciiTexts codes)
  let terminators ← image.terminators
  newRequest fun token =>
    { kind := .line, token, instruction := some instruction, textBuffer, parseBuffer, time, routine
      maxLength := if image.version < 5 then (size : Int) - 1 else size
      initial := .text initial
      terminators }

/-- Begins to read a key. -/
def beginKey (instruction : Instruction) (time routine : Int) : Play Nat :=
  newRequest fun token =>
    { kind := .key, token, instruction := some instruction, time, routine }

/-- Waits for a request, with the program counter on its instruction. -/
def suspend (token : Nat) : Play Unit := do
  match (← get).request? token with
  | none => pure ()
  | some request =>
      modify fun machine =>
        { machine with
          pending := some token
          pc := (request.instruction.map Instruction.address).getD machine.pc
          phase := if request.kind = .line then .waitingForLine else .waitingForKey }
      flush

/-- Goes on after the instruction of a finished read. -/
def finishRequest (request : InputRequest) : Play Unit :=
  modify fun machine =>
    { machine with
      pending := none
      phase := .running
      pc := (request.instruction.map Instruction.nextAddress).getD machine.pc }

/-- Stores the result of a finished read. -/
def storeAnswer (request : InputRequest) (value : Int) : Play Unit :=
  match request.instruction.bind Instruction.storeTo with
  | none => pure ()
  | some target => onWork (Workspace.setVariable target value)

/-- Writes a line into a text buffer and gives where its first code stands. -/
def fillTextBuffer (buffer : Int) (codes : List Int) : Play Int := do
  if (← get).image.version < 5 then
    onMemory (Store.writeRun (buffer + 1) (codes ++ [0]))
    return 1
  else
    onMemory (Store.writeRun (buffer + 1) ((codes.length : Int) :: codes))
    return 2

/-- Finishes the read of a line: fills the text buffer and the parse table. The line is cut to the
room that the buffer has. -/
def finishLine (request : InputRequest) (entry : Entry) (terminator : Int) : Play Unit := do
  match entry with
  | .key _ => Action.refuse .keyForLine
  | .text text =>
      let story := (← get).story
      let codes := (text.lower.map story.codec.toZscii).take request.maxLength.toNat
      let offset ← fillTextBuffer request.textBuffer codes
      if terminator = Zscii.newline then commandEntered text
      if request.parseBuffer ≠ 0 then
        let _ ← onMemory (story.dictionary.tokenise codes request.parseBuffer offset)
      finishRequest request
      storeAnswer request terminator

/-- Finishes the read of a key. No key at all is code zero, and an empty text is a line end. -/
def finishKey (request : InputRequest) (entry : Option Entry) : Play Unit := do
  let codec := (← get).story.codec
  let code : Int :=
    match entry with
    | none => 0
    | some (.key code) => code
    | some (.text []) => Zscii.newline
    | some (.text (c :: _)) => codec.toZscii c
  finishRequest request
  storeAnswer request code

/-- Goes on after the routine of a request returned: a result other than zero ends the read with
what had been typed, zero lets it wait on. -/
def interruptReturned (token : Nat) (value : Int) : Play Unit := do
  match (← get).request? token with
  | none => pure ()
  | some request =>
      modify fun machine => { machine with pending := some token }
      if value ≠ 0 then
        match request.kind with
        | .line => finishLine request (request.typed.getD (.text [])) 0
        | .key => finishKey request none
      else
        changeRequest token fun request =>
          { request with initial := request.typed.getD request.initial }
        suspend token

end Machine

end StoryMachine
