import StoryMachine.Machine

/-!
# Output streams

Printed text goes to the screen and, while the story asks for it in its header,
to the transcript. While a memory stream is open, it takes all text instead.
What the player enters goes to the transcript and to the script.
-/

namespace StoryMachine

namespace Machine

/-- Memory streams may be open this deep. -/
def maxMemoryStreams : Nat := 16

/-- Whether printed text goes to the transcript. -/
def transcriptActive (machine : Machine) : Bool :=
  machine.transcript.isSome && machine.ready && machine.image.transcriptOn

/-- Changes the screen. -/
def onScreen (change : Screen → Screen) : Play Unit :=
  modify fun machine => { machine with screen := change machine.screen }

/-- Adds text to the transcript. -/
def toTranscript (text : Text) : Play Unit :=
  modify fun machine => { machine with transcript := machine.transcript.map (·.print text) }

/-- Adds text to the script. -/
def toScript (text : Text) : Play Unit :=
  modify fun machine => { machine with script := machine.script.map (·.print text) }

/-- Writes one ZSCII code to the open memory stream. -/
def writeToStream (code : Int) : Play Unit := do
  match (← get).memoryStreams with
  | [] => pure ()
  | stream :: streams =>
      onMemory (GameMemory.write (stream.table + 2 + stream.count) code)
      modify fun machine =>
        { machine with memoryStreams := { stream with count := stream.count + 1 } :: streams }

/-- Writes ZSCII codes to the open memory stream, up to the first refusal. -/
def writeAllToStream : List Int → Play Unit
  | [] => pure ()
  | code :: rest => do
      writeToStream code
      writeAllToStream rest

/-- Prints text that is not empty on the active streams; in a memory stream the given codes stand
for it. -/
def emit (text : Text) (codes : List Int) : Play Unit := do
  let machine ← get
  if machine.memoryStreams.isEmpty then
    if machine.screen.active then onScreen (·.print text)
    if machine.transcriptActive then toTranscript text
  else writeAllToStream codes

/-- Prints text. -/
def print (text : Text) : Play Unit := do
  if text.isEmpty then return
  emit text (text.map (← get).story.codec.toZscii)

/-- Prints a line end. -/
def newLine : Play Unit :=
  emit [0x0a] [Zscii.newline]

/-- Records a line that the player entered. -/
def commandEntered (text : Text) : Play Unit := do
  if (← get).transcriptActive then
    toTranscript text
    toTranscript [0x0a]
  if (← get).script.any (·.active) then
    toScript text
    toScript [0x0a]

/-- Writes out a stream. -/
def flushSink (part : Machine → Option Sink) (withPart : Option Sink → Machine → Machine) :
    Play Unit := do
  match part (← get) with
  | none => pure ()
  | some sink =>
      let sink ← sink.flush
      modify (withPart (some sink))

def flushTranscript : Play Unit :=
  flushSink Machine.transcript fun transcript machine => { machine with transcript }

def flushScript : Play Unit :=
  flushSink Machine.script fun script machine => { machine with script }

/-- Writes out all streams. -/
def flush : Play Unit := do
  flushTranscript
  flushScript

/-- Opens a memory stream. -/
def openMemoryStream (table : Int) : Play Unit := do
  if maxMemoryStreams ≤ (← get).memoryStreams.length then
    Action.fault (.memoryStreamsNested maxMemoryStreams)
  modify fun machine => { machine with memoryStreams := { table } :: machine.memoryStreams }

/-- Closes the open memory stream and writes the number of its codes in front of them. -/
def closeMemoryStream : Play Unit := do
  match (← get).memoryStreams with
  | [] => pure ()
  | stream :: streams =>
      modify fun machine => { machine with memoryStreams := streams }
      onMemory (GameMemory.writeWord stream.table stream.count)

/-- Turns the script on or off. -/
def setScriptActive (active : Bool) : Play Unit :=
  modify fun machine =>
    { machine with script := machine.script.map fun sink => { sink with active } }

/-- Turns the transcript on or off, in the header. -/
def setTranscriptOn (on : Bool) : Play Unit := do
  if (← get).ready then overHeader (·.setTranscriptOn on)

/-- Selects an output stream. -/
def selectOutput (stream : Int) (table : Int := 0) : Play Unit :=
  if stream = 1 then onScreen fun screen => { screen with active := true }
  else if stream = 2 then setTranscriptOn true
  else if stream = 3 then openMemoryStream table
  else if stream = 4 then setScriptActive true
  else note .warning "zmachine.io" s!"Request to select unknown output stream {stream}"

/-- Deselects an output stream. -/
def deselectOutput (stream : Int) : Play Unit := do
  if stream = 1 then onScreen fun screen => { screen with active := false }
  else if stream = 2 then
    setTranscriptOn false
    flushTranscript
  else if stream = 3 then closeMemoryStream
  else if stream = 4 then
    setScriptActive false
    flushScript

/-- The streams at the start of a game. -/
def resetOutput : Play Unit := do
  modify fun machine => { machine with memoryStreams := [] }
  onScreen fun screen => { screen with active := true }
  setScriptActive false

end Machine

end StoryMachine
