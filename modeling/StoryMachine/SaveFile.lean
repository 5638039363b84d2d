import StoryMachine.Chunk
import StoryMachine.Frame
import StoryMachine.SaveFile.Difference

/-!
# Saved games

A saved game is a form with three chunks: the identity of the story and the
address to resume at, dynamic memory (compressed or plain), and the frames of
the calls in progress from the outermost on.
-/

namespace StoryMachine

/-- All that is needed to go on with a game. Frames are listed from the outermost on. -/
structure SavedGame where
  release : Int
  serial : List UInt8
  checksum : Int
  pc : Int
  dynamic : List UInt8
  frames : List Frame
deriving DecidableEq, Repr, Inhabited

namespace SaveFile

/-- The type of the form. -/
def formType : String := "IFZS"

/-- The lowest three bytes of a four-byte number. -/
def shortAddress (address : Int) : Result (List UInt8) := do
  let bytes ← Chunk.toField 4 address
  return bytes.drop 1

/-- The identity chunk. -/
def encodeIdentity (game : SavedGame) : Result (List UInt8) := do
  let release ← Chunk.toField 2 game.release
  let checksum ← Chunk.toField 2 game.checksum
  let pc ← shortAddress game.pc
  return release ++ game.serial ++ checksum ++ pc

/-- A number as one byte, if it is one. -/
def toByte (value : Int) : Result UInt8 :=
  if 0 ≤ value ∧ value < 256 then .ok (Byte.ofInt value) else .refuse .valueOutOfRange

/-- Words one after the other. -/
def encodeWords : List Int → Result (List UInt8)
  | [] => .ok []
  | value :: rest => do
      let word ← Chunk.toField 2 value
      let words ← encodeWords rest
      return word ++ words

/-- A byte with as many low bits set as there are arguments. -/
def argumentBits (count : Int) : Result UInt8 :=
  if 0 ≤ count ∧ count ≤ 8 then .ok (UInt8.ofNat (1 <<< count.toNat - 1))
  else .refuse .valueOutOfRange

/-- The flags of a frame: the number of its locals, and a bit for a dropped result. The outermost
frame has no result to drop. -/
def frameFlags (outermost : Bool) (frame : Frame) : Nat :=
  let count := frame.locals.length
  if frame.storeTo.isNone && !outermost then count ||| 0x10 else count

/-- A frame in bytes. -/
def encodeFrame (outermost : Bool) (frame : Frame) : Result (List UInt8) := do
  let returnTo ← shortAddress frame.returnTo
  let flags ← toByte (frameFlags outermost frame)
  let target ← toByte (frame.storeTo.getD 0)
  let arguments ← argumentBits frame.argumentCount
  let size ← Chunk.toField 2 frame.stack.length
  let locals ← encodeWords frame.locals
  let stack ← encodeWords frame.stack.reverse
  return returnTo ++ [flags, target, arguments] ++ size ++ locals ++ stack

/-- Frames in bytes, the outermost first. -/
def encodeFrames (outermost : Bool) : List Frame → Result (List UInt8)
  | [] => .ok []
  | frame :: rest => do
      let first ← encodeFrame outermost frame
      let rest ← encodeFrames false rest
      return first ++ rest

/-- The bytes of a saved game, given the dynamic memory of the fresh story. -/
def encode (game : SavedGame) (fresh : List UInt8) (compressed : Bool := true) :
    Result (List UInt8) := do
  let memory :=
    if compressed then ("CMem", Difference.compress game.dynamic fresh)
    else ("UMem", game.dynamic)
  let identity ← encodeIdentity game
  let frames ← encodeFrames true game.frames
  Chunk.writeForm formType [("IFhd", identity), memory, ("Stks", frames)]

/-- The number of low bits set in a row. -/
def trailingOnes (byte : Nat) : Nat :=
  (((List.range 8).takeWhile byte.testBit)).length

/-- The words of bytes; a single byte at the end is dropped. -/
def decodeWords : List UInt8 → List Int
  | high :: low :: rest => ((high.toNat * 256 + low.toNat : Nat) : Int) :: decodeWords rest
  | _ => []

/-- The frames in bytes at a position of their chunk. -/
def decodeFrames (outermost : Bool) (position : Nat) (data : List UInt8) : Result (List Frame) :=
  match data with
  | [] => .ok []
  | r2 :: r1 :: r0 :: flags :: target :: arguments :: s1 :: s0 :: rest =>
      let localCount := flags.toNat % 16
      let stackSize := s1.toNat * 256 + s0.toNat
      let needed := (localCount + stackSize) * 2
      if rest.length < needed then .fault (.truncatedFrameData (position + 8))
      else do
        let values := decodeWords (rest.take needed)
        let frame : Frame := {
          returnTo := Chunk.number [r2, r1, r0]
          storeTo :=
            if outermost || flags.toNat / 16 % 2 = 1 then none else some target.toNat
          locals := values.take localCount
          argumentCount := trailingOnes arguments.toNat
          stack := (values.drop localCount).reverse }
        let others ← decodeFrames false (position + 8 + needed) (rest.drop needed)
        return frame :: others
  | _ => .fault (.truncatedFrameHeader position)
termination_by data.length
decreasing_by
  simp only [List.length_drop, List.length_cons]
  omega

/-- The frames of a frames chunk, which has at least one. -/
def decodeStack (data : List UInt8) : Result (List Frame) := do
  let frames ← decodeFrames true 0 data
  if frames.isEmpty then .fault .noSavedFrames
  return frames

/-- What has been read of a saved game. -/
structure Parts where
  identity : Option (List UInt8) := none
  memory : Option (List UInt8) := none
  frames : Option (List Frame) := none

/-- Actions that note the names of skipped chunks. -/
abbrev Noting := Action (List String)

/-- Adds a chunk to what has been read. -/
def addChunk (fresh : List UInt8) (parts : Parts) (chunk : Chunk) : Noting Parts := do
  match chunk.id with
  | "IFhd" =>
      if chunk.data.length < 13 then Action.fault (.shortIdentity chunk.data.length)
      return { parts with identity := some chunk.data }
  | "CMem" =>
      let memory ← Difference.decompress chunk.data fresh
      return { parts with memory := some memory }
  | "UMem" =>
      if chunk.data.length ≠ fresh.length then
        Action.fault (.plainMemorySize chunk.data.length fresh.length)
      return { parts with memory := some chunk.data }
  | "Stks" =>
      let frames ← decodeStack chunk.data
      return { parts with frames := some frames }
  | other =>
      modify (· ++ [other])
      return parts

/-- Adds chunks in their order. -/
def addChunks (fresh : List UInt8) (parts : Parts) : List Chunk → Noting Parts
  | [] => pure parts
  | chunk :: rest => do
      let parts ← addChunk fresh parts chunk
      addChunks fresh parts rest

/-- The saved game of a file, given the dynamic memory of the fresh story. The names of chunks that
are skipped are noted, also those before a fault. -/
def decodeNoting (data fresh : List UInt8) : Noting SavedGame := do
  let chunks ← Chunk.readForm .save formType data
  let parts ← addChunks fresh {} chunks
  match parts.identity, parts.memory, parts.frames with
  | none, _, _ => Action.fault .noIdentityChunk
  | _, none, _ => Action.fault .noMemoryChunk
  | _, _, none => Action.fault .noStackChunk
  | some identity, some dynamic, some frames =>
      return {
        release := Chunk.number (identity.take 2)
        serial := (identity.drop 2).take 6
        checksum := Chunk.number ((identity.drop 8).take 2)
        pc := Chunk.number ((identity.drop 10).take 3)
        dynamic, frames }

/-- The saved game of a file. -/
def decode (data fresh : List UInt8) : Result SavedGame :=
  (decodeNoting data fresh).answer []

end SaveFile

end StoryMachine
