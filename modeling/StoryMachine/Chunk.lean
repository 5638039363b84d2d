import StoryMachine.Effect
import StoryMachine.Span

/-!
# Chunk files

Save files and resource files are forms: a typed container of chunks, each with
a four-letter name and a length in front of its data, padded to an even length.
Names are Latin-1 text.
-/

namespace StoryMachine

/-- A named piece of a chunk file. The offset is that of its header in the file. -/
structure Chunk where
  id : String
  data : List UInt8
  offset : Int := 0
deriving DecidableEq, Repr, Inhabited

namespace Chunk

/-- The number that bytes spell, the highest first. -/
def number (bytes : List UInt8) : Nat :=
  bytes.foldl (fun total byte => total * 256 + byte.toNat) 0

/-- The number that exactly `count` bytes spell. -/
def field (count : Nat) (bytes : List UInt8) : Result Nat :=
  if bytes.length = count then .ok (number bytes) else .refuse .fieldOverflow

/-- The lowest `count` bytes of a number, the highest first. -/
def digits (count value : Nat) : List UInt8 :=
  match count with
  | 0 => []
  | count + 1 => digits count (value / 256) ++ [UInt8.ofNat value]

/-- A number as a field of `count` bytes, if it fits. -/
def toField (count : Nat) (value : Int) : Result (List UInt8) :=
  if 0 ≤ value ∧ value < Nat.pow 256 count then .ok (digits count value.toNat)
  else .refuse .fieldOverflow

/-- The Latin-1 text of bytes. -/
def latin (bytes : List UInt8) : String :=
  String.ofList (bytes.map fun byte => Char.ofNat byte.toNat)

/-- The bytes of a Latin-1 text. -/
def ofLatin (text : String) : Result (List UInt8) :=
  if text.toList.all fun c => c.toNat < 256 then
    .ok (text.toList.map fun c => UInt8.ofNat c.toNat)
  else .refuse .unencodable

/-- The written form of a chunk. -/
def describe (chunk : Chunk) : String :=
  s!"Chunk({chunk.id},{chunk.data.length} bytes at 0x{Numeral.hex chunk.offset})"

/-- The chunk at an offset and the offset of the next one. -/
def read (use : ContainerUse) (data : List UInt8) (offset : Int) : Result (Chunk × Int) := do
  if (data.length : Int) < offset + 8 then
    .fault (.container use (.truncatedHeader offset))
  let id := latin (Span.ofList data offset (offset + 4))
  let length ← field 4 (Span.ofList data (offset + 4) (offset + 8))
  let start := offset + 8
  if (data.length : Int) < start + length then
    .fault (.container use (.truncatedChunk id offset length (data.length - start)))
  return ({ id, offset, data := Span.ofList data start (start + length) },
    start + length + if length % 2 = 1 then 1 else 0)

/-- The chunks of the data from an offset on. -/
def readAll (use : ContainerUse) (data : List UInt8) (offset : Int) : Result (List Chunk) :=
  if _inside : offset < data.length then
    match read use data offset with
    | .error e => .error e
    | .ok (chunk, next) =>
        if _forward : offset < next then do
          let rest ← readAll use data next
          return chunk :: rest
        else .ok [chunk]
  else .ok []
termination_by (data.length - offset).toNat
decreasing_by omega

/-- The chunks of a form of the given type, in order. -/
def readForm (use : ContainerUse) (type : String) (data : List UInt8) : Result (List Chunk) := do
  if data.length < 12 ∨ latin (data.take 4) ≠ "FORM" then
    .fault (.container use .notContainer)
  let found := (data.drop 8).take 4
  if found ≠ (← ofLatin type) then
    .fault (.container use (.wrongType type (latin found)))
  let length := number ((data.drop 4).take 4)
  if data.length < 8 + length then
    .fault (.container use (.truncatedForm length (data.length - 8)))
  readAll use (data.take (8 + length)) 12

/-- A chunk in bytes. -/
def write (id : String) (data : List UInt8) : Result (List UInt8) := do
  let name ← ofLatin id
  let length ← toField 4 data.length
  return name ++ length ++ data ++ if data.length % 2 = 1 then [0] else []

/-- Chunks in bytes, one after the other. -/
def writeAll : List (String × List UInt8) → Result (List UInt8)
  | [] => .ok []
  | (id, data) :: rest => do
      let first ← write id data
      let rest ← writeAll rest
      return first ++ rest

/-- A form of the given type in bytes. -/
def writeForm (type : String) (chunks : List (String × List UInt8)) : Result (List UInt8) := do
  let name ← ofLatin type
  let chunks ← writeAll chunks
  let body := name ++ chunks
  let header ← ofLatin "FORM"
  let length ← toField 4 body.length
  return header ++ length ++ body

end Chunk

end StoryMachine
