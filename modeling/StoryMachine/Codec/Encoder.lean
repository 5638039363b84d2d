import StoryMachine.Codec.Decoder
import StoryMachine.Text.Lower

/-!
# Encoding text

Text becomes zchars with temporary shifts only, and zchars are packed three to a
word with the end bit on the last. A dictionary word is the lower-case text cut
or padded to the fixed number of zchars of its version.
-/

namespace StoryMachine

namespace Codec

/-- The zchar that fills up encoded text. -/
def padding : Int := 5

/-- The shifts to the second and the third alphabet. -/
def shifts (codec : Codec) : Int × Int :=
  if codec.version < 3 then (2, 3) else (4, 5)

/-- The place of a character in the symbols, whose first place is the escape. -/
def symbolIndex? (symbols : Text) (c : CodePoint) : Option Nat :=
  ((symbols.drop 1).findIdx? (· == c)).map (· + 1)

/-- The zchars of a character: its place in the first alphabet that has it, else its ZSCII code in
two zchars after an escape. -/
def toZchars (codec : Codec) (c : CodePoint) : List Int :=
  if c = 0x20 then [0]
  else
    match codec.alphabets.lower.findIdx? (· == c) with
    | some index => [(index : Int) + 6]
    | none =>
        match codec.alphabets.upper.findIdx? (· == c) with
        | some index => [codec.shifts.1, (index : Int) + 6]
        | none =>
            match symbolIndex? codec.alphabets.symbols c with
            | some index => [codec.shifts.2, (index : Int) + 6]
            | none =>
                let code := (codec.toZscii c).toNat
                [codec.shifts.2, 6, (code / 32 : Nat), (code % 32 : Nat)]

/-- The zchars of a dictionary word. -/
def wordZcharCount (codec : Codec) : Int :=
  if codec.version < 4 then 6 else 9

/-- Fills zchars up to a positive multiple of three. -/
def fillWords (zchars : List Int) : List Int :=
  zchars ++ List.replicate (if zchars.isEmpty then 3 else (3 - zchars.length % 3) % 3) padding

/-- Cuts or pads zchars to a length. -/
def fit (zchars : List Int) (length : Int) : List Int :=
  let kept := Span.ofList zchars 0 length
  kept ++ List.replicate (length - kept.length).toNat padding

/-- The zchars of a text, cut or padded to a length; without one, to that of a dictionary word.
Length zero keeps all of the text and fills up its last word. -/
def encode (codec : Codec) (text : Text) (length : Option Int := none) : List Int :=
  let zchars := text.flatMap codec.toZchars
  let length := length.getD codec.wordZcharCount
  if length = 0 then fillWords zchars else fit zchars length

/-- Three zchars in a word. A zchar above 31 spills into its neighbour, and the word must fit. -/
def packWord (first second third : Int) (last : Bool) : Result (List UInt8) :=
  if first < 0 ∨ second < 0 ∨ third < 0 then .refuse .valueOutOfRange
  else
    let word := first.toNat * 1024 ||| second.toNat * 32 ||| third.toNat |||
      if last then 0x8000 else 0
    if 0x10000 ≤ word then .refuse .valueOutOfRange
    else .ok [UInt8.ofNat (word / 256), UInt8.ofNat (word % 256)]

/-- Packs zchars three to a word; their number must be a multiple of three. -/
def pack : List Int → Result (List UInt8)
  | [] => .ok []
  | [_] => .refuse .indexOutOfRange
  | [_, _] => .refuse .indexOutOfRange
  | first :: second :: third :: rest => do
      let word ← packWord first second third rest.isEmpty
      let words ← pack rest
      return word ++ words

/-- The packed form of a text for comparison with dictionary words: lower case, fixed length. -/
def encrypt (codec : Codec) (text : Text) (length : Option Int := none) : Result (List UInt8) :=
  pack (codec.encode text.lower length)

end Codec

end StoryMachine
