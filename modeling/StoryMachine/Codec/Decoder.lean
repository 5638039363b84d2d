import StoryMachine.Codec.Zscii

/-!
# Decoding packed text

A string is a run of words. Each holds three five-bit zchars and an end bit. A
decoder is fed one zchar at a time; it remembers the alphabet in use, a shift for
the next character, and whether the next zchars finish an abbreviation or a ZSCII
code. The text of an abbreviation may not hold another one.
-/

namespace StoryMachine

/-- What the next zchar means to a decoder. -/
inductive Expecting where
  | character
  | abbreviation
  | codeHigh
  | codeLow
deriving DecidableEq, Repr, Inhabited

namespace Expecting

/-- The number by which a state is reported. -/
def toNat : Expecting → Nat
  | character => 0
  | abbreviation => 1
  | codeHigh => 2
  | codeLow => 3

end Expecting

/-- The state of a decoder between two zchars. -/
structure Decoder where
  locked : Nat := 0
  shifted : Option Nat := none
  expecting : Expecting := .character
  previous : Int := 0
  allowAbbreviations : Bool := true
deriving DecidableEq, Repr, Inhabited

namespace Decoder

/-- The alphabet of the next character. -/
def alphabet (decoder : Decoder) : Nat :=
  decoder.shifted.getD decoder.locked

/-- Shifts to the next or the previous alphabet, for one character or for good. -/
def shift (decoder : Decoder) (reverse permanent : Bool) : Decoder :=
  let target := (decoder.locked + if reverse then 2 else 1) % 3
  if permanent then { decoder with locked := target, shifted := none }
  else { decoder with shifted := some target }

/-- The ZSCII code of two zchars; negative zchars give a code that is not in use. -/
def escapedCode (high low : Int) : Int :=
  if 0 ≤ high ∧ 0 ≤ low then ((high.toNat * 32 ||| low.toNat : Nat) : Int) else -1

/-- A zchar below six other than the space: a line end, an abbreviation or a shift. -/
def feedControl (codec : Codec) (zchar : Int) : Action Decoder Text := fun decoder =>
  if zchar = 1 ∧ codec.version = 1 then .ok [0x0a] { decoder with shifted := none }
  else if codec.abbreviationCodes.contains zchar then
    if decoder.allowAbbreviations then
      .ok [] { decoder with shifted := none, expecting := .abbreviation }
    else .error (.ofCause .nestedAbbreviation) decoder
  else if codec.version < 3 then
    .ok [] (decoder.shift (zchar = 3 || zchar = 5) (zchar = 4 || zchar = 5))
  else if zchar = 4 then .ok [] { decoder with shifted := some 1 }
  else if zchar = 5 then .ok [] { decoder with shifted := some 2 }
  else .ok [] decoder

/-- A zchar that begins something. -/
def feedPlain (codec : Codec) (zchar : Int) : Action Decoder Text := fun decoder =>
  if zchar = 0 then .ok [0x20] { decoder with shifted := none }
  else if zchar < 6 then feedControl codec zchar decoder
  else if zchar = 6 ∧ decoder.alphabet = 2 then
    .ok [] { decoder with shifted := none, expecting := .codeHigh }
  else
    match (codec.alphabets.get decoder.alphabet)[(zchar - 6).toNat]? with
    | some c => .ok [c] { decoder with shifted := none }
    | none => .error (.breach .indexOutOfRange) decoder

/-- A zchar in the light of what is expected, with a way to expand abbreviations. -/
def feedExpected (expand : Int → Result Text) (codec : Codec) (zchar : Int) :
    Action Decoder Text := fun decoder =>
  match decoder.expecting with
  | .abbreviation =>
      Action.ofResult (expand (32 * (decoder.previous - 1) + zchar))
        { decoder with expecting := .character }
  | .codeHigh => .ok [] { decoder with expecting := .codeLow }
  | .codeLow =>
      .ok (codec.zsciiText (escapedCode decoder.previous zchar))
        { decoder with expecting := .character }
  | .character => feedPlain codec zchar decoder

/-- Feeds one zchar and remembers it, also when it fails. -/
def feedWith (expand : Int → Result Text) (codec : Codec) (zchar : Int) : Action Decoder Text :=
  fun decoder =>
    match feedExpected expand codec zchar decoder with
    | .ok text decoder => .ok text { decoder with previous := zchar }
    | .error e decoder => .error e { decoder with previous := zchar }

/-- Feeds zchars one after the other and collects what each prints. -/
def feedAll (feed : Int → Action Decoder Text) : List Int → Action Decoder (List Text)
  | [] => pure []
  | zchar :: rest => do
      let text ← feed zchar
      let texts ← feedAll feed rest
      return text :: texts

/-- Decodes zchars from a fresh start, and starts afresh afterwards. -/
def decodeWith (feed : Int → Action Decoder Text) (allowAbbreviations : Bool)
    (zchars : List Int) : Action Decoder (List Text) := do
  set { allowAbbreviations : Decoder }
  let texts ← feedAll feed zchars
  set ({} : Decoder)
  return texts

end Decoder

/-- The three zchars of a word. -/
def wordZchars (word : Nat) : List Int :=
  [(word / 1024 % 32 : Nat), (word / 32 % 32 : Nat), (word % 32 : Nat)]

/-- Whether a word ends its string. -/
def wordEnds (word : Nat) : Bool :=
  word / 0x8000 % 2 = 1

namespace Image

/-- The zchars of the string at an address, up to and including the word with the end bit. -/
def zcharsToEnd (image : Image) (address : Int) : Result (List Int) :=
  if _inside : image.Holds address ∧ image.Holds (address + 1) then do
    let word ← image.word address
    if wordEnds word then return wordZchars word
    let rest ← image.zcharsToEnd (address + 2)
    return wordZchars word ++ rest
  else do
    let word ← image.word address
    return wordZchars word
termination_by (image.size - address).toNat
decreasing_by
  simp only [Holds] at _inside
  omega

/-- The zchars of a given number of words, whatever their end bits. -/
def zcharsOfWords (image : Image) (address : Int) : Nat → Result (List Int)
  | 0 => .ok []
  | count + 1 => do
      let word ← image.word address
      let rest ← image.zcharsOfWords (address + 2) count
      return wordZchars word ++ rest

/-- The zchars in a number of bytes, or up to the end of the string if the number is not
positive. -/
def zchars (image : Image) (address length : Int) : Result (List Int) :=
  if 0 < length then image.zcharsOfWords address ((length + 1) / 2).toNat
  else image.zcharsToEnd address

/-- The number of bytes of the string at an address. -/
def stringLength (image : Image) (address : Int) : Result Nat := do
  let zchars ← image.zcharsToEnd address
  return zchars.length / 3 * 2

end Image

namespace Codec

/-- Feeds a zchar of a text in which abbreviations are not allowed. -/
def feedFlat (codec : Codec) : Int → Action Decoder Text :=
  Decoder.feedWith (fun _ => .fault .nestedAbbreviation) codec

/-- The text of an abbreviation. Its table entry is a word address. -/
def abbreviation (codec : Codec) (tables : Option Image) (index : Int) : Result Text :=
  match tables with
  | none => .fault (.abbreviationWithoutTables index)
  | some image => do
      let address ← image.word (codec.abbreviations + index * 2)
      let zchars ← image.zcharsToEnd (address * 2)
      let texts ← (Decoder.decodeWith codec.feedFlat false zchars).answer {}
      return texts.flatten

/-- Feeds a zchar of a text whose abbreviations stand in the given tables. -/
def feed (codec : Codec) (tables : Option Image) : Int → Action Decoder Text :=
  Decoder.feedWith (codec.abbreviation tables) codec

/-- The text of zchars. -/
def decodeZchars (codec : Codec) (tables : Option Image) (zchars : List Int) : Result Text := do
  let texts ← (Decoder.decodeWith (codec.feed tables) true zchars).answer {}
  return texts.flatten

/-- The text of a string in an image, with the abbreviations of the same image. -/
def decode (codec : Codec) (image : Image) (address : Int) (length : Int := 0) : Result Text := do
  let zchars ← image.zchars address length
  codec.decodeZchars image zchars

end Codec

end StoryMachine
