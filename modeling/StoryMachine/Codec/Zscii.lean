import StoryMachine.Memory
import StoryMachine.Text.CodePoint

/-!
# ZSCII

The character codes of a story. Codes 32 to 126 are ASCII, 13 is a line end, and
the codes from 155 on name the extra characters of a table, which a story can
supply itself. Three alphabets of up to 26 characters give the characters that
text uses most; a story can supply these too.
-/

namespace StoryMachine

namespace Zscii

/-- The code of a line end. -/
def newline : Int := 13

/-- The code of the first extra character. -/
def firstExtra : Int := 155

/-- The extra characters of a story that has no table of its own. -/
def defaultExtras : Text :=
  Text.ofString ("äöüÄÖÜß»«ëïÿËÏ" ++ "áéíóúýÁÉÍÓÚÝ" ++ "àèìòùÀÈÌÒÙ" ++ "âêîôûÂÊÎÔÛ" ++ 
    "åÅøØãñõÃÑÕ" ++ "æÆçÇþðÞÐ£œŒ¡¿")

/-- The text that a code prints, given the extra characters; unknown codes print a question
mark. -/
def toText (extras : Text) (code : Int) : Text :=
  if code = 0 then []
  else if code = newline then [0x0a]
  else if code = 9 ∨ code = 11 then [0x20]
  else if 32 ≤ code ∧ code ≤ 126 then [code.toNat]
  else if firstExtra ≤ code then
    match extras[(code - firstExtra).toNat]? with
    | some c => [c]
    | none => [0x3f]
  else [0x3f]

/-- The code of a character, if it has one. -/
def ofCodePoint? (extras : Text) (c : CodePoint) : Option Int :=
  if c = 0x0a ∨ c = 0x0d then some newline
  else if 32 ≤ c ∧ c ≤ 126 then some c
  else (extras.findIdx? (· == c)).map fun index => firstExtra + index

/-- The code of a typed character; a question mark stands for what has none. -/
def ofCodePoint (extras : Text) (c : CodePoint) : Int :=
  (ofCodePoint? extras c).getD 0x3f

end Zscii

/-- The three alphabets. The first place of the third is never printed. -/
structure Alphabets where
  lower : Text
  upper : Text
  symbols : Text
deriving DecidableEq, Repr, Inhabited

namespace Alphabets

def default : Alphabets where
  lower := Text.ofString "abcdefghijklmnopqrstuvwxyz"
  upper := Text.ofString "ABCDEFGHIJKLMNOPQRSTUVWXYZ"
  symbols := Text.ofString " \n0123456789.,!?_#'\"/\\-:()"

/-- The alphabets of version 1, which has no line end among the symbols. -/
def first : Alphabets where
  lower := default.lower
  upper := default.upper
  symbols := Text.ofString " 0123456789.,!?_#'\"/\\<-:()"

/-- The alphabet of a number from zero to two. -/
def get (alphabets : Alphabets) : Nat → Text
  | 0 => alphabets.lower
  | 1 => alphabets.upper
  | _ => alphabets.symbols

def toList (alphabets : Alphabets) : List Text :=
  [alphabets.lower, alphabets.upper, alphabets.symbols]

end Alphabets

/-- How a story writes and reads text. The version is any number: only its order matters here. -/
structure Codec where
  version : Int
  abbreviations : Int := 0
  alphabets : Alphabets := .default
  extras : Text := Zscii.defaultExtras
deriving DecidableEq, Repr, Inhabited

namespace Codec

/-- The words that name the extra characters. -/
def loadWords (image : Image) (address : Int) : Nat → Result Text
  | 0 => .ok []
  | count + 1 => do
      let first ← image.word address
      let rest ← loadWords image (address + 2) count
      return first :: rest

/-- The extra characters, from the table at an address if there is one. -/
def loadExtras (image? : Option Image) (address : Int) : Result Text :=
  match image? with
  | some image =>
      if address = 0 then .ok Zscii.defaultExtras
      else do
        let count ← image.byte address
        loadWords image (address + 1) count
  | none => .ok Zscii.defaultExtras

/-- One alphabet of a table of ZSCII codes. A code that prints nothing makes it shorter. -/
def loadAlphabet (extras : Text) (image : Image) (address : Int) : Result Text := do
  let codes ← image.byteRun address 26
  return codes.flatMap fun (code : Nat) => Zscii.toText extras code

/-- The alphabets, from the table at an address if the version has one. The first two symbols are
always the escape and the line end. -/
def loadAlphabets (version : Int) (extras : Text) (image? : Option Image) (address : Int) :
    Result Alphabets :=
  if version = 1 then .ok .first
  else if version < 5 ∨ address = 0 then .ok .default
  else
    match image? with
    | none => .ok .default
    | some image => do
        let lower ← loadAlphabet extras image address
        let upper ← loadAlphabet extras image (address + 26)
        let symbols ← loadAlphabet extras image (address + 52)
        return { lower, upper, symbols := [0x20, 0x0a] ++ symbols.drop 2 }

/-- The codec of a story with tables at the given addresses. -/
def load (version : Int) (image? : Option Image)
    (abbreviations alphabetTable unicodeTable : Int) : Result Codec := do
  let extras ← loadExtras image? unicodeTable
  let alphabets ← loadAlphabets version extras image? alphabetTable
  return { version, abbreviations, alphabets, extras }

/-- The text of a ZSCII code. -/
def zsciiText (codec : Codec) (code : Int) : Text :=
  Zscii.toText codec.extras code

/-- The text of ZSCII codes. -/
def zsciiTexts (codec : Codec) (codes : List Int) : Text :=
  codes.flatMap codec.zsciiText

/-- The ZSCII code of a typed character. -/
def toZscii (codec : Codec) (c : CodePoint) : Int :=
  Zscii.ofCodePoint codec.extras c

/-- The zchars that introduce an abbreviation. -/
def abbreviationCodes (codec : Codec) : List Int :=
  if codec.version = 1 then []
  else if codec.version = 2 then [1]
  else [1, 2, 3]

end Codec

end StoryMachine
