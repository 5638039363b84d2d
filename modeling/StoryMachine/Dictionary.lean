import StoryMachine.Codec.Encoder
import StoryMachine.Memory.Store

/-!
# Dictionaries

A dictionary lists encoded words at a fixed distance from each other, usually
sorted. Text is split into words at spaces and at the dictionary's separators,
which are words of their own; the parse table says of each word where it stands
in the dictionary and in the text.
-/

namespace StoryMachine

/-- A dictionary: what its header says and where its entries start. -/
structure Dictionary where
  codec : Codec
  separators : List Nat
  entryLength : Nat
  isSorted : Bool
  count : Nat
  entries : Int
deriving DecidableEq, Repr, Inhabited

namespace Dictionary

/-- The dictionary at an address. A negative count marks unsorted entries. -/
def load (codec : Codec) (image : Image) (address : Int) : Result Dictionary := do
  let separatorCount ← image.byte address
  let separators ← image.byteRun (address + 1) separatorCount
  let address := address + 1 + separatorCount
  let entryLength ← image.byte address
  let count ← image.signedWord (address + 1)
  return {
    codec, separators, entryLength
    isSorted := decide (0 ≤ count)
    count := count.natAbs
    entries := address + 3 }

/-- The bytes of an encoded word. -/
def keyBytes (dictionary : Dictionary) : Nat :=
  if dictionary.codec.version < 4 then 4 else 6

/-- The address of an entry. -/
def entryAddress (dictionary : Dictionary) (index : Int) : Int :=
  dictionary.entries + dictionary.entryLength * index

/-- The address of an entry that exists. -/
def entryAddress? (dictionary : Dictionary) (index : Int) : Result Int :=
  if 0 ≤ index ∧ index < dictionary.count then .ok (dictionary.entryAddress index)
  else .refuse .indexOutOfRange

/-- The encoded word of an entry, cut short at the end of memory. -/
def key (dictionary : Dictionary) (image : Image) (index : Int) : List UInt8 :=
  let address := dictionary.entryAddress index
  (image.span address (address + dictionary.keyBytes)).toList

/-- The encoded word of an entry that exists. -/
def entryKey (dictionary : Dictionary) (image : Image) (index : Int) : Result (List UInt8) := do
  let _ ← dictionary.entryAddress? index
  return dictionary.key image index

/-- Finds a key among sorted entries from `low` up to but not including `high`, by halving. -/
def searchSorted (dictionary : Dictionary) (image : Image) (key : List UInt8)
    (low high : Nat) : Option Nat :=
  if low < high then
    let middle := (low + high - 1) / 2
    let entry := dictionary.key image middle
    if entry = key then some middle
    else if entry < key then dictionary.searchSorted image key (middle + 1) high
    else dictionary.searchSorted image key low middle
  else none
termination_by high - low

/-- Finds the first entry with a key. -/
def searchAll (dictionary : Dictionary) (image : Image) (key : List UInt8) : Option Nat :=
  (List.range dictionary.count).find? fun index => dictionary.key image index = key

/-- The entry with a key. -/
def search (dictionary : Dictionary) (image : Image) (key : List UInt8) : Option Nat :=
  if dictionary.isSorted then dictionary.searchSorted image key 0 dictionary.count
  else dictionary.searchAll image key

/-- The address of a word, or zero if the dictionary lacks it. -/
def lookup (dictionary : Dictionary) (image : Image) (word : Text) : Result Int := do
  let key ← dictionary.codec.encrypt word
  return match dictionary.search image key with
    | some index => dictionary.entryAddress index
    | none => 0

/-- The address of a word given in ZSCII. -/
def lookupZscii (dictionary : Dictionary) (image : Image) (word : List Int) : Result Int :=
  dictionary.lookup image (dictionary.codec.zsciiTexts word)

/-- The decoded text of the entries from an index on. -/
def wordsFrom (dictionary : Dictionary) (image : Image) (index : Nat) : Nat → Result (List Text)
  | 0 => .ok []
  | count + 1 => do
      let word ← dictionary.codec.decode image (dictionary.entryAddress index) dictionary.keyBytes
      let rest ← dictionary.wordsFrom image (index + 1) count
      return word :: rest

/-- The decoded text of every entry. -/
def words (dictionary : Dictionary) (image : Image) : Result (List Text) :=
  dictionary.wordsFrom image 0 dictionary.count

/-- A word of a text and the index of its first character. -/
abbrev Token := Nat × List Int

/-- A word in progress, as a list of at most one token. -/
def finish (start : Nat) (word : List Int) : List Token :=
  if word.isEmpty then [] else [(start, word)]

/-- Splits the rest of a text from an index on, with a word in progress that began at `start`. -/
def splitFrom (separators : List Nat) (start : Nat) (word : List Int) (index : Nat) :
    List Int → List Token
  | [] => finish start word
  | c :: rest =>
      if c = 0x20 then
        finish start word ++ splitFrom separators start [] (index + 1) rest
      else if separators.any fun separator => (separator : Int) = c then
        finish start word ++ (index, [c]) :: splitFrom separators start [] (index + 1) rest
      else
        splitFrom separators (if word.isEmpty then index else start) (word ++ [c]) (index + 1) rest

/-- The words of a text in ZSCII. Spaces are dropped, and separators are words of their own. -/
def split (dictionary : Dictionary) (chars : List Int) : List Token :=
  splitFrom dictionary.separators 0 [] 0 chars

variable {σ : Type} [Store σ]

/-- Writes the entries of a parse table: the dictionary address of each word, its length and where
it starts. The entry of an unknown word can be left as it is. -/
def writeTokens (dictionary : Dictionary) (textOffset : Int) (skipUnknown : Bool)
    (address : Int) : List Token → Action σ Unit
  | [] => pure ()
  | (start, word) :: rest => do
      let found ← dictionary.lookupZscii (Store.image (← get)) word
      if found ≠ 0 ∨ !skipUnknown then
        Store.writeWord address found
        Store.write (address + 2) word.length
        Store.write (address + 3) (start + textOffset)
      dictionary.writeTokens textOffset skipUnknown (address + 4) rest

/-- Splits a text and writes its parse table, for as many words as the table has room. -/
def tokenise (dictionary : Dictionary) (chars : List Int) (parseTable textOffset : Int)
    (skipUnknown : Bool := false) : Action σ (List Token) := do
  let room ← Store.byte parseTable
  let tokens := (dictionary.split chars).take room
  Store.write (parseTable + 1) tokens.length
  dictionary.writeTokens textOffset skipUnknown (parseTable + 2) tokens
  return tokens

end Dictionary

end StoryMachine
