import Mathlib.Data.List.Find
import StoryMachine.Proofs.DictionarySearch
import StoryMachine.Proofs.LineBuffers
import StoryMachine.Proofs.OutputStreams
import StoryMachine.Proofs.WordSplitting

/-!
# What a parse table says

When the read of a line is finished, its parse table counts the words of the text
in its text buffer, as many as it has room for, and says of each where it stands in
the dictionary, how long it is and where it stands in the text buffer. The place
has one byte, and the longest text buffer has one place more than a byte can say:
a word of one letter at its very end is told to stand at zero.
-/

namespace StoryMachine

open StoryMachine.Action (Ensures Keeps EndsIn)
open StoryMachine.Assembly (IsByte byte_of_carries)

/-! ## Runs of bytes -/

namespace Image

variable {image : Image}

/-- A part of bytes that stand in an image stands where the part begins. -/
theorem Carries.part {bytes : List UInt8} {address : Int} (carried : image.Carries address bytes)
    {start : Nat} (count : Nat) (inside : start ≤ bytes.length) :
    image.Carries (address + start) ((bytes.drop start).take count) := by
  rw [← List.take_append_drop start bytes, carries_append] at carried
  have behind := carried.2
  rw [List.length_take, Nat.min_eq_left inside] at behind
  rw [← List.take_append_drop count (bytes.drop start), carries_append] at behind
  exact behind.1

end Image

namespace GameMemory

variable {memory : GameMemory} {allowed : Int → Prop} {before after : GameMemory}

private theorem withCodes_append (front back : List Int) (address : Nat) :
    memory.withCodes address (front ++ back) =
      (memory.withCodes address front).withCodes (address + front.length) back := by
  induction front generalizing memory address with
  | nil => rfl
  | cons code rest ih =>
      refine (ih _).trans ?_
      rw [List.length_cons, Nat.add_right_comm, Nat.add_assoc]
      rfl

/-- Bytes that stand where nothing may change stay. -/
theorem ChangedWithin.carries (changed : ChangedWithin allowed before after) {address : Int}
    {bytes : List UInt8} (carried : before.Carries address bytes)
    (outside : ∀ place, address ≤ place → place < address + bytes.length → ¬ allowed place) :
    after.Carries address bytes :=
  carried.of_peek changed.size fun place least most =>
    Image.peek_eq_of_getElem? (changed.bytes place (outside place least most))

/-- Writing codes in their places is a change within the places. -/
theorem ChangedWithin.withCodes {codes : List Int} {address : Nat}
    (changed : ChangedWithin allowed before after)
    (may : ∀ place : Nat, address ≤ place → place < address + codes.length → allowed place) :
    ChangedWithin allowed before (after.withCodes address codes) := by
  induction codes generalizing after address with
  | nil => exact changed
  | cons code rest ih =>
      rw [List.length_cons] at may
      refine ih (changed.withByte (may address (Nat.le_refl _) (by omega)) _) ?_
      exact fun place least most => may place (by omega) (by omega)

/-- Codes that stay inside dynamic memory are all written. -/
theorem writeRun_eq {codes : List Int} {address : Nat}
    (dynamic : (address : Int) + codes.length ≤ memory.dynamicEnd) (whole : memory.Whole) :
    (Store.writeRun address codes : Edit Unit) memory =
      .ok () (memory.withCodes address codes) := by
  induction codes generalizing memory address with
  | nil => rfl
  | cons code rest ih =>
      rw [List.length_cons] at dynamic
      unfold Whole at whole
      have first := write_eq code (show (address : Int) < memory.dynamicEnd by omega) (by omega)
      have room : ((address + 1 : Nat) : Int) + rest.length ≤
          (memory.withByte address (Byte.ofInt code)).dynamicEnd := by
        change _ ≤ memory.dynamicEnd
        omega
      refine (Action.bind_of_ok first).trans (ih room ?_)
      unfold Whole
      rw [size_withByte]
      exact whole

private theorem whole_withCodes (whole : memory.Whole) (address : Nat) (codes : List Int) :
    (memory.withCodes address codes).Whole := by
  unfold Whole at whole ⊢
  rw [size_withCodes, dynamicEnd_withCodes]
  exact whole

end GameMemory

/-! ## Looking up words -/

namespace Dictionary

variable {dictionary : Dictionary} {image other : Image}

/-- A key is read from the bytes of its entry. -/
theorem key_congr {index : Nat} (positive : 0 ≤ dictionary.entryAddress index)
    (same : ∀ place : Nat, dictionary.entryAddress index ≤ place →
      place < dictionary.entryAddress index + dictionary.keyBytes →
      other.bytes[place]? = image.bytes[place]?)
    (size : other.size = image.size) :
    dictionary.key other index = dictionary.key image index := by
  obtain ⟨start, placed⟩ := Int.eq_ofNat_of_zero_le positive
  unfold Image.size at size
  rw [placed] at same
  unfold key Image.span
  dsimp only
  rw [placed, Span.toList_ofArray, Span.toList_ofArray]
  refine List.ext_getElem? fun place => ?_
  unfold Span.ofList Span.position
  rw [if_neg (by omega), if_neg (by omega), if_neg (by omega), if_neg (by omega),
    List.getElem?_drop, List.getElem?_drop, List.getElem?_take, List.getElem?_take]
  simp only [Array.length_toList, size, Array.getElem?_toList]
  split
  · exact same _ (by omega) (by omega)
  · rfl

private theorem searchSorted_congr {key : List UInt8} {low high : Nat}
    (same : ∀ index : Nat, index < high → dictionary.key other index = dictionary.key image index) :
    dictionary.searchSorted other key low high = dictionary.searchSorted image key low high := by
  fun_induction searchSorted dictionary image key low high with
  | case1 low high more middle entry found =>
      rw [searchSorted, if_pos more]
      simp only
      rw [same _ (by omega), if_pos found]
  | case2 low high more middle entry differs less ih =>
      rw [searchSorted, if_pos more]
      simp only
      rw [same _ (by omega), if_neg differs, if_pos less]
      exact ih same
  | case3 low high more middle entry differs notLess ih =>
      rw [searchSorted, if_pos more]
      simp only
      rw [same _ (by omega), if_neg differs, if_neg notLess]
      exact ih fun index below => same index (by omega)
  | case4 low high closed => rw [searchSorted, if_neg closed]

/-- Words are found by the keys of the entries. -/
theorem lookupZscii_congr
    (same : ∀ index : Nat, index < dictionary.count →
      dictionary.key other index = dictionary.key image index) (word : List Int) :
    dictionary.lookupZscii other word = dictionary.lookupZscii image word := by
  have search (key : List UInt8) : dictionary.search other key = dictionary.search image key := by
    unfold search searchAll
    rw [searchSorted_congr same, List.find?_congr fun index listed => ?_]
    rw [same index (List.mem_range.mp listed)]
  unfold lookupZscii lookup
  simp only [search]

/-! ## Writing a parse table -/

/-- The bytes of the entry of a word: its address, its length and where it stands. -/
def entryCodes (find : List Int → Int) (textOffset : Int) (token : Token) : List Int :=
  [Word.high (Word.ofInt (find token.2)), Word.low (Word.ofInt (find token.2)), token.2.length,
    token.1 + textOffset]

/-- The bytes of a parse table behind its first one: the number of words and their entries. -/
def tableCodes (find : List Int → Int) (textOffset : Int) (tokens : List Token) : List Int :=
  tokens.length :: tokens.flatMap (entryCodes find textOffset)

private theorem length_tableCodes (find : List Int → Int) (textOffset : Int) (tokens : List Token) :
    (tableCodes find textOffset tokens).length = 4 * tokens.length + 1 := by
  have entries : (tokens.flatMap (entryCodes find textOffset)).length = 4 * tokens.length := by
    induction tokens with
    | nil => rfl
    | cons token rest ih =>
        rw [List.flatMap_cons, List.length_append, ih, List.length_cons]
        simp only [entryCodes, List.length_cons, List.length_nil]
        omega
  unfold tableCodes
  rw [List.length_cons, entries]

/-- The bytes of an entry stand at its place in the table. -/
theorem carries_entry {find : List Int → Int} {textOffset : Int} {tokens : List Token}
    {address : Int} (carried : image.Carries address
      ((tokens.flatMap (entryCodes find textOffset)).map Byte.ofInt))
    {index : Nat} {token : Token} (found : tokens[index]? = some token) :
    image.Carries (address + 4 * index) ((entryCodes find textOffset token).map Byte.ofInt) := by
  induction tokens generalizing address index with
  | nil => simp at found
  | cons first rest ih =>
      rw [List.flatMap_cons, List.map_append, Image.carries_append] at carried
      obtain ⟨here, later⟩ := carried
      cases index with
      | zero =>
          obtain rfl : first = token := by simpa using found
          simpa using here
      | succ index =>
          have there := ih later (by simpa using found)
          have place : address + 4 * (index + 1 : Nat) = address + 4 + 4 * index := by omega
          rw [place]
          exact there

variable {find : List Int → Int} {memory before : GameMemory} {allowed : Int → Prop}

/-- The bytes of one entry are written one after the other. -/
theorem writeEntry_bind (find : List Int → Int) (textOffset : Int) (token : Token) {address : Nat}
    (whole : memory.Whole) (dynamic : (address : Int) + 4 ≤ memory.dynamicEnd)
    (rest : GameMemory.Edit Unit) :
    (do
      GameMemory.writeWord address (find token.2)
      GameMemory.write (address + 2) token.2.length
      GameMemory.write (address + 3) (token.1 + textOffset)
      rest) memory =
      rest (memory.withCodes address (entryCodes find textOffset token)) := by
  unfold GameMemory.Whole at whole
  have word := GameMemory.writeWord_of_inside (find token.2)
    (show (address : Int) + 1 < memory.dynamicEnd by omega) (by omega)
  have length := GameMemory.write_eq token.2.length
    (show ((address + 2 : Nat) : Int) <
      (memory.withWord address (find token.2)).dynamicEnd from
        show _ < memory.dynamicEnd by omega)
    (by rw [GameMemory.size_withWord]; omega)
  have place := GameMemory.write_eq (token.1 + textOffset)
    (show ((address + 3 : Nat) : Int) <
      ((memory.withWord address (find token.2)).withByte (address + 2)
        (Byte.ofInt token.2.length)).dynamicEnd from show _ < memory.dynamicEnd by omega)
    (by rw [GameMemory.size_withByte, GameMemory.size_withWord]; omega)
  refine (Action.bind_of_ok word).trans ?_
  refine (Action.bind_of_ok length).trans ?_
  exact Action.bind_of_ok place

/-- The entries of all words are written, if words are looked up the same while they are. -/
theorem writeTokens_eq {textOffset : Int} {tokens : List Token} (address : Nat)
    (looks : ∀ after : GameMemory, before.ChangedWithin allowed after → ∀ word,
      dictionary.lookupZscii after.toImage word = .ok (find word))
    (may : ∀ place : Nat, address ≤ place → place < address + 4 * tokens.length → allowed place)
    (changed : before.ChangedWithin allowed memory) (whole : memory.Whole)
    (dynamic : (address : Int) + 4 * tokens.length ≤ memory.dynamicEnd) :
    (dictionary.writeTokens textOffset false address tokens : GameMemory.Edit Unit) memory =
      .ok () (memory.withCodes address (tokens.flatMap (entryCodes find textOffset))) := by
  induction tokens generalizing memory address with
  | nil => rfl
  | cons token rest ih =>
      obtain ⟨start, word⟩ := token
      rw [List.length_cons] at may dynamic
      have entry := writeEntry_bind find textOffset (start, word) whole
        (show (address : Int) + 4 ≤ _ by omega)
        (dictionary.writeTokens textOffset false (address + 4) rest)
      have written : before.ChangedWithin allowed
          (memory.withCodes address (entryCodes find textOffset (start, word))) :=
        changed.withCodes fun place least most => may place least (by
          simp only [entryCodes, List.length_cons, List.length_nil] at most
          omega)
      have others := ih (address + 4)
        (fun place least most => may place (by omega) (by omega)) written
        (GameMemory.whole_withCodes whole _ _) (by
          rw [GameMemory.dynamicEnd_withCodes]
          omega)
      rw [List.flatMap_cons, GameMemory.withCodes_append]
      unfold writeTokens
      rw [Action.get_bind]
      change ((liftM (dictionary.lookupZscii memory.toImage word) : GameMemory.Edit Int) >>= _)
        memory = _
      rw [looks memory changed word, Action.lift_bind]
      simp only [Bool.not_false, or_true, ↓reduceIte]
      exact entry.trans others

/-- A parse table with room for the words is written behind its first byte. -/
theorem tokenise_eq {chars : List Int} {table room : Nat} {textOffset : Int}
    (looks : ∀ after : GameMemory, before.ChangedWithin allowed after → ∀ word,
      dictionary.lookupZscii after.toImage word = .ok (find word))
    (may : ∀ place : Int, InParseTable table room place → allowed place)
    (changed : before.ChangedWithin allowed memory) (whole : memory.Whole)
    (read : memory.byte table = .ok room)
    (dynamic : (table : Int) + 1 + 4 * room < memory.dynamicEnd) :
    (dictionary.tokenise chars table textOffset : GameMemory.Edit (List Token)) memory =
      .ok ((dictionary.split chars).take room)
        (memory.withCodes (table + 1)
          (tableCodes find textOffset ((dictionary.split chars).take room))) := by
  have few : ((dictionary.split chars).take room).length ≤ room := List.length_take_le _ _
  have asked : (Store.byte (table : Int) : GameMemory.Edit Nat) memory = .ok room memory := by
    unfold Store.byte
    rw [Action.get_bind]
    change (liftM (memory.byte table) : GameMemory.Edit Nat) memory = _
    rw [read]
    rfl
  unfold tokenise
  refine (Action.bind_of_ok asked).trans ?_
  generalize (dictionary.split chars).take room = tokens at few ⊢
  unfold GameMemory.Whole at whole
  have counted := GameMemory.write_eq tokens.length
    (show ((table + 1 : Nat) : Int) < memory.dynamicEnd by omega) (by omega)
  have written : before.ChangedWithin allowed
      (memory.withByte (table + 1) (Byte.ofInt tokens.length)) :=
    changed.withByte (may _ ⟨by omega, by omega⟩) _
  have stays : (memory.withByte (table + 1) (Byte.ofInt tokens.length)).Whole := by
    unfold GameMemory.Whole
    rw [GameMemory.size_withByte]
    exact whole
  have entries : (dictionary.writeTokens textOffset false (table + 2) tokens :
      GameMemory.Edit Unit) (memory.withByte (table + 1) (Byte.ofInt tokens.length)) = .ok () _ :=
    writeTokens_eq (table + 2) looks (fun place least most => may place ⟨by omega, by omega⟩)
      written stays
      (show ((table + 2 : Nat) : Int) + 4 * tokens.length ≤ memory.dynamicEnd by omega)
  refine (Action.bind_of_ok counted).trans ?_
  exact Action.bind_of_ok entries

/-! ## What a parse table says -/

/-- A found address is what a search for the key of a word has to find. -/
theorem finds_of_lookup {word : List Int} {key : List UInt8} {found : Int}
    (behind : ∀ index : Nat, 0 < dictionary.entryAddress index)
    (sorted : dictionary.isSorted = true → dictionary.Ascending image)
    (packed : dictionary.codec.encrypt (dictionary.codec.zsciiTexts word) = .ok key)
    (looked : dictionary.lookupZscii image word = .ok found) :
    dictionary.Finds image key found := by
  unfold lookupZscii lookup at looked
  rw [packed, Result.ok_bind, search_eq_searchAll sorted] at looked
  obtain rfl : dictionary.scan image key = found := Except.ok.inj looked
  exact finds_scan behind

/-- An entry of a parse table describes a word of a text: it has the address of the word in the
dictionary, or zero, its length, and its place, of which one byte is kept; and the word stands at
that place in the text buffer. -/
structure DescribesWord (dictionary : Dictionary) (memory : GameMemory) (text : Int) (offset : Nat)
    (address : Int) (start : Nat) (word : List Int) : Prop where
  found : ∃ key found, dictionary.codec.encrypt (dictionary.codec.zsciiTexts word) = .ok key ∧
    dictionary.lookupZscii memory.toImage word = .ok found ∧
    ((dictionary.isSorted = true → dictionary.Ascending memory.toImage) →
      dictionary.Finds memory.toImage key found) ∧
    memory.word address = .ok (Word.ofInt found)
  length : memory.byte (address + 2) = .ok word.length
  place : memory.byte (address + 3) = .ok ((start + offset) % 256)
  stands : memory.Carries (text + (start + offset : Nat)) (word.map Byte.ofInt)

/-- A parse table with room for a number of words describes the codes in a text buffer, which begin
at an offset in it. -/
structure Describes (dictionary : Dictionary) (memory : GameMemory) (text table : Int)
    (offset room : Nat) (codes : List Int) : Prop where
  stands : memory.Carries (text + offset) (codes.map Byte.ofInt)
  capacity : memory.byte table = .ok room
  count : memory.byte (table + 1) = .ok (min room (dictionary.split codes).length)
  entry : ∀ (index start : Nat) (word : List Int), index < room →
    (dictionary.split codes)[index]? = some (start, word) →
    dictionary.DescribesWord memory text offset (table + 2 + 4 * index) start word

/-- The three fields of an entry are read back, the place in one byte. -/
theorem entry_eq {address : Int} {offset start : Nat} {word : List Int}
    (carried : image.Carries address ((entryCodes find offset (start, word)).map Byte.ofInt))
    (short : word.length < 256) :
    image.word address = .ok (Word.ofInt (find word)) ∧
      image.byte (address + 2) = .ok word.length ∧
      image.byte (address + 3) = .ok ((start + offset) % 256) := by
  obtain ⟨first, second, third, fourth, -⟩ := carried
  have bound := Word.ofInt_lt (find word)
  have high : Word.high (Word.ofInt (find word)) < 256 := Nat.mod_lt _ (by decide)
  have low : Word.low (Word.ofInt (find word)) < 256 := Nat.mod_lt _ (by decide)
  rw [Image.toNat_byte_ofInt high] at first
  rw [Image.toNat_byte_ofInt low] at second
  rw [Image.toNat_byte_ofInt short, Int.add_assoc] at third
  rw [Int.add_assoc, Int.add_assoc] at fourth
  refine ⟨?_, third, fourth.trans (congrArg Except.ok ?_)⟩
  · rw [Image.word_of_bytes first second, Word.high_low bound]
  · unfold Byte.ofInt
    rw [UInt8.toNat_ofNat']
    omega

/-- A word of a text ends where the text does, or before. -/
theorem word_inside {codes word : List Int} {start : Nat}
    (member : (start, word) ∈ dictionary.split codes) :
    start + word.length ≤ codes.length ∧ word = (codes.drop start).take word.length ∧
      0 < word.length := by
  have splits := dictionary.splits_split codes
  exact ⟨(splits.within _ member).2, splits.stands _ member, splits.length_pos member⟩

/-- The bytes that a parse table is filled with describe the text. -/
theorem describes_of_carries {text table : Int} {offset room : Nat} {codes : List Int}
    (compact : dictionary.codec.Compact)
    (behind : ∀ index : Nat, 0 < dictionary.entryAddress index)
    (looks : ∀ word, dictionary.lookupZscii memory.toImage word = .ok (find word))
    (short : codes.length ≤ 255) (held : memory.byte table = .ok room)
    (stands : memory.Carries (text + offset) (codes.map Byte.ofInt))
    (entries : memory.Carries (table + 1)
      ((tableCodes find offset ((dictionary.split codes).take room)).map Byte.ofInt)) :
    dictionary.Describes memory text table offset room codes where
  stands := stands
  capacity := held
  count := by
    have small := Image.byte_lt held
    have few := List.length_take (i := room) (l := dictionary.split codes)
    refine (byte_of_carries ⟨by omega, by omega⟩ entries).1.trans ?_
    rw [Int.toNat_natCast, few]
  entry := by
    intro index start word inside found
    have kept : ((dictionary.split codes).take room)[index]? = some (start, word) := by
      rwa [List.getElem?_take_of_lt inside]
    obtain ⟨ends, part, -⟩ := word_inside (List.mem_of_getElem? found)
    obtain ⟨key, packed⟩ := compact.encrypt_eq_ok (dictionary.codec.zsciiTexts word)
    have bytes := carries_entry entries.2 kept
    rw [show table + 1 + 1 + 4 * (index : Int) = table + 2 + 4 * index by omega] at bytes
    obtain ⟨word_eq, length_eq, place_eq⟩ := entry_eq bytes (show word.length < 256 by omega)
    refine ⟨⟨key, find word, packed, looks word, fun sorted => ?_, word_eq⟩, length_eq, ?_, ?_⟩
    · exact finds_of_lookup behind sorted packed (looks word)
    · exact place_eq
    · have there := stands.part word.length (show start ≤ _ by
        rw [List.length_map]
        omega)
      rw [← List.map_drop, ← List.map_take, ← part] at there
      rwa [show text + offset + (start : Int) = text + (start + offset : Nat) by omega] at there

/-- Only the parse table is changed when the words of a line are written to it. -/
theorem changedWithin_table (memory : GameMemory) (find : List Int → Int) (textOffset : Int)
    {tokens : List Token} (table : Nat) {room : Nat} (few : tokens.length ≤ room) :
    memory.ChangedWithin (InParseTable table room)
      (memory.withCodes (table + 1) (tableCodes find textOffset tokens)) := by
  have length := length_tableCodes find textOffset tokens
  refine (GameMemory.ChangedWithin.refl _ memory).withCodes fun place least most => ?_
  exact ⟨by omega, by omega⟩

/-- A parse table that is written where it does not cover the text describes it. -/
theorem describes_withCodes {text : Int} {table offset room : Nat} {codes : List Int}
    (compact : dictionary.codec.Compact)
    (behind : ∀ index : Nat, 0 < dictionary.entryAddress index)
    (looks : ∀ after : GameMemory, memory.ChangedWithin (InParseTable table room) after →
      ∀ word, dictionary.lookupZscii after.toImage word = .ok (find word))
    (short : codes.length ≤ 255) (held : memory.byte table = .ok room)
    (stands : memory.Carries (text + offset) (codes.map Byte.ofInt))
    (apart : ∀ place, text + offset ≤ place → place < text + offset + codes.length →
      ¬ InParseTable table room place)
    (inside : table + 1 + 4 * room < memory.size) :
    dictionary.Describes
      (memory.withCodes (table + 1)
        (tableCodes find offset ((dictionary.split codes).take room))) text table offset room
      codes := by
  have few := List.length_take_le room (dictionary.split codes)
  have length := length_tableCodes find offset ((dictionary.split codes).take room)
  have changed := changedWithin_table memory find offset table few
  refine describes_of_carries compact behind (looks _ changed) short ?_ ?_ ?_
  · refine (changed.byte_eq ?_).trans held
    unfold InParseTable
    omega
  · refine changed.carries stands fun place least most => ?_
    rw [List.length_map] at most
    exact apart place least most
  · exact GameMemory.carries_withCodes (by omega)

/-! ## Changes beside a parse table -/

/-- The addresses that the keys of the entries are read from. -/
def InKeys (dictionary : Dictionary) (address : Int) : Prop :=
  ∃ index < dictionary.count, dictionary.entryAddress index ≤ address ∧
    address < dictionary.entryAddress index + dictionary.keyBytes

/-- An empty dictionary has no keys. -/
theorem not_inKeys_of_empty (empty : dictionary.count = 0) (address : Int) :
    ¬ dictionary.InKeys address := by
  rintro ⟨index, inside, -⟩
  omega

variable {other : GameMemory}

private theorem lookupZscii_of_changed (behind : ∀ index : Nat, 0 < dictionary.entryAddress index)
    (apart : ∀ place, dictionary.InKeys place → ¬ allowed place)
    (changed : memory.ChangedWithin allowed other) (word : List Int) :
    dictionary.lookupZscii other.toImage word = dictionary.lookupZscii memory.toImage word := by
  refine lookupZscii_congr (fun index inside => ?_) word
  refine key_congr (Int.le_of_lt (behind index)) (fun place least most => ?_) changed.size
  exact changed.bytes place (apart place ⟨index, inside, least, most⟩)

/-- Every word is looked up, and the same as long as no key changes. -/
theorem exists_find (compact : dictionary.codec.Compact)
    (behind : ∀ index : Nat, 0 < dictionary.entryAddress index)
    (apart : ∀ place, dictionary.InKeys place → ¬ allowed place) (memory : GameMemory) :
    ∃ find : List Int → Int, ∀ after : GameMemory, memory.ChangedWithin allowed after → ∀ word,
      dictionary.lookupZscii after.toImage word = .ok (find word) := by
  have looked (word : List Int) :
      ∃ found, dictionary.lookupZscii memory.toImage word = .ok found := by
    obtain ⟨key, packed⟩ := compact.encrypt_eq_ok (dictionary.codec.zsciiTexts word)
    unfold lookupZscii lookup
    rw [packed]
    exact ⟨_, rfl⟩
  choose find looked using looked
  refine ⟨find, fun after changed word => ?_⟩
  exact (lookupZscii_of_changed behind apart changed word).trans (looked word)

/-- A parse table still describes the text after a change of neither of them and of no key. -/
theorem Describes.of_changed {text table : Int} {offset room : Nat} {codes : List Int}
    (describes : dictionary.Describes memory text table offset room codes)
    (behind : ∀ index : Nat, 0 < dictionary.entryAddress index)
    (changed : memory.ChangedWithin allowed other)
    (keys : ∀ place, dictionary.InKeys place → ¬ allowed place)
    (line : ∀ place, text + offset ≤ place → place < text + offset + codes.length →
      ¬ allowed place)
    (entries : ∀ place, table ≤ place → place ≤ table + 1 + 4 * room → ¬ allowed place) :
    dictionary.Describes other text table offset room codes := by
  have byte {address : Int} (least : table ≤ address) (most : address ≤ table + 1 + 4 * room) :
      other.byte address = memory.byte address :=
    changed.byte_eq (entries address least most)
  refine ⟨?_, ?_, ?_, ?_⟩
  · refine changed.carries describes.stands fun place least most => ?_
    rw [List.length_map] at most
    exact line place least most
  · exact (byte (Int.le_refl table) (by omega)).trans describes.capacity
  · exact (byte (by omega) (by omega)).trans describes.count
  · intro index start word inside found
    obtain ⟨⟨key, address, packed, looked, -, held⟩, length, place, stands⟩ :=
      describes.entry index start word inside found
    have ends := (word_inside (List.mem_of_getElem? found)).1
    have looks := lookupZscii_of_changed behind keys changed word
    refine ⟨⟨key, address, packed, looks.trans looked, fun sorted => ?_, ?_⟩, ?_, ?_, ?_⟩
    · exact finds_of_lookup behind sorted packed (looks.trans looked)
    · unfold Image.word at held ⊢
      rw [byte (by omega) (by omega), byte (by omega) (by omega)]
      exact held
    · rw [byte (by omega) (by omega)]
      exact length
    · rw [byte (by omega) (by omega)]
      exact place
    · refine changed.carries stands fun there least most => ?_
      rw [List.length_map] at most
      exact line there (by omega) (by omega)

end Dictionary

/-- A loaded story has a dictionary that was read for its codec. -/
theorem Story.dictionary_of_load {data : Array UInt8} {story : Story} {memory : GameMemory}
    (loaded : load data = .ok (story, memory)) :
    ∃ image address, Dictionary.load story.codec image address = .ok story.dictionary := by
  unfold load at loaded
  obtain ⟨image, -, loaded⟩ := Result.bind_eq_ok loaded
  obtain ⟨version, -, loaded⟩ := Result.bind_eq_ok loaded
  dsimp only at loaded
  split at loaded
  · cases loaded
  · obtain ⟨table, -, loaded⟩ := Result.bind_eq_ok loaded
    obtain ⟨codec, -, loaded⟩ := Result.bind_eq_ok loaded
    obtain ⟨dictionary, read, loaded⟩ := Result.bind_eq_ok loaded
    cases loaded
    exact ⟨image, _, read⟩

end StoryMachine
