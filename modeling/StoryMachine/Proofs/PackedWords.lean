import StoryMachine.Instruction.Decode
import StoryMachine.Proofs.PackedText

/-!
# Packed words

The words of a string are read up to the first one with the end bit, or as many
as a number of bytes has. Where the number is that of the string, both readings
meet the same words. Packing undoes either of them: the zchars of a string are
packed into the bytes that they came from, and packed zchars are read back.
-/

namespace StoryMachine

open Codec (IsZchar packWord pack)

/-! ## One word -/

/-- A word holds zchars. -/
theorem isZchar_of_mem_wordZchars {word : Nat} {zchar : Int} (member : zchar ∈ wordZchars word) :
    IsZchar zchar := by
  simp only [wordZchars, List.mem_cons, List.not_mem_nil, or_false] at member
  unfold IsZchar
  omega

/-- Three fields of five bits and the end bit are all that there is of a word. -/
theorem word_inj {word other : Nat} (small : word < 0x10000) (small' : other < 0x10000)
    (zchars : wordZchars word = wordZchars other) (ends : wordEnds word = wordEnds other) :
    word = other := by
  simp only [wordZchars, List.cons.injEq, and_true] at zchars
  simp only [wordEnds, decide_eq_decide] at ends
  omega

namespace Image

variable {image : Image} {address : Int}

/-- The zchars and the end bit of a word that stands in an image are packed into its two bytes. -/
theorem packWord_of_word {word : Nat} (read : image.word address = .ok word) :
    ∃ high low : UInt8, packWord (word / 1024 % 32 : Nat) (word / 32 % 32 : Nat) (word % 32 : Nat)
      (wordEnds word) = .ok [high, low] ∧ image.Carries address [high, low] := by
  have zchars (zchar : Int) (member : zchar ∈ wordZchars word) : IsZchar zchar :=
    isZchar_of_mem_wordZchars member
  simp only [wordZchars, List.forall_mem_cons] at zchars
  obtain ⟨one, two, three, -⟩ := zchars
  obtain ⟨high, low, packed, same, ends⟩ := Codec.packWord_eq one two three (wordEnds word)
  have small := high.toNat_lt
  have small' := low.toNat_lt
  have whole : high.toNat * 256 + low.toNat = word :=
    word_inj (by omega) (word_lt read) same ends
  obtain ⟨first, second, parts⟩ := word_eq_ok read
  have bound := image.peek_lt (address + 1).toNat
  refine ⟨high, low, packed, ?_, ?_, trivial⟩
  · rw [byte_of_holds first, show image.peek address.toNat = high.toNat by omega]
  · rw [byte_of_holds second, show image.peek (address + 1).toNat = low.toNat by omega]

/-! ## The words of a string -/

/-- The words of the string at an address: the first one with the end bit is the last. -/
inductive StringAt (image : Image) : Int → List Nat → Prop
  | last {address : Int} {word : Nat} (read : image.word address = .ok word)
      (ends : wordEnds word = true) : image.StringAt address [word]
  | more {address : Int} {word : Nat} {words : List Nat} (read : image.word address = .ok word)
      (goesOn : wordEnds word = false) (rest : image.StringAt (address + 2) words) :
      image.StringAt address (word :: words)

/-- So many words stand at an address, and of these the last one alone has the end bit. -/
def EndsAfter (image : Image) (address : Int) (words : Nat) : Prop :=
  0 < words ∧ ∀ index < words, ∃ word, image.word (address + 2 * index) = .ok word ∧
    wordEnds word = decide (index + 1 = words)

private theorem inside_of_word {word : Nat} (read : image.word address = .ok word) :
    image.Holds address ∧ image.Holds (address + 1) := by
  obtain ⟨first, second, -⟩ := word_eq_ok read
  exact ⟨first, second⟩

/-- The zchars up to the end bit are those of the words of a string. -/
theorem exists_stringAt {zchars : List Int} (read : image.zcharsToEnd address = .ok zchars) :
    ∃ words, image.StringAt address words ∧ zchars = words.flatMap wordZchars := by
  fun_induction zcharsToEnd image address generalizing zchars with
  | case1 address inside ih =>
      obtain ⟨word, found, read⟩ := Result.bind_eq_ok read
      cases ends : wordEnds word with
      | true =>
          simp only [ends, ↓reduceIte] at read
          cases read
          exact ⟨[word], .last found ends, by simp⟩
      | false =>
          simp only [ends, Bool.false_eq_true, ↓reduceIte] at read
          obtain ⟨rest, more, read⟩ := Result.bind_eq_ok read
          cases read
          obtain ⟨words, spelled, rfl⟩ := ih more
          exact ⟨word :: words, .more found ends spelled, by simp⟩
  | case2 address outside =>
      obtain ⟨word, found, -⟩ := Result.bind_eq_ok read
      exact absurd (inside_of_word found) outside

namespace StringAt

variable {words : List Nat}

/-- A string has at least one word. -/
theorem ne_nil (spelled : image.StringAt address words) : words ≠ [] := by
  cases spelled <;> exact List.cons_ne_nil _ _

private theorem zcharsToEnd (spelled : image.StringAt address words) :
    image.zcharsToEnd address = .ok (words.flatMap wordZchars) := by
  induction spelled with
  | last read ends =>
      rw [Image.zcharsToEnd, dif_pos (inside_of_word read), read, Result.ok_bind, if_pos ends,
        List.flatMap_singleton]
      rfl
  | more read goesOn rest ih =>
      rw [Image.zcharsToEnd, dif_pos (inside_of_word read), read, Result.ok_bind, goesOn, ih]
      rfl

/-- The end bits of the words make no difference to a reading that counts the words. -/
theorem zcharsOfWords (spelled : image.StringAt address words) :
    image.zcharsOfWords address words.length = .ok (words.flatMap wordZchars) := by
  induction spelled with
  | last read ends =>
      simp only [List.length_singleton, Image.zcharsOfWords, read, Result.ok_bind]
      rfl
  | more read goesOn rest ih =>
      simp only [List.length_cons, Image.zcharsOfWords, read, ih, Result.ok_bind]
      rfl

private theorem endsAfter (spelled : image.StringAt address words) :
    image.EndsAfter address words.length := by
  induction spelled with
  | last read ends =>
      refine ⟨Nat.one_pos, ?_⟩
      intro index first
      obtain rfl : index = 0 := by simpa using first
      exact ⟨_, by simpa using read, ends⟩
  | @more address word words read goesOn rest ih =>
      refine ⟨Nat.succ_pos _, ?_⟩
      intro index inside
      cases index with
      | zero =>
          have longer : 0 < words.length := List.length_pos_iff.mpr rest.ne_nil
          refine ⟨word, by simpa using read, ?_⟩
          rw [goesOn, List.length_cons, decide_eq_false (by omega)]
      | succ index =>
          obtain ⟨next, found, marked⟩ := ih.2 index (Nat.lt_of_succ_lt_succ inside)
          have place : address + 2 * (index + 1 : Nat) = address + 2 + 2 * index := by omega
          refine ⟨next, place ▸ found, ?_⟩
          simp only [marked, List.length_cons, Nat.add_right_cancel_iff]

/-- The zchars of a string are packed into the bytes of its words. -/
theorem pack (spelled : image.StringAt address words) :
    ∃ bytes, Codec.pack (words.flatMap wordZchars) = .ok bytes ∧
      bytes.length = 2 * words.length ∧ image.Carries address bytes := by
  induction spelled with
  | last read ends =>
      obtain ⟨high, low, packed, carried⟩ := packWord_of_word read
      rw [ends] at packed
      refine ⟨[high, low], ?_, rfl, carried⟩
      simp only [List.flatMap_cons, List.flatMap_nil, wordZchars, List.append_nil, Codec.pack,
        List.isEmpty_nil, packed]
      rfl
  | @more address word words read goesOn rest ih =>
      obtain ⟨high, low, packed, carried⟩ := packWord_of_word read
      obtain ⟨bytes, others, length, later⟩ := ih
      rw [goesOn] at packed
      have longer : (words.flatMap wordZchars).isEmpty = false := by
        obtain ⟨next, more, rfl⟩ := List.exists_cons_of_ne_nil rest.ne_nil
        rfl
      refine ⟨[high, low] ++ bytes, ?_, ?_, carries_append.mpr ⟨carried, later⟩⟩
      · simp only [List.flatMap_cons, wordZchars, List.cons_append, List.nil_append, Codec.pack,
          longer, packed, others]
        rfl
      · simp only [List.cons_append, List.nil_append, List.length_cons, length]
        omega

/-- A word of text holds three zchars. -/
theorem length_zchars (words : List Nat) :
    (words.flatMap wordZchars).length = 3 * words.length := by
  induction words with
  | nil => rfl
  | cons word words ih =>
      rw [List.flatMap_cons, List.length_append, ih, List.length_cons]
      simp only [wordZchars, List.length_cons, List.length_nil]
      omega

/-- A string that is read by its number of bytes is read as it is up to its end bit. -/
theorem zchars_eq (spelled : image.StringAt address words) :
    image.zchars address (2 * words.length : Nat) = .ok (words.flatMap wordZchars) := by
  have longer : 0 < words.length := List.length_pos_iff.mpr spelled.ne_nil
  have count : ((((2 * words.length : Nat) : Int) + 1) / 2).toNat = words.length := by omega
  rw [Image.zchars, if_pos (by omega), count, spelled.zcharsOfWords]

end StringAt

/-- The length of a string is that of its words. -/
theorem stringLength_eq_ok {length : Nat} (measured : image.stringLength address = .ok length) :
    ∃ words, image.StringAt address words ∧ length = 2 * words.length := by
  obtain ⟨zchars, read, measured⟩ := Result.bind_eq_ok measured
  obtain ⟨words, spelled, rfl⟩ := exists_stringAt read
  cases measured
  refine ⟨words, spelled, ?_⟩
  rw [StringAt.length_zchars]
  omega

end Image

namespace Codec

/-! ## Round trips -/

variable {image : Image} {address : Int} {length words : Nat} {zchars : List Int}

/-- Packed zchars are read back from wherever they stand. -/
theorem pack_read_back (some : zchars ≠ []) (all : ∀ zchar ∈ zchars, IsZchar zchar)
    (whole : zchars.length = 3 * words) :
    ∃ bytes, pack zchars = .ok bytes ∧ bytes.length = 2 * words ∧
      ∀ (image : Image) (address : Int), image.Carries address bytes →
        image.zcharsToEnd address = .ok zchars ∧
          image.zchars address bytes.length = .ok zchars ∧ image.EndsAfter address words := by
  obtain ⟨bytes, packed⟩ := pack_of_isZchar all whole
  have size : bytes.length = 2 * words := by
    have alone : Image.Carries ⟨bytes.toArray⟩ 0 bytes :=
      Image.carries_of_toList [] bytes [] (by simp)
    obtain ⟨-, length⟩ := zcharsToEnd_of_pack all some packed alone
    omega
  refine ⟨bytes, packed, size, fun image address carried => ?_⟩
  obtain ⟨read, -⟩ := zcharsToEnd_of_pack all some packed carried
  obtain ⟨found, spelled, rfl⟩ := Image.exists_stringAt read
  rw [Image.StringAt.length_zchars] at whole
  obtain rfl : found.length = words := by omega
  rw [size]
  exact ⟨read, spelled.zchars_eq, spelled.endsAfter⟩

/-- A string is packed into its own bytes again. -/
theorem pack_of_stringLength (measured : image.stringLength address = .ok length) :
    ∃ zchars bytes, image.zcharsToEnd address = .ok zchars ∧ pack zchars = .ok bytes ∧
      bytes.length = length ∧ image.Carries address bytes := by
  obtain ⟨words, spelled, rfl⟩ := Image.stringLength_eq_ok measured
  obtain ⟨bytes, packed, count, carried⟩ := spelled.pack
  exact ⟨_, bytes, spelled.zcharsToEnd, packed, count, carried⟩

private theorem decode_of_stringLength (measured : image.stringLength address = .ok length)
    (codec : Codec) : codec.decode image address length = codec.decode image address := by
  obtain ⟨words, spelled, rfl⟩ := Image.stringLength_eq_ok measured
  rw [decode, decode, spelled.zchars_eq, Image.zchars, if_neg (by decide), spelled.zcharsToEnd]

/-- The string of an instruction is what its length says, and ends there. -/
theorem readText_of_stringLength (measured : image.stringLength address = .ok length)
    (codec : Codec) (tables : Option Image) :
    Instruction.readText codec tables image address = do
      let text ← image.zchars address length >>= codec.decodeZchars tables
      return (text, address + length) := by
  obtain ⟨words, spelled, rfl⟩ := Image.stringLength_eq_ok measured
  have stop : (words.flatMap wordZchars).length / 3 * 2 = 2 * words.length := by
    rw [Image.StringAt.length_zchars]
    omega
  rw [Instruction.readText, spelled.zcharsToEnd, spelled.zchars_eq]
  simp only [Result.ok_bind, ← stop]
  push_cast
  rfl

/-- Zchars that fill words are read back from wherever they are packed, by the end bit as well as by
their number of bytes, and the end bit is that of the last word. A string that stands anywhere is
packed into its own bytes again, and is decoded alike by its end bit and by its length; so a string
inside an instruction ends where its length says. -/
theorem packed_words_round_trip :
    (∀ (zchars : List Int) (words : Nat), zchars ≠ [] → (∀ zchar ∈ zchars, IsZchar zchar) →
      zchars.length = 3 * words →
      ∃ bytes, pack zchars = .ok bytes ∧ bytes.length = 2 * words ∧
        ∀ (image : Image) (address : Int), image.Carries address bytes →
          image.zcharsToEnd address = .ok zchars ∧
            image.zchars address bytes.length = .ok zchars ∧ image.EndsAfter address words) ∧
    ∀ (image : Image) (address : Int) (length : Nat), image.stringLength address = .ok length →
      (∃ zchars bytes, image.zcharsToEnd address = .ok zchars ∧ pack zchars = .ok bytes ∧
        bytes.length = length ∧ image.Carries address bytes) ∧
      (∀ codec : Codec, codec.decode image address length = codec.decode image address) ∧
      ∀ (codec : Codec) (tables : Option Image),
        Instruction.readText codec tables image address = do
          let text ← image.zchars address length >>= codec.decodeZchars tables
          return (text, address + length) := by
  constructor
  · intro zchars words some all whole
    exact pack_read_back some all whole
  · intro image address length measured
    exact ⟨pack_of_stringLength measured, decode_of_stringLength measured,
      readText_of_stringLength measured⟩

/-- Two words with a zchar of each kind, behind another byte: packed, read back, and decoded by
their four bytes. -/
theorem packed_words_round_trip_two :
    (∃ bytes, pack [13, 31, 0, 5, 5, 17] = .ok bytes ∧ bytes.length = 4 ∧
      ∀ (image : Image) (address : Int), image.Carries address bytes →
        image.zcharsToEnd address = .ok [13, 31, 0, 5, 5, 17] ∧
          image.zchars address bytes.length = .ok [13, 31, 0, 5, 5, 17] ∧
          image.EndsAfter address 2) ∧
    ∀ codec : Codec, codec.decode ⟨#[9, 0x37, 0xe0, 0x94, 0xb1]⟩ 1 4 =
      codec.decode ⟨#[9, 0x37, 0xe0, 0x94, 0xb1]⟩ 1 := by
  obtain ⟨packed, placed⟩ := packed_words_round_trip
  have measured : Image.stringLength ⟨#[9, 0x37, 0xe0, 0x94, 0xb1]⟩ 1 = .ok 4 := by
    decide +kernel
  exact ⟨packed _ 2 (List.cons_ne_nil _ _) (by unfold IsZchar; decide) rfl,
    (placed _ 1 4 measured).2.1⟩

end Codec

end StoryMachine
