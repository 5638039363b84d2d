import StoryMachine.Proofs.Alphabets

/-!
# Packed text

Text that is encoded, packed into words and placed in memory reads back as the
same text, and its length in memory is known from the end bit alone. The
characters are packed one after the other with temporary shifts only, so before
each of them, and before the padding at the end, the decoder is back where it
started.
-/

namespace StoryMachine

namespace Codec

/-! ## Words -/

/-- The four parts of a word stand in different bits, so joining them is adding them. -/
theorem joined_eq_add {first second third : Nat} (one : first < 32) (two : second < 32)
    (three : third < 32) (last : Bool) :
    (first * 1024 ||| second * 32 ||| third ||| if last then 0x8000 else 0) =
      (if last then 0x8000 else 0) + (first * 1024 + (second * 32 + third)) := by
  have low : second * 32 ||| third = second * 32 + third := by
    rw [Nat.mul_comm second]
    exact (Nat.two_pow_add_eq_or_of_lt (i := 5) three second).symm
  have middle : first * 1024 ||| (second * 32 + third) = first * 1024 + (second * 32 + third) := by
    rw [Nat.mul_comm first]
    exact (Nat.two_pow_add_eq_or_of_lt (i := 10) (by omega) first).symm
  rw [Nat.or_assoc (first * 1024), low, middle, Nat.or_comm]
  cases last with
  | false => simp
  | true => exact (Nat.two_pow_add_eq_or_of_lt (i := 15) (by omega) 1).symm

/-- The two bytes of a word give it back. -/
theorem toNat_pair {word : Nat} (bound : word < 65536) :
    (UInt8.ofNat (word / 256)).toNat * 256 + (UInt8.ofNat (word % 256)).toNat = word := by
  simp only [UInt8.toNat_ofNat', Nat.reducePow]
  omega

/-- The two bytes of a packed word hold its zchars and its end bit. -/
theorem packWord_eq {first second third : Int} (one : IsZchar first) (two : IsZchar second)
    (three : IsZchar third) (last : Bool) :
    ∃ high low : UInt8, packWord first second third last = .ok [high, low] ∧
      wordZchars (high.toNat * 256 + low.toNat) = [first, second, third] ∧
      wordEnds (high.toNat * 256 + low.toNat) = last := by
  obtain ⟨a, rfl⟩ := Int.eq_ofNat_of_zero_le one.1
  obtain ⟨b, rfl⟩ := Int.eq_ofNat_of_zero_le two.1
  obtain ⟨c, rfl⟩ := Int.eq_ofNat_of_zero_le three.1
  have small : a < 32 ∧ b < 32 ∧ c < 32 := by
    unfold IsZchar at one two three
    omega
  obtain ⟨mark, marked, few, named⟩ : ∃ mark, (if last then 0x8000 else 0) = mark * 0x8000 ∧
      mark < 2 ∧ decide (mark = 1) = last := by
    cases last with
    | false => exact ⟨0, by decide⟩
    | true => exact ⟨1, by decide⟩
  obtain ⟨word, total⟩ : ∃ word, mark * 0x8000 + (a * 1024 + (b * 32 + c)) = word := ⟨_, rfl⟩
  have bound : word < 65536 := by omega
  have parts : word / 1024 % 32 = a ∧ word / 32 % 32 = b ∧ word % 32 = c := by omega
  have top : word / 0x8000 % 2 = mark := by omega
  have joined : (a * 1024 ||| b * 32 ||| c ||| if last then 0x8000 else 0) = word := by
    rw [joined_eq_add small.1 small.2.1 small.2.2 last, marked, total]
  refine ⟨UInt8.ofNat (word / 256), UInt8.ofNat (word % 256), ?_, ?_, ?_⟩
  · unfold packWord
    simp only [Int.toNat_natCast, joined]
    rw [if_neg (by omega), if_neg (by omega)]
  · rw [toNat_pair bound, wordZchars, parts.1, parts.2.1, parts.2.2]
  · rw [toNat_pair bound, wordEnds, top, named]

/-- Packed zchars are read back up to the last word, and every word takes two bytes. -/
theorem zcharsToEnd_of_pack {zchars : List Int} (all : ∀ zchar ∈ zchars, IsZchar zchar)
    (some : zchars ≠ []) {bytes : List UInt8} (packed : pack zchars = .ok bytes) {image : Image}
    {address : Int} (carried : image.Carries address bytes) :
    image.zcharsToEnd address = .ok zchars ∧ bytes.length = zchars.length / 3 * 2 := by
  fun_induction pack zchars generalizing address bytes with
  | case1 => exact absurd rfl some
  | case2 => cases packed
  | case3 => cases packed
  | case4 first second third rest ih =>
      simp only [List.forall_mem_cons] at all
      obtain ⟨one, two, three, others⟩ := all
      obtain ⟨high, low, word, zchars, ends⟩ := packWord_eq one two three rest.isEmpty
      obtain ⟨_, same, packed⟩ := Result.bind_eq_ok packed
      cases word.symm.trans same
      obtain ⟨words, more, packed⟩ := Result.bind_eq_ok packed
      cases packed
      obtain ⟨⟨highRead, lowRead, -⟩, later⟩ := Image.carries_append.mp carried
      have inside := And.intro (Image.byte_eq_ok highRead).1 (Image.byte_eq_ok lowRead).1
      rw [Image.zcharsToEnd, dif_pos inside, Image.word_of_bytes highRead lowRead, Result.ok_bind,
        ends, zchars]
      cases rest with
      | nil =>
          cases more
          exact ⟨rfl, by simp⟩
      | cons next rest =>
          obtain ⟨read, length⟩ := ih others (List.cons_ne_nil _ _) more later
          rw [show ([high, low].length : Int) = 2 from rfl] at read
          rw [read]
          refine ⟨rfl, ?_⟩
          rw [List.length_append, length]
          simp only [List.length_cons, List.length_nil]
          omega

end Codec

/-! ## Characters -/

namespace Decoder

/-- A decoder between two characters: no alphabet is locked or shifted to, and nothing is begun.
What it was fed last does not matter. -/
def ready (previous : Int) (allowAbbreviations : Bool) : Decoder :=
  { previous, allowAbbreviations }

/-- Zchars that print a text whenever a decoder is between two characters, and leave it so. -/
def Prints (feed : Int → Action Decoder Text) (zchars : List Int) (text : Text) : Prop :=
  ∀ previous allow, ∃ texts last,
    feedAll feed zchars (ready previous allow) = .ok texts (ready last allow) ∧ texts.flatten = text

variable {feed : Int → Action Decoder Text}

private theorem feedAll_cons {zchar : Int} {rest : List Int} {text : Text} {texts : List Text}
    {decoder between after : Decoder} (first : feed zchar decoder = .ok text between)
    (later : feedAll feed rest between = .ok texts after) :
    feedAll feed (zchar :: rest) decoder = .ok (text :: texts) after := by
  unfold feedAll
  rw [Action.bind_of_ok first, Action.bind_of_ok later]
  rfl

private theorem feedAll_append {front back : List Int} {texts others : List Text}
    {decoder between after : Decoder} (first : feedAll feed front decoder = .ok texts between)
    (later : feedAll feed back between = .ok others after) :
    feedAll feed (front ++ back) decoder = .ok (texts ++ others) after := by
  induction front generalizing decoder texts with
  | nil =>
      cases first
      exact later
  | cons zchar rest ih =>
      obtain ⟨text, fed, one, first⟩ := Action.bind_eq_ok first
      obtain ⟨more, reached, two, first⟩ := Action.bind_eq_ok first
      cases first
      exact feedAll_cons one (ih two)

private theorem Prints.nil : Prints feed [] [] :=
  fun previous _ => ⟨[], previous, rfl, rfl⟩

private theorem Prints.append {front back : List Int} {text other : Text} (first : Prints feed front text)
    (later : Prints feed back other) : Prints feed (front ++ back) (text ++ other) := by
  intro previous allow
  obtain ⟨texts, middle, fed, rfl⟩ := first previous allow
  obtain ⟨others, last, more, rfl⟩ := later middle allow
  exact ⟨texts ++ others, last, feedAll_append fed more, List.flatten_append⟩

variable {codec : Codec} {expand : Int → Result Text} {decoder after : Decoder} {zchar : Int}
  {text : Text}

private theorem feedWith_of_plain (plain : decoder.expecting = .character)
    (fed : feedPlain codec zchar decoder = .ok text after) :
    feedWith expand codec zchar decoder = .ok text { after with previous := zchar } := by
  unfold feedWith feedExpected
  simp only [plain, fed]

/-- A place in an alphabet prints the character there, unless it is the escape, which is the first
place of the third alphabet. -/
theorem feedPlain_letter {index : Nat} {c : CodePoint}
    (found : (codec.alphabets.get decoder.alphabet)[index]? = some c)
    (letter : decoder.alphabet = 2 → index ≠ 0) :
    feedPlain codec ((index : Int) + 6) decoder = .ok [c] { decoder with shifted := none } := by
  have place : ((index : Int) + 6 - 6).toNat = index := by omega
  have unescaped : ¬ ((index : Int) + 6 = 6 ∧ decoder.alphabet = 2) := by
    rintro ⟨first, third⟩
    exact letter third (by omega)
  unfold feedPlain
  rw [if_neg (by omega), if_neg (by omega), if_neg unescaped, place, found]

/-- The temporary shifts of a version lead to the second and the third alphabet. -/
theorem feedPlain_shift (known : 1 ≤ codec.version) (unlocked : decoder.locked = 0) :
    feedPlain codec codec.shifts.1 decoder = .ok [] { decoder with shifted := some 1 } ∧
      feedPlain codec codec.shifts.2 decoder = .ok [] { decoder with shifted := some 2 } := by
  by_cases early : codec.version < 3
  · have numbers : codec.version = 1 ∨ codec.version = 2 := by omega
    rcases numbers with one | two
    · simp [feedPlain, feedControl, Codec.shifts, Codec.abbreviationCodes, shift, one, unlocked]
    · simp [feedPlain, feedControl, Codec.shifts, Codec.abbreviationCodes, shift, two, unlocked]
  · have later : codec.version ≠ 1 ∧ codec.version ≠ 2 := by omega
    simp [feedPlain, feedControl, Codec.shifts, Codec.abbreviationCodes, early, later]

private theorem prints_space : Prints (feedWith expand codec) [0] [0x20] :=
  fun _ _ => ⟨[[0x20]], 0, feedAll_cons (feedWith_of_plain rfl rfl) rfl, rfl⟩

/-- A place in the first alphabet needs no shift. -/
theorem prints_lower {index : Nat} {c : CodePoint}
    (found : codec.alphabets.lower[index]? = some c) :
    Prints (feedWith expand codec) [(index : Int) + 6] [c] := by
  intro previous allow
  have printed : feedPlain codec ((index : Int) + 6) (ready previous allow) =
      .ok [c] (ready previous allow) :=
    feedPlain_letter found (by simp [alphabet, ready])
  have fed : feedWith expand codec ((index : Int) + 6) (ready previous allow) =
      .ok [c] (ready ((index : Int) + 6) allow) :=
    feedWith_of_plain rfl printed
  exact ⟨[[c]], (index : Int) + 6, feedAll_cons fed rfl, rfl⟩

/-- A place in another alphabet prints its character after the shift to that alphabet. -/
theorem prints_shifted {shift : Int} {number index : Nat} {c : CodePoint}
    (shifts : ∀ decoder : Decoder, decoder.locked = 0 →
      feedPlain codec shift decoder = .ok [] { decoder with shifted := some number })
    (found : (codec.alphabets.get number)[index]? = some c) (letter : number = 2 → index ≠ 0) :
    Prints (feedWith expand codec) [shift, (index : Int) + 6] [c] := by
  intro previous allow
  have first : feedWith expand codec shift (ready previous allow) =
      .ok [] { ready shift allow with shifted := some number } :=
    feedWith_of_plain rfl (shifts _ rfl)
  have printed : feedPlain codec ((index : Int) + 6)
      { ready shift allow with shifted := some number } = .ok [c] (ready shift allow) :=
    feedPlain_letter found letter
  have second : feedWith expand codec ((index : Int) + 6)
      { ready shift allow with shifted := some number } =
      .ok [c] (ready ((index : Int) + 6) allow) :=
    feedWith_of_plain rfl printed
  exact ⟨[[], [c]], (index : Int) + 6, feedAll_cons first (feedAll_cons second rfl), rfl⟩

private theorem escapedCode_div_mod (code : Nat) :
    escapedCode (code / 32 : Nat) (code % 32 : Nat) = code := by
  have joined : code / 32 * 32 ||| code % 32 = code := by
    rw [Nat.mul_comm, ← Nat.two_pow_add_eq_or_of_lt (i := 5) (Nat.mod_lt _ (by decide))]
    exact Nat.div_add_mod code 32
  unfold escapedCode
  rw [if_pos ⟨Int.natCast_nonneg _, Int.natCast_nonneg _⟩, Int.toNat_natCast, Int.toNat_natCast,
    joined]

/-- A code after an escape prints its text. -/
theorem prints_escaped {shift : Int}
    (shifts : ∀ decoder : Decoder, decoder.locked = 0 →
      feedPlain codec shift decoder = .ok [] { decoder with shifted := some 2 }) (code : Nat) :
    Prints (feedWith expand codec) [shift, 6, (code / 32 : Nat), (code % 32 : Nat)]
      (codec.zsciiText code) := by
  intro previous allow
  have first : feedWith expand codec shift (ready previous allow) =
      .ok [] { ready shift allow with shifted := some 2 } :=
    feedWith_of_plain rfl (shifts _ rfl)
  have begun : feedPlain codec 6 { ready shift allow with shifted := some 2 } =
      .ok [] { ready shift allow with expecting := .codeHigh } :=
    rfl
  have escape : feedWith expand codec 6 { ready shift allow with shifted := some 2 } =
      .ok [] { ready 6 allow with expecting := .codeHigh } :=
    feedWith_of_plain rfl begun
  have high : feedWith expand codec (code / 32 : Nat)
      { ready 6 allow with expecting := .codeHigh } =
      .ok [] { ready (code / 32 : Nat) allow with expecting := .codeLow } :=
    rfl
  have low : feedWith expand codec (code % 32 : Nat)
      { ready (code / 32 : Nat) allow with expecting := .codeLow } =
      .ok (codec.zsciiText code) (ready (code % 32 : Nat) allow) := by
    have joined := escapedCode_div_mod code
    simp only [feedWith, feedExpected, ready, joined]
  refine ⟨[[], [], [], codec.zsciiText code], (code % 32 : Nat), ?_, by simp⟩
  exact feedAll_cons first (feedAll_cons escape (feedAll_cons high (feedAll_cons low rfl)))

/-- The padding shifts, and prints nothing. -/
theorem feedPlain_padding (codec : Codec) (decoder : Decoder) :
    ∃ after, feedPlain codec Codec.padding decoder = .ok [] after ∧
      after.expecting = decoder.expecting := by
  have shift : codec.abbreviationCodes.contains 5 = false := by
    unfold Codec.abbreviationCodes
    split_ifs <;> rfl
  unfold Codec.padding feedPlain feedControl
  simp only [Int.reduceEq, Int.reduceLT, false_and, shift, Bool.false_eq_true, ↓reduceIte]
  split
  · refine ⟨_, rfl, ?_⟩
    unfold Decoder.shift
    split <;> rfl
  · exact ⟨_, rfl, rfl⟩

private theorem feedAll_padding (decoder : Decoder) (plain : decoder.expecting = .character)
    (count : Nat) :
    ∃ texts after, feedAll (feedWith expand codec) (List.replicate count Codec.padding) decoder =
      .ok texts after ∧ texts.flatten = [] := by
  induction count generalizing decoder with
  | zero => exact ⟨[], decoder, rfl, rfl⟩
  | succ count ih =>
      obtain ⟨between, fed, same⟩ := feedPlain_padding codec decoder
      have first : feedWith expand codec Codec.padding decoder =
          .ok [] { between with previous := Codec.padding } :=
        feedWith_of_plain plain fed
      have still : { between with previous := Codec.padding }.expecting = .character :=
        same.trans plain
      obtain ⟨texts, after, later, silent⟩ := ih _ still
      exact ⟨[] :: texts, after, feedAll_cons first later, silent⟩

end Decoder

/-! ## Texts -/

private theorem getElem?_of_findIdx? {characters : Text} {c : CodePoint} {index : Nat}
    (found : characters.findIdx? (· == c) = some index) : characters[index]? = some c := by
  obtain ⟨inside, same, -⟩ := List.findIdx?_eq_some_iff_getElem.mp found
  rw [List.getElem?_eq_getElem inside, beq_iff_eq.mp same]

/-- The code of a character prints that character. A carriage return shares its code with the line
end. -/
theorem Zscii.toText_of_ofCodePoint? {extras : Text} {c : CodePoint} {code : Int}
    (coded : ofCodePoint? extras c = some code) (plain : c ≠ 0x0d) :
    0 ≤ code ∧ toText extras code = [c] := by
  unfold ofCodePoint? at coded
  split at coded
  · rename_i line
    cases coded
    rw [line.resolve_right plain]
    exact ⟨by decide, rfl⟩
  split at coded
  · rename_i printable
    have low : (32 : Nat) ≤ c := printable.1
    have high : ¬ (126 : Nat) < c := Nat.not_lt.mpr printable.2
    cases coded
    refine ⟨Int.natCast_nonneg c, ?_⟩
    unfold toText newline
    rw [if_neg (by omega), if_neg (by omega), if_neg (by omega), if_pos (by omega),
      Int.toNat_natCast]
  · cases found : extras.findIdx? (· == c) with
    | none =>
        rw [found] at coded
        cases coded
    | some index =>
        rw [found] at coded
        cases coded
        have place : (155 + (index : Int) - 155).toNat = index := by omega
        change 0 ≤ (155 + (index : Int)) ∧ toText extras (155 + (index : Int)) = [c]
        unfold toText newline firstExtra
        refine ⟨by omega, ?_⟩
        rw [if_neg (by omega), if_neg (by omega), if_neg (by omega), if_neg (by omega),
          if_pos (by omega), place, getElem?_of_findIdx? found]

namespace Codec

variable {codec : Codec} {expand : Int → Result Text}

/-- A character that text can hold: a space, a letter of an alphabet, or one that has a code. A
carriage return is not, for it reads back as a line end. -/
def Spells (codec : Codec) (c : CodePoint) : Prop :=
  c ≠ 0x0d ∧ (c = 0x20 ∨ c ∈ codec.alphabets.lower ∨ c ∈ codec.alphabets.upper ∨
    c ∈ codec.alphabets.symbols.drop 1 ∨ (Zscii.ofCodePoint? codec.extras c).isSome)

instance (codec : Codec) (c : CodePoint) : Decidable (codec.Spells c) :=
  inferInstanceAs (Decidable (_ ∧ _))

/-- A character that is not found in an alphabet is not in it. -/
theorem not_mem_of_findIdx? {alphabet : Text} {c : CodePoint}
    (missing : alphabet.findIdx? (· == c) = none) : c ∉ alphabet := by
  intro member
  have differs := List.findIdx?_eq_none_iff.mp missing c member
  simp at differs

/-- The zchars of a character print it, whatever stands before and after them. -/
theorem prints_toZchars (known : 1 ≤ codec.version) {c : CodePoint} (spelled : codec.Spells c) :
    Decoder.Prints (Decoder.feedWith expand codec) (codec.toZchars c) [c] := by
  obtain ⟨plain, written⟩ := spelled
  unfold toZchars
  split
  · rename_i space
    rw [space]
    exact Decoder.prints_space
  split
  · rename_i index found
    exact Decoder.prints_lower (getElem?_of_findIdx? found)
  split
  · rename_i index found
    exact Decoder.prints_shifted (fun _ unlocked => (Decoder.feedPlain_shift known unlocked).1)
      (getElem?_of_findIdx? found) (by simp)
  split
  · rename_i index found
    obtain ⟨before, located, rfl⟩ := Option.map_eq_some_iff.mp found
    refine Decoder.prints_shifted (fun _ unlocked => (Decoder.feedPlain_shift known unlocked).2)
      ?_ fun _ => Nat.succ_ne_zero before
    have letter := getElem?_of_findIdx? located
    rwa [List.getElem?_drop, Nat.add_comm] at letter
  · -- No alphabet has the character, so it has a code.
    rename_i space _ noLower _ noUpper _ noSymbol
    have missing : c ∉ codec.alphabets.symbols.drop 1 :=
      not_mem_of_findIdx? (Option.map_eq_none_iff.mp noSymbol)
    have coded : (Zscii.ofCodePoint? codec.extras c).isSome :=
      (((written.resolve_left space).resolve_left (not_mem_of_findIdx? noLower)).resolve_left
        (not_mem_of_findIdx? noUpper)).resolve_left missing
    obtain ⟨code, coded⟩ := Option.isSome_iff_exists.mp coded
    obtain ⟨natural, printed⟩ := Zscii.toText_of_ofCodePoint? coded plain
    have same : ((codec.toZscii c).toNat : Int) = code := by
      rw [toZscii, Zscii.ofCodePoint, coded, Option.getD_some, Int.toNat_of_nonneg natural]
    rw [← printed, ← zsciiText, ← same]
    exact Decoder.prints_escaped (fun _ unlocked => (Decoder.feedPlain_shift known unlocked).2)
      (codec.toZscii c).toNat

/-- A codec that is loaded has the version that it was loaded for. -/
theorem version_of_load {version : Int} {image? : Option Image}
    {abbreviations alphabetTable unicodeTable : Int}
    (loaded : load version image? abbreviations alphabetTable unicodeTable = .ok codec) :
    codec.version = version := by
  obtain ⟨extras, -, loaded⟩ := Result.bind_eq_ok loaded
  obtain ⟨alphabets, -, loaded⟩ := Result.bind_eq_ok loaded
  cases loaded
  rfl

/-- The zchars of a text print it. -/
theorem prints_text (known : 1 ≤ codec.version) {text : Text}
    (spelled : ∀ c ∈ text, codec.Spells c) :
    Decoder.Prints (Decoder.feedWith expand codec) (text.flatMap codec.toZchars) text := by
  induction text with
  | nil => exact .nil
  | cons c rest ih =>
      obtain ⟨first, others⟩ := List.forall_mem_cons.mp spelled
      exact (prints_toZchars known first).append (ih others)

/-- The padding fills the last word, of which there is always one. -/
theorem encode_zero (codec : Codec) (text : Text) :
    ∃ count words, codec.encode text (some 0) =
        text.flatMap codec.toZchars ++ List.replicate count padding ∧
      (codec.encode text (some 0)).length = 3 * words ∧ 0 < words := by
  have whole : codec.encode text (some 0) = fillWords (text.flatMap codec.toZchars) := rfl
  rw [whole]
  generalize text.flatMap codec.toZchars = zchars
  unfold fillWords
  cases zchars with
  | nil => exact ⟨3, 1, rfl, rfl, by decide⟩
  | cons zchar rest =>
      refine ⟨_, ((zchar :: rest).length + 2) / 3, rfl, ?_, ?_⟩
      · simp only [List.isEmpty_cons, Bool.false_eq_true, ↓reduceIte, List.length_append,
          List.length_replicate, List.length_cons]
        omega
      · simp only [List.length_cons]
        omega

private theorem Compact.isZchar_encode (compact : codec.Compact) (text : Text) :
    ∀ zchar ∈ codec.encode text (some 0), IsZchar zchar := by
  obtain ⟨count, words, filled, -⟩ := codec.encode_zero text
  rw [filled]
  intro zchar member
  rcases List.mem_append.mp member with member | member
  · obtain ⟨c, -, member⟩ := List.mem_flatMap.mp member
    exact compact.isZchar_toZchars c zchar member
  · rw [List.eq_of_mem_replicate member]
    unfold IsZchar padding
    decide

private theorem decodeZchars_encode (known : 1 ≤ codec.version) {text : Text}
    (spelled : ∀ c ∈ text, codec.Spells c) (tables : Option Image) :
    codec.decodeZchars tables (codec.encode text (some 0)) = .ok text := by
  obtain ⟨count, words, filled, -⟩ := codec.encode_zero text
  -- The text prints itself and leaves the decoder ready for the padding, which prints nothing.
  obtain ⟨texts, last, printed, joined⟩ := prints_text known spelled 0 true
  obtain ⟨silence, after, padded, silent⟩ :=
    Decoder.feedAll_padding (Decoder.ready last true) rfl count
  have fed : Decoder.feedAll (codec.feed tables) (codec.encode text (some 0))
      (Decoder.ready 0 true) = .ok (texts ++ silence) after := by
    rw [filled]
    exact Decoder.feedAll_append printed padded
  have decoded : Decoder.decodeWith (codec.feed tables) true (codec.encode text (some 0)) {} =
      .ok (texts ++ silence) {} := by
    have started : (set { allowAbbreviations := true : Decoder } : Action Decoder PUnit) {} =
        .ok ⟨⟩ (Decoder.ready 0 true) :=
      rfl
    unfold Decoder.decodeWith
    rw [Action.bind_of_ok started, Action.bind_of_ok fed]
    rfl
  rw [decodeZchars, Action.answer, decoded, Result.ok_bind, List.flatten_append, joined, silent,
    List.append_nil]
  rfl

/-- Text that is encoded and packed reads back as it was from wherever it is placed, and its
length there is that of its bytes. -/
theorem packed_text_round_trip {version : Int} {image? : Option Image}
    {abbreviations alphabetTable unicodeTable : Int}
    (loaded : load version image? abbreviations alphabetTable unicodeTable = .ok codec)
    (known : 1 ≤ version) {text : Text} (spelled : ∀ c ∈ text, codec.Spells c) :
    ∃ bytes, pack (codec.encode text (some 0)) = .ok bytes ∧
      ∀ (image : Image) (address : Int), image.Carries address bytes →
        codec.decode image address = .ok text ∧ image.stringLength address = .ok bytes.length := by
  have all := (compact_of_load loaded).isZchar_encode text
  obtain ⟨count, words, -, whole, positive⟩ := codec.encode_zero text
  have some : codec.encode text (.some 0) ≠ [] := by
    intro empty
    rw [empty, List.length_nil] at whole
    omega
  obtain ⟨bytes, packed⟩ := pack_of_isZchar all whole
  refine ⟨bytes, packed, fun image address carried => ?_⟩
  obtain ⟨read, length⟩ := zcharsToEnd_of_pack all some packed carried
  constructor
  · have first : 1 ≤ codec.version := (version_of_load loaded).symm ▸ known
    rw [decode, Image.zchars, if_neg (by decide), read, Result.ok_bind]
    exact decodeZchars_encode first spelled image
  · rw [Image.stringLength, read, Result.ok_bind, length]
    rfl

/-- A text with a letter of each alphabet, a line end, an extra character and a character of no
alphabet, as the second version packs it. -/
theorem packed_text_round_trip_second :
    ∃ bytes,
      pack ({ version := 2 : Codec }.encode (Text.ofString "Go 2 é~\n") (some 0)) = .ok bytes ∧
      { version := 2 : Codec }.decode ⟨bytes.toArray⟩ 0 = .ok (Text.ofString "Go 2 é~\n") ∧
      Image.stringLength ⟨bytes.toArray⟩ 0 = .ok bytes.length := by
  have loaded : load 2 none 0 0 0 = .ok { version := 2 } := rfl
  have spelled : ∀ c ∈ Text.ofString "Go 2 é~\n", { version := 2 : Codec }.Spells c := by
    decide +kernel
  obtain ⟨bytes, packed, reads⟩ := packed_text_round_trip loaded (by decide) spelled
  have carried : Image.Carries ⟨bytes.toArray⟩ 0 bytes :=
    Image.carries_of_toList [] bytes [] (by simp)
  exact ⟨bytes, packed, reads _ _ carried⟩

end Codec

end StoryMachine
