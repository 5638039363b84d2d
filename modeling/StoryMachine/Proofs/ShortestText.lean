import StoryMachine.Proofs.CustomAlphabets
import StoryMachine.Proofs.PackedText

/-!
# The shortest zchars of a text

From version 3 on no zchars print a text in fewer places than those that the text is
encoded in, as long as they name no abbreviation. What a decoder has been fed for a
character that it has not printed yet, a shift or an escape, is its credit: a zchar
adds one to it, and a character that is printed costs no more than the credit.
-/

namespace StoryMachine

private theorem findIdx?_ne_none_of_mem {alphabet : Text} {c : CodePoint} (member : c ∈ alphabet) :
    alphabet.findIdx? (· == c) ≠ none :=
  fun missing => Codec.not_mem_of_findIdx? missing member

/-- Whatever a code prints has a code. -/
theorem Zscii.isSome_ofCodePoint? {extras : Text} {code : Int} {c : CodePoint}
    (printed : c ∈ toText extras code) : (ofCodePoint? extras c).isSome := by
  unfold toText at printed
  split_ifs at printed with zero line blank ascii extra
  · cases printed
  · cases List.mem_singleton.mp printed
    rfl
  · cases List.mem_singleton.mp printed
    rfl
  · cases List.mem_singleton.mp printed
    have printable : (32 : Nat) ≤ code.toNat ∧ code.toNat ≤ (126 : Nat) := by omega
    unfold ofCodePoint?
    split_ifs <;> rfl
  · split at printed
    · rename_i found
      cases List.mem_singleton.mp printed
      have listed := findIdx?_ne_none_of_mem (List.mem_of_getElem? found)
      obtain ⟨index, place⟩ := Option.ne_none_iff_exists'.mp listed
      unfold ofCodePoint?
      rw [place]
      split_ifs <;> rfl
    · cases List.mem_singleton.mp printed
      rfl
  · cases List.mem_singleton.mp printed
    rfl

/-! ## Costs -/

namespace Codec

variable {codec : Codec} {c : CodePoint}

/-- The number of zchars that a text is encoded in, before any padding. -/
def cost (codec : Codec) (text : Text) : Nat :=
  (text.flatMap codec.toZchars).length

@[simp] theorem cost_nil (codec : Codec) : codec.cost [] = 0 :=
  rfl

private theorem cost_append (codec : Codec) (front back : Text) :
    codec.cost (front ++ back) = codec.cost front + codec.cost back := by
  unfold cost
  rw [List.flatMap_append, List.length_append]

private theorem cost_singleton (codec : Codec) (c : CodePoint) :
    codec.cost [c] = (codec.toZchars c).length := by
  unfold cost
  rw [List.flatMap_singleton]

private theorem cost_space (codec : Codec) : codec.cost [0x20] = 1 :=
  rfl

/-- An escape and a code stand for any character. -/
theorem cost_le_four (codec : Codec) (c : CodePoint) : codec.cost [c] ≤ 4 := by
  rw [cost_singleton]
  unfold toZchars
  split_ifs
  · simp
  · split
    · simp
    split
    · simp
    split <;> simp

private theorem cost_of_mem_lower (member : c ∈ codec.alphabets.lower) : codec.cost [c] ≤ 1 := by
  rw [cost_singleton]
  unfold toZchars
  split_ifs
  · simp
  · split
    · simp
    · rename_i missing
      exact absurd missing (findIdx?_ne_none_of_mem member)

private theorem cost_of_mem_upper (member : c ∈ codec.alphabets.upper) : codec.cost [c] ≤ 2 := by
  rw [cost_singleton]
  unfold toZchars
  split_ifs
  · simp
  · split
    · simp
    split
    · simp
    · rename_i missing
      exact absurd missing (findIdx?_ne_none_of_mem member)

private theorem cost_of_mem_symbols (member : c ∈ codec.alphabets.symbols.drop 1) :
    codec.cost [c] ≤ 2 := by
  rw [cost_singleton]
  unfold toZchars
  split_ifs
  · simp
  · split
    · simp
    split
    · simp
    split
    · simp
    · rename_i missing
      exact absurd (Option.map_eq_none_iff.mp missing) (findIdx?_ne_none_of_mem member)

/-- What a code prints costs no more than an escape with that code. -/
theorem cost_zsciiText_le (codec : Codec) (code : Int) : codec.cost (codec.zsciiText code) ≤ 4 := by
  by_cases silent : code = 0
  · subst silent
    exact Nat.zero_le 4
  · obtain ⟨c, text⟩ := Zscii.toText_of_ne_zero codec.extras silent
    rw [zsciiText, text]
    exact codec.cost_le_four c

end Codec

/-! ## Credit -/

namespace Decoder

variable {codec : Codec} {expand : Int → Result Text} {decoder after : Decoder} {zchar : Int}
  {text : Text}

/-- How many zchars a decoder has been fed for the character that it prints next: its shift, or its
escape with the shift in front of it and the first half of the code behind it. -/
def credit (decoder : Decoder) : Nat :=
  match decoder.expecting with
  | .codeLow => 3
  | .codeHigh => 2
  | _ => if decoder.shifted.isSome then 1 else 0

/-- A decoder of text without abbreviations, in a version in which no alphabet is locked. -/
structure Unlocked (decoder : Decoder) : Prop where
  locked : decoder.locked = 0
  shifted : ∀ number ∈ decoder.shifted, number = 1 ∨ number = 2
  flat : decoder.allowAbbreviations = false
  direct : decoder.expecting ≠ .abbreviation
  /-- An escape ends its shift. -/
  escaped : decoder.expecting ≠ .character → decoder.shifted = none

/-- The decoder without its shift. -/
theorem Unlocked.unshifted (unlocked : decoder.Unlocked) :
    Unlocked { decoder with shifted := none } :=
  ⟨unlocked.locked, nofun, unlocked.flat, unlocked.direct, fun _ => rfl⟩

private theorem credit_of_character (ready : decoder.expecting = .character) :
    decoder.credit = if decoder.shifted.isSome then 1 else 0 := by
  unfold credit
  rw [ready]

/-- The alphabet in force is the first, or one that a shift has been fed for. -/
theorem Unlocked.alphabet (unlocked : decoder.Unlocked) (ready : decoder.expecting = .character) :
    decoder.alphabet = 0 ∨ (decoder.alphabet = 1 ∨ decoder.alphabet = 2) ∧ decoder.credit = 1 := by
  rw [credit_of_character ready]
  unfold Decoder.alphabet
  cases shifted : decoder.shifted with
  | none => exact .inl unlocked.locked
  | some number => exact .inr ⟨unlocked.shifted number shifted, rfl⟩

/-- A zchar below six other than the space prints nothing, and shifts at most. -/
theorem feedControl_eq_ok (late : 3 ≤ codec.version) (unlocked : decoder.Unlocked)
    (fed : feedControl codec zchar decoder = .ok text after) :
    text = [] ∧ (after = decoder ∨ ∃ number, (number = 1 ∨ number = 2) ∧
      after = { decoder with shifted := some number }) := by
  have flat := unlocked.flat
  unfold feedControl at fed
  rw [if_neg (by omega), if_neg (by omega : ¬ codec.version < 3)] at fed
  split_ifs at fed with named allowed first second
  · rw [flat] at allowed
    cases allowed
  · cases fed
    exact ⟨rfl, .inr ⟨1, .inl rfl, rfl⟩⟩
  · cases fed
    exact ⟨rfl, .inr ⟨2, .inr rfl, rfl⟩⟩
  · cases fed
    exact ⟨rfl, .inl rfl⟩

/-- What a zchar does to a decoder of text without abbreviations: it prints what the decoder's
credit and the zchar itself pay for, all of which the codec can spell but a carriage return. -/
structure Pays (codec : Codec) (decoder : Decoder) (text : Text) (after : Decoder) : Prop where
  unlocked : after.Unlocked
  paid : codec.cost text + after.credit ≤ decoder.credit + 1
  spelled : ∀ c ∈ text, c ≠ 0x0d → codec.Spells c

/-- A character ends the shift that it may have been printed with. -/
theorem pays_letter {c : CodePoint} (unlocked : decoder.Unlocked)
    (ready : decoder.expecting = .character) (cheap : codec.cost [c] ≤ decoder.credit + 1)
    (spelled : c ≠ 0x0d → codec.Spells c) :
    Pays codec decoder [c] { decoder with shifted := none } := by
  refine ⟨unlocked.unshifted, ?_, ?_⟩
  · have spent : { decoder with shifted := none }.credit = 0 := credit_of_character ready
    rw [spent]
    exact cheap
  · intro other member
    rw [List.mem_singleton.mp member]
    exact spelled

/-- A place in the alphabet in force pays for its character: a letter of the first alphabet costs
one zchar, and one of the others two. -/
theorem pays_place {c : CodePoint} (unlocked : decoder.Unlocked)
    (ready : decoder.expecting = .character) (late : 6 ≤ zchar)
    (plain : ¬ (zchar = 6 ∧ decoder.alphabet = 2))
    (found : (codec.alphabets.get decoder.alphabet)[(zchar - 6).toNat]? = some c) :
    Pays codec decoder [c] { decoder with shifted := none } := by
  obtain alphabet | ⟨alphabet | alphabet, credit⟩ := unlocked.alphabet ready
  · rw [alphabet] at found
    have member : c ∈ codec.alphabets.lower := List.mem_of_getElem? found
    have cost := Codec.cost_of_mem_lower member
    exact pays_letter unlocked ready (by omega) fun line => ⟨line, .inr (.inl member)⟩
  · rw [alphabet] at found
    have member : c ∈ codec.alphabets.upper := List.mem_of_getElem? found
    have cost := Codec.cost_of_mem_upper member
    exact pays_letter unlocked ready (by omega) fun line => ⟨line, .inr (.inr (.inl member))⟩
  · rw [alphabet] at found
    -- The first symbol is the escape, which the zchar is not.
    obtain ⟨place, place_eq⟩ : ∃ place, (zchar - 6).toNat = 1 + place :=
      ⟨(zchar - 7).toNat, by omega⟩
    have symbol : codec.alphabets.symbols[(zchar - 6).toNat]? = some c := found
    rw [place_eq, ← List.getElem?_drop] at symbol
    have member : c ∈ codec.alphabets.symbols.drop 1 := List.mem_of_getElem? symbol
    have cost := Codec.cost_of_mem_symbols member
    exact pays_letter unlocked ready (by omega)
      fun line => ⟨line, .inr (.inr (.inr (.inl member)))⟩

private theorem pays_feedPlain (late : 3 ≤ codec.version) (unlocked : decoder.Unlocked)
    (ready : decoder.expecting = .character)
    (fed : feedPlain codec zchar decoder = .ok text after) : Pays codec decoder text after := by
  unfold feedPlain at fed
  split_ifs at fed with blank control escape
  · cases fed
    exact pays_letter unlocked ready (by rw [codec.cost_space]; omega)
      fun line => ⟨line, .inl rfl⟩
  · obtain ⟨rfl, rfl | ⟨number, known, rfl⟩⟩ := feedControl_eq_ok late unlocked fed
    · exact ⟨unlocked, by rw [codec.cost_nil]; omega, nofun⟩
    · refine ⟨⟨unlocked.locked, ?_, unlocked.flat, unlocked.direct, absurd ready⟩, ?_, nofun⟩
      · rintro other ⟨⟩
        exact known
      · have one : { decoder with shifted := some number }.credit = 1 := credit_of_character ready
        rw [codec.cost_nil, one]
        omega
  · -- The escape stands among the symbols, so that a shift has been fed for it.
    cases fed
    obtain alphabet | ⟨-, credit⟩ := unlocked.alphabet ready
    · omega
    · refine ⟨⟨unlocked.locked, nofun, unlocked.flat, nofun, fun _ => rfl⟩, ?_, nofun⟩
      rw [credit]
      exact le_refl 2
  · split at fed
    · rename_i found
      cases fed
      exact pays_place unlocked ready (by omega) escape found
    · cases fed

/-- What a decoder does does not depend on the zchar before, unless that is half of a code. -/
theorem Pays.remembered (pays : Pays codec decoder text after) (zchar : Int) :
    Pays codec decoder text { after with previous := zchar } :=
  ⟨⟨pays.unlocked.locked, pays.unlocked.shifted, pays.unlocked.flat, pays.unlocked.direct,
    pays.unlocked.escaped⟩, pays.paid, pays.spelled⟩

private theorem pays_feedExpected (late : 3 ≤ codec.version) (unlocked : decoder.Unlocked)
    (fed : feedExpected expand codec zchar decoder = .ok text after) :
    Pays codec decoder text after := by
  cases expecting : decoder.expecting with
  | abbreviation => exact absurd expecting unlocked.direct
  | character =>
      rw [feedExpected_character expecting] at fed
      exact pays_feedPlain late unlocked expecting fed
  | codeHigh =>
      have unshifted := unlocked.escaped (by rw [expecting]; decide)
      have credit : decoder.credit = 2 := by unfold credit; rw [expecting]
      unfold feedExpected at fed
      rw [expecting] at fed
      cases fed
      refine ⟨⟨unlocked.locked, unlocked.shifted, unlocked.flat, nofun, fun _ => unshifted⟩, ?_,
        nofun⟩
      rw [credit]
      exact le_refl 3
  | codeLow =>
      have unshifted := unlocked.escaped (by rw [expecting]; decide)
      have credit : decoder.credit = 3 := by unfold credit; rw [expecting]
      unfold feedExpected at fed
      rw [expecting] at fed
      cases fed
      refine ⟨⟨unlocked.locked, unlocked.shifted, unlocked.flat, nofun, absurd rfl⟩, ?_,
        fun c printed line => ⟨line, ?_⟩⟩
      · have spent : { decoder with expecting := .character }.credit = 0 := by
          rw [credit_of_character rfl, unshifted]
          rfl
        rw [credit, spent]
        exact codec.cost_zsciiText_le _
      · exact .inr (.inr (.inr (.inr (Zscii.isSome_ofCodePoint? printed))))

/-- Every zchar pays for what it prints. -/
theorem pays_feedWith (late : 3 ≤ codec.version) (unlocked : decoder.Unlocked)
    (fed : feedWith expand codec zchar decoder = .ok text after) :
    Pays codec decoder text after := by
  unfold feedWith at fed
  cases done : feedExpected expand codec zchar decoder with
  | error failure failed =>
      rw [done] at fed
      cases fed
  | ok printed next =>
      rw [done] at fed
      cases fed
      exact (pays_feedExpected late unlocked done).remembered zchar

/-- Zchars together pay for what they print together. -/
theorem pays_feedAll (late : 3 ≤ codec.version) {zchars : List Int} {texts : List Text}
    (unlocked : decoder.Unlocked)
    (fed : feedAll (feedWith expand codec) zchars decoder = .ok texts after) :
    codec.cost texts.flatten + after.credit ≤ decoder.credit + zchars.length ∧
      ∀ c ∈ texts.flatten, c ≠ 0x0d → codec.Spells c := by
  induction zchars generalizing decoder texts with
  | nil =>
      cases fed
      exact ⟨by simp, nofun⟩
  | cons zchar rest ih =>
      unfold feedAll at fed
      obtain ⟨text, between, first, fed⟩ := Action.bind_eq_ok fed
      obtain ⟨others, finish, later, fed⟩ := Action.bind_eq_ok fed
      cases fed
      have pays := pays_feedWith late unlocked first
      obtain ⟨paid, spelled⟩ := ih pays.unlocked later
      refine ⟨?_, fun c member line => ?_⟩
      · have step := pays.paid
        rw [List.flatten_cons, codec.cost_append, List.length_cons]
        omega
      · rw [List.flatten_cons] at member
        obtain member | member := List.mem_append.mp member
        · exact pays.spelled c member line
        · exact spelled c member line

end Decoder

namespace Codec

open Decoder (decodeWith feedAll)

/-- Feeding zchars to a decoder that allows no abbreviations, and starting afresh. -/
theorem decodeWith_eq_ok {feed : Int → Action Decoder Text} {zchars : List Int}
    {texts : List Text} {start finish : Decoder} :
    decodeWith feed false zchars start = .ok texts finish ↔
      finish = {} ∧ ∃ last, feedAll feed zchars (Decoder.ready 0 false) = .ok texts last := by
  have started : (set { allowAbbreviations := false : Decoder } : Action Decoder PUnit) start =
      .ok ⟨⟩ (Decoder.ready 0 false) :=
    rfl
  unfold decodeWith
  rw [Action.bind_of_ok started]
  constructor
  · intro decoded
    obtain ⟨printed, last, fed, decoded⟩ := Action.bind_eq_ok decoded
    cases decoded
    exact ⟨rfl, last, fed⟩
  · rintro ⟨rfl, last, fed⟩
    rw [Action.bind_of_ok fed]
    rfl

/-- From version 3 on a text is encoded in no more zchars than any that print it without an
abbreviation, and the zchars that it is encoded in print it. A carriage return, which only a
table of extra characters can name, is encoded as a line end. -/
theorem encoding_shortest {codec : Codec} (late : 3 ≤ codec.version) (tables : Option Image)
    {zchars : List Int} {texts : List Text} {start finish : Decoder}
    (decoded : decodeWith (codec.feed tables) false zchars start = .ok texts finish) :
    (texts.flatten.flatMap codec.toZchars).length ≤ zchars.length ∧
      (0x0d ∉ texts.flatten → ∃ others,
        decodeWith (codec.feed tables) false (texts.flatten.flatMap codec.toZchars) start =
          .ok others {} ∧ others.flatten = texts.flatten) := by
  obtain ⟨-, last, fed⟩ := decodeWith_eq_ok.mp decoded
  have unlocked : (Decoder.ready 0 false).Unlocked :=
    ⟨rfl, nofun, rfl, nofun, fun _ => rfl⟩
  obtain ⟨paid, spelled⟩ := Decoder.pays_feedAll late unlocked fed
  have credit : (Decoder.ready 0 false).credit = 0 := rfl
  refine ⟨?_, fun absent => ?_⟩
  · unfold cost at paid
    omega
  · have spelled : ∀ c ∈ texts.flatten, codec.Spells c := fun c member =>
      spelled c member (ne_of_mem_of_not_mem member absent)
    have prints : Decoder.Prints (codec.feed tables) (texts.flatten.flatMap codec.toZchars)
        texts.flatten := prints_text (by omega) spelled
    obtain ⟨others, previous, printed, same⟩ := prints 0 false
    exact ⟨others, decodeWith_eq_ok.mpr ⟨rfl, _, printed⟩, same⟩

/-- Ten zchars with a shift too many, the code of a letter and an escape without its code: the two
characters that they print are encoded in three. -/
theorem encoding_shortest_gapped :
    (decodeWith (gappedCodec.feed none) false [4, 4, 13, 5, 6, 3, 9, 5, 6, 1]).answer {} =
        .ok [[], [], [0x48], [], [], [], [0x69], [], [], []] ∧
      (3 : Int) ≤ gappedCodec.version ∧
      ([0x48, 0x69].flatMap gappedCodec.toZchars).length ≤ 10 ∧
      [0x48, 0x69].flatMap gappedCodec.toZchars = [4, 13, 14] := by
  have answers :
      (decodeWith (gappedCodec.feed none) false [4, 4, 13, 5, 6, 3, 9, 5, 6, 1]).answer {} =
        .ok [[], [], [0x48], [], [], [], [0x69], [], [], []] := by
    decide +kernel
  have late : (3 : Int) ≤ gappedCodec.version := by decide
  have shortest := encoding_shortest late none (Action.eq_ok_finalState answers)
  exact ⟨answers, late, shortest.1, by decide +kernel⟩

end Codec

end StoryMachine
