import StoryMachine.Proofs.Questions

/-!
# Alphabets

Text is read through three alphabets and packed for comparison with dictionary
words. A story can supply alphabets of at most 26 characters, so every character
has its zchars and packing always succeeds; if an alphabet has fewer characters,
reading can meet a zchar that stands for none.
-/

namespace StoryMachine

open StoryMachine.Result (Faults)

private theorem Action.FailsWith.answer {σ α : Type} {P : Failure → Prop} {action : Action σ α}
    (fails : FailsWith P action) (s : σ) : Result.FailsWith P (action.answer s) := by
  intro failure failed
  unfold Action.answer at failed
  cases outcome : action s with
  | ok a after =>
      rw [outcome] at failed
      cases failed
  | error reason after =>
      rw [outcome] at failed
      cases failed
      exact fails s after failure outcome

private theorem Alphabets.get_mem_toList (alphabets : Alphabets) (number : Nat) :
    alphabets.get number ∈ alphabets.toList := by
  unfold get toList
  split <;> simp

private theorem le_of_mem_wordZchars {word : Nat} {zchar : Int} (member : zchar ∈ wordZchars word) :
    zchar ≤ 31 := by
  simp only [wordZchars, List.mem_cons, List.not_mem_nil, or_false] at member
  omega

namespace Image

variable {image : Image} {zchars : List Int}

private theorem le_of_mem_zcharsToEnd {address : Int} (read : image.zcharsToEnd address = .ok zchars) :
    ∀ zchar ∈ zchars, zchar ≤ 31 := by
  fun_induction zcharsToEnd image address generalizing zchars with
  | case1 address inside ih =>
      obtain ⟨word, -, read⟩ := Result.bind_eq_ok read
      split at read
      · cases read
        exact fun zchar => le_of_mem_wordZchars
      · obtain ⟨rest, more, read⟩ := Result.bind_eq_ok read
        cases read
        intro zchar member
        rcases List.mem_append.mp member with member | member
        · exact le_of_mem_wordZchars member
        · exact ih more zchar member
  | case2 address outside =>
      obtain ⟨word, -, read⟩ := Result.bind_eq_ok read
      cases read
      exact fun zchar => le_of_mem_wordZchars

private theorem le_of_mem_zcharsOfWords {count : Nat} {address : Int}
    (read : image.zcharsOfWords address count = .ok zchars) : ∀ zchar ∈ zchars, zchar ≤ 31 := by
  induction count generalizing address zchars with
  | zero =>
      cases read
      simp
  | succ count ih =>
      obtain ⟨word, -, read⟩ := Result.bind_eq_ok read
      obtain ⟨rest, more, read⟩ := Result.bind_eq_ok read
      cases read
      intro zchar member
      rcases List.mem_append.mp member with member | member
      · exact le_of_mem_wordZchars member
      · exact ih more zchar member

private theorem le_of_mem_zchars {address length : Int} (read : image.zchars address length = .ok zchars) :
    ∀ zchar ∈ zchars, zchar ≤ 31 := by
  unfold Image.zchars at read
  split at read
  · exact le_of_mem_zcharsOfWords read
  · exact le_of_mem_zcharsToEnd read

end Image

namespace Codec

variable {codec : Codec}

/-! ## Reading -/

/-- Every zchar that stands for a character has one in each alphabet. -/
def Full (codec : Codec) : Prop :=
  ∀ alphabet ∈ codec.alphabets.toList, 26 ≤ alphabet.length

instance (codec : Codec) : Decidable codec.Full :=
  inferInstanceAs (Decidable (∀ alphabet ∈ codec.alphabets.toList, 26 ≤ alphabet.length))

/-- How text can fail to be read: a rule is broken, or an alphabet has too few characters. -/
def Allows (codec : Codec) (failure : Failure) : Prop :=
  failure.IsFault ∨ failure = .breach .indexOutOfRange ∧ ¬ codec.Full

private theorem allows_ofCause (codec : Codec) (cause : Cause) : codec.Allows (.ofCause cause) :=
  .inl ⟨_, rfl⟩

instance (codec : Codec) (kind : FaultKind) : Failure.Admits codec.Allows kind :=
  ⟨fun cause _ => codec.allows_ofCause cause⟩

private theorem failsWith_feedControl (codec : Codec) (zchar : Int) :
    Action.FailsWith codec.Allows (Decoder.feedControl codec zchar) := by
  intro decoder after failure failed
  unfold Decoder.feedControl at failed
  split_ifs at failed
  all_goals cases failed
  exact codec.allows_ofCause _

private theorem failsWith_feedPlain {zchar : Int} (small : zchar ≤ 31) :
    Action.FailsWith codec.Allows (Decoder.feedPlain codec zchar) := by
  intro decoder after failure failed
  unfold Decoder.feedPlain at failed
  split at failed
  · cases failed
  split at failed
  · exact failsWith_feedControl codec zchar _ _ _ failed
  split at failed
  · cases failed
  split at failed
  · cases failed
  · rename_i missing
    cases failed
    refine .inr ⟨rfl, fun full => ?_⟩
    have enough := full _ (codec.alphabets.get_mem_toList decoder.alphabet)
    rw [List.getElem?_eq_none_iff] at missing
    omega

private theorem failsWith_feedWith {expand : Int → Result Text}
    (expands : ∀ index, Result.FailsWith codec.Allows (expand index)) {zchar : Int}
    (small : zchar ≤ 31) :
    Action.FailsWith codec.Allows (Decoder.feedWith expand codec zchar) := by
  have expected : Action.FailsWith codec.Allows (Decoder.feedExpected expand codec zchar) := by
    intro decoder after failure failed
    unfold Decoder.feedExpected at failed
    split at failed
    · exact Action.FailsWith.lift (expands _) _ _ _ failed
    · cases failed
    · cases failed
    · exact failsWith_feedPlain small _ _ _ failed
  intro decoder after failure failed
  unfold Decoder.feedWith at failed
  split at failed
  · cases failed
  · rename_i outcome
    cases failed
    exact expected _ _ _ outcome

private theorem failsWith_feedAll {feed : Int → Action Decoder Text} {zchars : List Int}
    (feeds : ∀ zchar ∈ zchars, Action.FailsWith codec.Allows (feed zchar)) :
    Action.FailsWith codec.Allows (Decoder.feedAll feed zchars) := by
  induction zchars with
  | nil => exact .pure _
  | cons zchar rest ih =>
      obtain ⟨first, others⟩ := List.forall_mem_cons.mp feeds
      exact .bind first fun _ => .bind (ih others) fun _ => .pure _

private theorem failsWith_decodeWith {feed : Int → Action Decoder Text} {zchars : List Int}
    (feeds : ∀ zchar ∈ zchars, Action.FailsWith codec.Allows (feed zchar)) (allow : Bool) :
    Action.FailsWith codec.Allows (Decoder.decodeWith feed allow zchars) :=
  .bind (.modify _) fun _ => .bind (failsWith_feedAll feeds) fun _ =>
    .bind (.modify _) fun _ => .pure _

private theorem failsWith_abbreviation (codec : Codec) (tables : Option Image) (index : Int) :
    Result.FailsWith codec.Allows (codec.abbreviation tables index) := by
  have allows (cause : Cause) : Result.FailsWith codec.Allows (.fault cause : Result Text) :=
    Result.failsWith_fault _ rfl
  unfold abbreviation
  split
  · exact allows _
  · rename_i image
    simp only [Result.failsWith_bind]
    refine ⟨image.failsWith_word _, fun address _ => ?_⟩
    refine ⟨image.failsWith_zcharsToEnd _, fun zchars read => ?_⟩
    refine ⟨Action.FailsWith.answer (failsWith_decodeWith ?_ false) {}, by simp⟩
    intro zchar member
    exact failsWith_feedWith (fun _ => allows _) (Image.le_of_mem_zcharsToEnd read zchar member)

private theorem failsWith_decodeZchars (codec : Codec) (tables : Option Image) {zchars : List Int}
    (small : ∀ zchar ∈ zchars, zchar ≤ 31) :
    Result.FailsWith codec.Allows (codec.decodeZchars tables zchars) := by
  simp only [decodeZchars, Result.failsWith_bind]
  refine ⟨Action.FailsWith.answer (failsWith_decodeWith ?_ true) {}, by simp⟩
  intro zchar member
  exact failsWith_feedWith (codec.failsWith_abbreviation tables) (small zchar member)

/-- Decoding fails only as the codec allows. -/
theorem failsWith_decode (codec : Codec) (image : Image) (address length : Int) :
    Result.FailsWith codec.Allows (codec.decode image address length) := by
  simp only [decode, Result.failsWith_bind]
  refine ⟨image.failsWith_zchars address length, fun zchars read => ?_⟩
  exact codec.failsWith_decodeZchars image (Image.le_of_mem_zchars read)

/-! ## Packing -/

/-- Every place in an alphabet fits a zchar, and every code of an extra character fits two. -/
structure Compact (codec : Codec) : Prop where
  alphabets : ∀ alphabet ∈ codec.alphabets.toList, alphabet.length ≤ 26
  extras : codec.extras.length ≤ 255

private theorem Compact.toZscii_lt (compact : codec.Compact) (c : CodePoint) :
    (codec.toZscii c).toNat < 1024 := by
  have few := compact.extras
  unfold toZscii Zscii.ofCodePoint Zscii.ofCodePoint?
  split
  · decide
  split
  · rename_i printable
    exact lt_of_le_of_lt printable.2 (by decide)
  · cases found : codec.extras.findIdx? (· == c) with
    | none => decide
    | some index =>
        have bound := (List.findIdx?_eq_some_iff_getElem.mp found).1
        change (155 + (index : Int)).toNat < 1024
        omega

/-- A zchar. -/
def IsZchar (zchar : Int) : Prop :=
  0 ≤ zchar ∧ zchar < 32

/-- Every character is written in zchars. -/
theorem Compact.isZchar_toZchars (compact : codec.Compact) (c : CodePoint) :
    ∀ zchar ∈ codec.toZchars c, IsZchar zchar := by
  have place {alphabet : Text} (member : alphabet ∈ codec.alphabets.toList) {index : Nat}
      (inside : index < alphabet.length) : IsZchar ((index : Int) + 6) := by
    have few := compact.alphabets alphabet member
    unfold IsZchar
    omega
  have shifts : IsZchar codec.shifts.1 ∧ IsZchar codec.shifts.2 := by
    unfold Codec.shifts IsZchar
    split <;> decide
  have first : codec.alphabets.lower ∈ codec.alphabets.toList := by simp [Alphabets.toList]
  have second : codec.alphabets.upper ∈ codec.alphabets.toList := by simp [Alphabets.toList]
  have third : codec.alphabets.symbols ∈ codec.alphabets.toList := by simp [Alphabets.toList]
  unfold toZchars
  split
  · simp [IsZchar]
  split
  · rename_i index found
    simpa using place first (List.findIdx?_eq_some_iff_getElem.mp found).1
  split
  · rename_i index found
    simpa using ⟨shifts.1, place second (List.findIdx?_eq_some_iff_getElem.mp found).1⟩
  split
  · rename_i index found
    obtain ⟨before, located, rfl⟩ := Option.map_eq_some_iff.mp found
    have inside := (List.findIdx?_eq_some_iff_getElem.mp located).1
    rw [List.length_drop] at inside
    simpa using ⟨shifts.2, place third (show before + 1 < _ by omega)⟩
  · have bound := compact.toZscii_lt c
    have high : IsZchar ((codec.toZscii c).toNat / 32 : Nat) := by
      unfold IsZchar
      omega
    have low : IsZchar ((codec.toZscii c).toNat % 32 : Nat) := by
      unfold IsZchar
      omega
    have escape : IsZchar 6 := by
      unfold IsZchar
      decide
    simp only [List.forall_mem_cons, List.not_mem_nil, false_implies, implies_true, and_true]
    exact ⟨shifts.2, escape, high, low⟩

private theorem packWord_of_isZchar {first second third : Int} (one : IsZchar first)
    (two : IsZchar second) (three : IsZchar third) (last : Bool) :
    ∃ bytes, packWord first second third last = .ok bytes := by
  unfold IsZchar at one two three
  unfold packWord
  have small : (first.toNat * 1024 ||| second.toNat * 32 ||| third.toNat |||
      if last then 0x8000 else 0) < 2 ^ 16 := by
    refine Nat.or_lt_two_pow (Nat.or_lt_two_pow (Nat.or_lt_two_pow ?_ ?_) ?_) ?_
    · omega
    · omega
    · omega
    · split <;> decide
  rw [if_neg (by omega), if_neg (by omega)]
  exact ⟨_, rfl⟩

/-- Zchars in threes are packed. -/
theorem pack_of_isZchar {zchars : List Int} (all : ∀ zchar ∈ zchars, IsZchar zchar)
    {words : Nat} (whole : zchars.length = 3 * words) : ∃ bytes, pack zchars = .ok bytes := by
  fun_induction pack zchars generalizing words with
  | case1 => exact ⟨[], rfl⟩
  | case2 => simp at whole; omega
  | case3 => simp at whole; omega
  | case4 first second third rest ih =>
      simp only [List.forall_mem_cons] at all
      obtain ⟨one, two, three, others⟩ := all
      simp only [List.length_cons] at whole
      obtain ⟨word, packed⟩ := packWord_of_isZchar one two three rest.isEmpty
      obtain ⟨bytes, more⟩ := ih others (show rest.length = 3 * (words - 1) by omega)
      rw [packed, more]
      exact ⟨_, rfl⟩

private theorem length_fit (zchars : List Int) (length : Nat) : (fit zchars length).length = length := by
  have kept : (Span.ofList zchars 0 length).length ≤ length := by
    unfold Span.ofList Span.position
    rw [List.length_drop, List.length_take, if_neg (by omega)]
    omega
  simp only [fit, List.length_append, List.length_replicate]
  omega

/-- Text is always packed. -/
theorem Compact.encrypt_eq_ok (compact : codec.Compact) (text : Text) :
    ∃ bytes, codec.encrypt text none = .ok bytes := by
  obtain ⟨words, count, positive⟩ :
      ∃ words : Nat, codec.wordZcharCount = (3 * words : Nat) ∧ words ≠ 0 := by
    unfold wordZcharCount
    split
    · exact ⟨2, rfl, by decide⟩
    · exact ⟨3, rfl, by decide⟩
  unfold encrypt encode
  simp only [Option.getD_none, count]
  rw [if_neg (by omega)]
  have all : ∀ zchar ∈ fit (text.lower.flatMap codec.toZchars) (3 * words : Nat),
      IsZchar zchar := by
    intro zchar member
    rcases List.mem_append.mp member with member | member
    · have kept := List.mem_of_mem_take (List.mem_of_mem_drop member)
      obtain ⟨c, -, member⟩ := List.mem_flatMap.mp kept
      exact compact.isZchar_toZchars c zchar member
    · rw [List.eq_of_mem_replicate member]
      unfold IsZchar padding
      decide
  exact pack_of_isZchar all (length_fit _ _)

/-! ## Loading -/

private theorem length_loadWords {image : Image} {count : Nat} {address : Int} {extras : Text}
    (loaded : loadWords image address count = .ok extras) : extras.length = count := by
  induction count generalizing address extras with
  | zero =>
      cases loaded
      rfl
  | succ count ih =>
      obtain ⟨first, -, loaded⟩ := Result.bind_eq_ok loaded
      obtain ⟨rest, more, loaded⟩ := Result.bind_eq_ok loaded
      cases loaded
      rw [List.length_cons, ih more]

private theorem length_loadExtras {image? : Option Image} {address : Int} {extras : Text}
    (loaded : loadExtras image? address = .ok extras) : extras.length ≤ 255 := by
  have standard : Zscii.defaultExtras.length ≤ 255 := by decide +kernel
  unfold loadExtras at loaded
  split at loaded
  · split at loaded
    · rwa [← Except.ok.inj loaded]
    · obtain ⟨count, read, loaded⟩ := Result.bind_eq_ok loaded
      have bound := Image.byte_lt read
      rw [length_loadWords loaded]
      omega
  · rwa [← Except.ok.inj loaded]

private theorem length_toTexts_le (extras : Text) (codes : List Nat) :
    (codes.flatMap fun (code : Nat) => Zscii.toText extras code).length ≤ codes.length := by
  have few (code : Int) : (Zscii.toText extras code).length ≤ 1 := by
    unfold Zscii.toText
    split_ifs <;> try simp
    split <;> simp
  induction codes with
  | nil => simp
  | cons code rest ih =>
      rw [List.flatMap_cons, List.length_append, List.length_cons]
      exact (Nat.add_le_add (few code) ih).trans_eq (Nat.add_comm 1 _)

private theorem length_loadAlphabet {extras : Text} {image : Image} {address : Int} {alphabet : Text}
    (loaded : loadAlphabet extras image address = .ok alphabet) : alphabet.length ≤ 26 := by
  obtain ⟨codes, read, loaded⟩ := Result.bind_eq_ok loaded
  cases loaded
  exact (length_toTexts_le extras codes).trans_eq (Image.byteRun_eq_ok read).1

private theorem length_loadAlphabets {version : Int} {extras : Text} {image? : Option Image}
    {address : Int} {alphabets : Alphabets}
    (loaded : loadAlphabets version extras image? address = .ok alphabets) :
    ∀ alphabet ∈ alphabets.toList, alphabet.length ≤ 26 := by
  have standard : ∀ alphabet ∈ Alphabets.default.toList, alphabet.length ≤ 26 := by
    decide +kernel
  unfold loadAlphabets at loaded
  split at loaded
  · rw [← Except.ok.inj loaded]
    decide +kernel
  split at loaded
  · rwa [← Except.ok.inj loaded]
  split at loaded
  · rwa [← Except.ok.inj loaded]
  · obtain ⟨lower, one, loaded⟩ := Result.bind_eq_ok loaded
    obtain ⟨upper, two, loaded⟩ := Result.bind_eq_ok loaded
    obtain ⟨symbols, three, loaded⟩ := Result.bind_eq_ok loaded
    cases loaded
    have last := length_loadAlphabet three
    simp only [Alphabets.toList, List.forall_mem_cons, List.not_mem_nil, false_implies,
      implies_true, and_true]
    refine ⟨length_loadAlphabet one, length_loadAlphabet two, ?_⟩
    simp only [List.length_append, List.length_cons, List.length_nil, List.length_drop]
    omega

/-- A codec that was loaded packs every text. -/
theorem compact_of_load {version : Int} {image? : Option Image}
    {abbreviations alphabetTable unicodeTable : Int}
    (loaded : load version image? abbreviations alphabetTable unicodeTable = .ok codec) :
    codec.Compact := by
  obtain ⟨extras, read, loaded⟩ := Result.bind_eq_ok loaded
  obtain ⟨alphabets, found, loaded⟩ := Result.bind_eq_ok loaded
  cases loaded
  exact ⟨length_loadAlphabets found, length_loadExtras read⟩

end Codec

/-! ## Stories -/

/-- The names of objects are text. -/
theorem Story.failsWith_objectName (story : Story) (image : Image) (id : Int) :
    Result.FailsWith story.codec.Allows (story.objectName image id) := by
  simp only [objectName, Result.failsWith_bind]
  refine ⟨story.objects.failsWith_shortName image id, ?_⟩
  rintro ⟨address, length⟩ _
  simp only [Result.failsWith_ite, Result.failsWith_pure, implies_true, true_and]
  exact fun _ => story.codec.failsWith_decode image address length

/-- A dictionary that is loaded keeps the codec that it was loaded with. -/
theorem Dictionary.codec_of_load {codec : Codec} {image : Image} {address : Int}
    {dictionary : Dictionary} (loaded : load codec image address = .ok dictionary) :
    dictionary.codec = codec := by
  obtain ⟨count, -, loaded⟩ := Result.bind_eq_ok loaded
  obtain ⟨separators, -, loaded⟩ := Result.bind_eq_ok loaded
  obtain ⟨length, -, loaded⟩ := Result.bind_eq_ok loaded
  obtain ⟨words, -, loaded⟩ := Result.bind_eq_ok loaded
  cases loaded
  rfl

/-- A loaded story packs every text, and its dictionary packs as the story does. -/
theorem Story.codec_of_load {data : Array UInt8} {story : Story} {memory : GameMemory}
    (loaded : load data = .ok (story, memory)) :
    story.codec.Compact ∧ story.dictionary.codec = story.codec := by
  unfold load at loaded
  obtain ⟨image, -, loaded⟩ := Result.bind_eq_ok loaded
  obtain ⟨version, -, loaded⟩ := Result.bind_eq_ok loaded
  dsimp only at loaded
  split at loaded
  · cases loaded
  · obtain ⟨table, -, loaded⟩ := Result.bind_eq_ok loaded
    obtain ⟨codec, found, loaded⟩ := Result.bind_eq_ok loaded
    obtain ⟨dictionary, read, loaded⟩ := Result.bind_eq_ok loaded
    cases loaded
    exact ⟨Codec.compact_of_load found, Dictionary.codec_of_load read⟩

/-- A dictionary that packs every text looks every word up. -/
theorem Dictionary.faults_lookupZscii {dictionary : Dictionary}
    (compact : dictionary.codec.Compact) (image : Image) (word : List Int) :
    Faults (dictionary.lookupZscii image word) := by
  obtain ⟨key, packed⟩ := compact.encrypt_eq_ok (dictionary.codec.zsciiTexts word)
  simp [lookupZscii, lookup, packed]

/-! ## Instructions -/

namespace Instruction

variable (image : Image)

private theorem failsWith_head {P : Failure → Prop} [Failure.Admits P .memoryAccess]
    (address version : Int) :
    Result.FailsWith P (InstructionHead.read image address version) := by
  simp [InstructionHead.read, InstructionHead.withTypes]

private theorem failsWith_readOperands {P : Failure → Prop} [Failure.Admits P .memoryAccess]
    (kinds : List OperandKind) (address : Int) :
    Result.FailsWith P (readOperands image kinds address) := by
  induction kinds generalizing address with
  | nil => simp [readOperands]
  | cons kind kinds ih => simp [readOperands, ih]

private theorem failsWith_readTextIf (present : Bool) (codec : Codec) (tables : Option Image)
    (address : Int) :
    Result.FailsWith codec.Allows (readTextIf present codec tables image address) := by
  cases present with
  | false => simp [readTextIf]
  | true =>
      simp only [readTextIf, readText, ↓reduceIte, Result.failsWith_bind, Result.failsWith_pure,
        implies_true, and_true]
      refine ⟨image.failsWith_zcharsToEnd address, fun zchars read => ?_⟩
      exact codec.failsWith_decodeZchars tables (Image.le_of_mem_zcharsToEnd read)

/-- Text is the only part of an instruction that can fail to be read without a broken rule. -/
theorem failsWith_read (codec : Codec) (tables : Option Image) (address version : Int) :
    Result.FailsWith codec.Allows (read codec tables image address version) := by
  simp only [read, Result.failsWith_bind]
  refine ⟨failsWith_head image address version, fun head _ => ?_⟩
  split
  · rintro failure ⟨⟩
    exact .inl ⟨_, rfl⟩
  · simp only [Result.failsWith_bind, Result.failsWith_pure, implies_true, and_true]
    refine ⟨failsWith_readOperands image _ _, fun operands _ => ?_⟩
    refine ⟨failsWith_readTextIf image _ codec tables _, fun text _ => ?_⟩
    refine ⟨?_, fun target _ => ?_⟩
    · simp [readTargetIf]
    · simp [readBranchIf]

end Instruction

end StoryMachine
