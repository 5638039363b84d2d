import StoryMachine.Proofs.Alphabets

/-!
# Looking words up

Sorted entries are searched by halving: whatever entry has the key stays between the
two ends. Where the entries ascend there is at most one such entry, so that halving
finds what going through the entries finds, the first with the key. Entries that are
not sorted are gone through.
-/

namespace StoryMachine

namespace Dictionary

variable {dictionary : Dictionary} {image : Image} {key : List UInt8} {low high index : Nat}

/-- The keys of the entries ascend strictly, as byte strings. -/
def Ascending (dictionary : Dictionary) (image : Image) : Prop :=
  ∀ second < dictionary.count, ∀ first < second,
    dictionary.key image first < dictionary.key image second

instance (dictionary : Dictionary) (image : Image) : Decidable (dictionary.Ascending image) :=
  inferInstanceAs (Decidable (∀ second < dictionary.count, _))

/-- The first entry with a key. -/
structure FirstWith (dictionary : Dictionary) (image : Image) (key : List UInt8) (index : Nat) :
    Prop where
  inside : index < dictionary.count
  holds : dictionary.key image index = key
  earlier : ∀ before : Nat, before < index → dictionary.key image before ≠ key

private theorem Ascending.lt_of_key_lt (ascending : dictionary.Ascending image) {first second : Nat}
    (inside : first < dictionary.count)
    (less : dictionary.key image first < dictionary.key image second) : first < second := by
  by_contra notLess
  rcases Nat.lt_or_eq_of_le (Nat.le_of_not_lt notLess) with after | same
  · exact absurd less (List.lt_asymm (ascending first inside second after))
  · rw [same] at less
    exact absurd less (List.lt_irrefl _)

private theorem searchSorted_spec (key : List UInt8) (ascending : dictionary.Ascending image)
    (bound : high ≤ dictionary.count)
    (between : ∀ index : Nat, index < dictionary.count → dictionary.key image index = key →
      low ≤ index ∧ index < high) :
    match dictionary.searchSorted image key low high with
    | some index => index < dictionary.count ∧ dictionary.key image index = key
    | none => ∀ index : Nat, index < dictionary.count → dictionary.key image index ≠ key := by
  fun_induction searchSorted dictionary image key low high with
  | case1 low high more middle entry same => exact ⟨by omega, same⟩
  | case2 low high more middle entry differs less ih =>
      -- The entry with the key, if there is one, stands behind the middle.
      refine ih bound fun index inside holds => ?_
      have behind := ascending.lt_of_key_lt (show middle < dictionary.count by omega)
        (holds.symm ▸ less : entry < dictionary.key image index)
      have ends := between index inside holds
      omega
  | case3 low high more middle entry differs notLess ih =>
      have greater : key < entry := Std.lt_of_le_of_ne (List.not_lt.mp notLess) (Ne.symm differs)
      refine ih (by omega) fun index inside holds => ?_
      have before := ascending.lt_of_key_lt inside
        (holds.symm ▸ greater : dictionary.key image index < entry)
      have ends := between index inside holds
      omega
  | case4 low high closed =>
      intro index inside holds
      have ends := between index inside holds
      omega

private theorem searchAll_eq_some_iff :
    dictionary.searchAll image key = some index ↔ dictionary.FirstWith image key index := by
  unfold searchAll
  rw [List.find?_range_eq_some]
  simp only [decide_eq_true_eq, List.mem_range]
  constructor
  · rintro ⟨holds, inside, earlier⟩
    exact ⟨inside, holds, fun before less => by simpa using earlier before less⟩
  · rintro ⟨inside, holds, earlier⟩
    exact ⟨holds, inside, fun before less => by simpa using earlier before less⟩

private theorem searchAll_eq_none_iff :
    dictionary.searchAll image key = none ↔
      ∀ index : Nat, index < dictionary.count → dictionary.key image index ≠ key := by
  unfold searchAll
  rw [List.find?_range_eq_none]
  simp

/-- Among ascending entries only one has the key. -/
theorem Ascending.firstWith (ascending : dictionary.Ascending image)
    (inside : index < dictionary.count) (holds : dictionary.key image index = key) :
    dictionary.FirstWith image key index where
  inside := inside
  holds := holds
  earlier := by
    rintro before less same
    have ascends := ascending index inside before less
    rw [same, holds] at ascends
    exact List.lt_irrefl key ascends

/-- Halving finds what going through the entries finds. -/
theorem search_eq_searchAll (sorted : dictionary.isSorted = true → dictionary.Ascending image)
    (key : List UInt8) : dictionary.search image key = dictionary.searchAll image key := by
  unfold search
  split
  · rename_i flagged
    have ascending := sorted flagged
    have spec := searchSorted_spec key ascending (Nat.le_refl _)
      fun index inside _ => ⟨Nat.zero_le index, inside⟩
    cases found : dictionary.searchSorted image key 0 dictionary.count with
    | none =>
        rw [found] at spec
        exact (searchAll_eq_none_iff.mpr spec).symm
    | some index =>
        rw [found] at spec
        exact (searchAll_eq_some_iff.mpr (ascending.firstWith spec.1 spec.2)).symm
  · rfl

/-! ## Words -/

/-- The address of the first entry with a key, and zero if there is none, by going through all
entries. -/
def scan (dictionary : Dictionary) (image : Image) (key : List UInt8) : Int :=
  match dictionary.searchAll image key with
  | some index => dictionary.entryAddress index
  | none => 0

/-- An address is what a search for a key has to find: that of the first entry with the key, where
the key stands in memory, or zero if and only if there is none. -/
structure Finds (dictionary : Dictionary) (image : Image) (key : List UInt8) (found : Int) :
    Prop where
  scanned : found = dictionary.scan image key
  first : ∀ index : Nat, dictionary.FirstWith image key index →
    found = dictionary.entryAddress index
  missing : found = 0 ↔
    ∀ index : Nat, index < dictionary.count → dictionary.key image index ≠ key
  holds : found ≠ 0 → (image.span found (found + dictionary.keyBytes)).toList = key

/-- The entries of a dictionary stand behind its header. -/
theorem entryAddress_pos {codec : Codec} {header : Image} {address : Int}
    (loaded : load codec header address = .ok dictionary) (index : Nat) :
    0 < dictionary.entryAddress index := by
  obtain ⟨count, first, loaded⟩ := Result.bind_eq_ok loaded
  obtain ⟨separators, -, loaded⟩ := Result.bind_eq_ok loaded
  obtain ⟨length, -, loaded⟩ := Result.bind_eq_ok loaded
  obtain ⟨words, -, loaded⟩ := Result.bind_eq_ok loaded
  obtain ⟨⟨positive, -⟩, -⟩ := Image.byte_eq_ok first
  cases loaded
  have distance := Int.mul_nonneg (Int.natCast_nonneg length) (Int.natCast_nonneg index)
  unfold entryAddress
  dsimp only
  omega

/-- A search of the entries in turn finds an entry with the key, or says that there is none. -/
theorem finds_scan (behind : ∀ index : Nat, 0 < dictionary.entryAddress index) :
    dictionary.Finds image key (dictionary.scan image key) := by
  cases found : dictionary.searchAll image key with
  | none =>
      have none := searchAll_eq_none_iff.mp found
      have zero : dictionary.scan image key = 0 := by
        unfold scan
        rw [found]
      rw [zero]
      refine ⟨zero.symm, fun index first => ?_, ⟨fun _ => none, fun _ => rfl⟩, nofun⟩
      exact absurd first.holds (none index first.inside)
  | some index =>
      have first := searchAll_eq_some_iff.mp found
      have there : dictionary.scan image key = dictionary.entryAddress index := by
        unfold scan
        rw [found]
      have positive := behind index
      rw [there]
      refine ⟨there.symm, fun other first' => ?_, ⟨fun zero => ?_, fun none => ?_⟩, fun _ => ?_⟩
      · have same := found.symm.trans (searchAll_eq_some_iff.mpr first')
        rw [Option.some.inj same]
      · omega
      · exact absurd first.holds (none index first.inside)
      · exact first.holds

/-- A word is found exactly where it is. In a dictionary whose entries ascend if it is flagged as
sorted, every word, given as a text or in the codes of the character set, has a key, and looking
it up finds what going through the entries finds: the address of the first entry with the key,
where the key stands in memory, and zero if and only if no entry has it. -/
theorem lookup_exact {version : Int} {tables? : Option Image}
    {abbreviations alphabetTable unicodeTable : Int} {codec : Codec}
    (coded : Codec.load version tables? abbreviations alphabetTable unicodeTable = .ok codec)
    {header : Image} {address : Int} {dictionary : Dictionary}
    (loaded : Dictionary.load codec header address = .ok dictionary) (image : Image)
    (sorted : dictionary.isSorted = true → dictionary.Ascending image) :
    (∀ word : Text, ∃ key found, codec.encrypt word = .ok key ∧
      dictionary.lookup image word = .ok found ∧ dictionary.Finds image key found) ∧
    ∀ word : List Int, ∃ key found, codec.encrypt (codec.zsciiTexts word) = .ok key ∧
      dictionary.lookupZscii image word = .ok found ∧ dictionary.Finds image key found := by
  have same := codec_of_load loaded
  have texts (word : Text) : ∃ key found, codec.encrypt word = .ok key ∧
      dictionary.lookup image word = .ok found ∧ dictionary.Finds image key found := by
    obtain ⟨key, packed⟩ := (Codec.compact_of_load coded).encrypt_eq_ok word
    refine ⟨key, dictionary.scan image key, packed, ?_, finds_scan (entryAddress_pos loaded)⟩
    unfold lookup
    rw [same, packed, Result.ok_bind, search_eq_searchAll sorted]
    rfl
  refine ⟨texts, fun word => ?_⟩
  unfold lookupZscii
  rw [same]
  exact texts (codec.zsciiTexts word)

/-- The header and three sorted entries of a dictionary without separators: the words of one letter
at the ends of the alphabet, and a word of two between them. -/
def sampleEntries : Image where
  bytes := #[0, 5, 0, 3, 0x18, 0xa5, 0x94, 0xa5, 0, 0x32, 0x85, 0x94, 0xa5, 0, 0x7c, 0xa5, 0x94,
    0xa5, 0]

def sampleDictionary : Dictionary where
  codec := { version := 3 }
  separators := []
  entryLength := 5
  isSorted := true
  count := 3
  entries := 4

/-- In the sample a capital letter does not matter, a word in codes is found like a text, and a word
that would stand between two entries is missing. -/
theorem lookup_exact_sample :
    sampleDictionary.lookup sampleEntries (Text.ofString "Go") = .ok 9 ∧
      sampleDictionary.lookupZscii sampleEntries [122] = .ok 14 ∧
      sampleDictionary.lookup sampleEntries (Text.ofString "x") = .ok 0 := by
  have coded : Codec.load 3 none 0 0 0 = .ok { version := 3 } := rfl
  have loaded : load { version := 3 } sampleEntries 0 = .ok sampleDictionary := by decide +kernel
  have ascending : sampleDictionary.Ascending sampleEntries := by decide +kernel
  obtain ⟨texts, codes⟩ := lookup_exact coded loaded sampleEntries fun _ => ascending
  refine ⟨?_, ?_, ?_⟩
  · obtain ⟨key, found, packed, answer, finds⟩ := texts (Text.ofString "Go")
    have known : Codec.encrypt { version := 3 } (Text.ofString "Go") =
        .ok [0x32, 0x85, 0x94, 0xa5] := by decide +kernel
    cases known.symm.trans packed
    rw [answer, finds.scanned]
    decide +kernel
  · obtain ⟨key, found, packed, answer, finds⟩ := codes [122]
    have known : Codec.encrypt { version := 3 } (Codec.zsciiTexts { version := 3 } [122]) =
        .ok [0x7c, 0xa5, 0x94, 0xa5] := by decide +kernel
    cases known.symm.trans packed
    rw [answer, finds.scanned]
    decide +kernel
  · obtain ⟨key, found, packed, answer, finds⟩ := texts (Text.ofString "x")
    rw [answer, finds.missing.mpr]
    have known : Codec.encrypt { version := 3 } (Text.ofString "x") =
        .ok [0x74, 0xa5, 0x94, 0xa5] := by decide +kernel
    cases known.symm.trans packed
    decide +kernel

end Dictionary

end StoryMachine
