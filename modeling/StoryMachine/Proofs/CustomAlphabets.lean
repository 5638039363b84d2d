import StoryMachine.Proofs.Alphabets

/-!
# Alphabet tables

From version 5 on a story can bring three alphabets of its own, each a row of 26
ZSCII codes. A row becomes a text, and the zchars from six on are the places in
that text. Every code but zero prints one character; zero prints nothing, so that
a row with a zero becomes a shorter text, in which each later code stands one place
too early and the last zchars stand for no character.
-/

namespace StoryMachine

/-- A run of bytes inside the image is read. -/
theorem Image.byteRun_of_inside (image : Image) {count : Nat} {address : Int}
    (inside : 0 ≤ address ∧ address + count ≤ image.size) :
    image.byteRun address count =
      .ok ((List.range count).map fun (place : Nat) => image.peek (address + place).toNat) := by
  induction count generalizing address with
  | zero => rfl
  | succ count ih =>
      have first : image.byte address = .ok (image.peek address.toNat) :=
        byte_of_holds ⟨inside.1, by omega⟩
      rw [byteRun, first, Result.ok_bind, ih ⟨by omega, by omega⟩, Result.ok_bind,
        List.range_succ_eq_map, List.map_cons, List.map_map]
      refine congrArg Except.ok (congrArg₂ List.cons (by simp) (List.map_congr_left ?_))
      intro place _
      simp only [Function.comp_apply]
      congr 2
      omega

namespace Zscii

/-- Every code but zero is printed as one character. -/
theorem toText_of_ne_zero (extras : Text) {code : Int} (printed : code ≠ 0) :
    ∃ c, toText extras code = [c] := by
  unfold toText
  rw [if_neg printed]
  split_ifs
  · exact ⟨_, rfl⟩
  · exact ⟨_, rfl⟩
  · exact ⟨_, rfl⟩
  · split <;> exact ⟨_, rfl⟩
  · exact ⟨_, rfl⟩

/-- The characters of a run of codes are those of its codes other than zero. -/
theorem getElem?_toTexts (extras : Text) (codes : List Nat) (place : Nat) :
    (codes.flatMap fun (code : Nat) => toText extras code)[place]?.map (fun c => [c]) =
      (codes.filter (· ≠ 0))[place]?.map fun (code : Nat) => toText extras code := by
  induction codes generalizing place with
  | nil => rfl
  | cons code rest ih =>
      rw [List.flatMap_cons]
      by_cases silent : code = 0
      · subst silent
        exact ih place
      · obtain ⟨c, text⟩ := toText_of_ne_zero extras (Int.natCast_ne_zero.mpr silent)
        rw [List.filter_cons_of_pos (by simpa using silent), text]
        cases place with
        | zero => simp [text]
        | succ place => simpa using ih place

end Zscii

/-- Filtering keeps the place of an entry that no dropped one precedes. -/
theorem getElem?_filter_of_kept {α : Type} {p : α → Bool} {entries : List α} {place : Nat}
    (kept : ∀ entry ∈ entries.take (place + 1), p entry) :
    (entries.filter p)[place]? = entries[place]? := by
  conv_lhs => rw [← List.take_append_drop (place + 1) entries]
  rw [List.filter_append, List.filter_eq_self.mpr kept]
  by_cases inside : place < entries.length
  · rw [List.getElem?_append_left (by rw [List.length_take]; omega),
      List.getElem?_take_of_lt (Nat.lt_succ_self place)]
  · have short : entries.length ≤ place := Nat.le_of_not_lt inside
    rw [List.take_of_length_le (by omega), List.drop_eq_nil_of_le (by omega), List.filter_nil,
      List.append_nil]

namespace Decoder

/-- A zchar prints a text and ends a shift, whatever abbreviations stand for. -/
def Yields (codec : Codec) (decoder : Decoder) (zchar : Int) (text : Text) : Prop :=
  ∀ expand, feedWith expand codec zchar decoder =
    .ok text { decoder with shifted := none, previous := zchar }

/-- A zchar stands for no character of the alphabet in force. -/
def Misses (codec : Codec) (decoder : Decoder) (zchar : Int) : Prop :=
  ∀ expand, feedWith expand codec zchar decoder =
    .error (.breach .indexOutOfRange) { decoder with previous := zchar }

variable {codec : Codec} {decoder : Decoder} {zchar : Int}

/-- A decoder that expects a character takes the zchar as a plain one. -/
theorem feedExpected_character (ready : decoder.expecting = .character)
    (expand : Int → Result Text) :
    feedExpected expand codec zchar decoder = feedPlain codec zchar decoder := by
  unfold feedExpected
  rw [ready]

/-- The zchars from six on are places in the alphabet in force, but for the escape. -/
theorem feedWith_character (ready : decoder.expecting = .character) (late : 6 ≤ zchar)
    (plain : ¬ (decoder.alphabet = 2 ∧ zchar = 6)) (expand : Int → Result Text) :
    feedWith expand codec zchar decoder =
      match (codec.alphabets.get decoder.alphabet)[(zchar - 6).toNat]? with
      | some c => .ok [c] { decoder with shifted := none, previous := zchar }
      | none => .error (.breach .indexOutOfRange) { decoder with previous := zchar } := by
  unfold feedWith
  rw [feedExpected_character ready]
  unfold feedPlain
  rw [if_neg (by omega), if_neg (by omega), if_neg (by tauto)]
  cases (codec.alphabets.get decoder.alphabet)[(zchar - 6).toNat]? <;> rfl

private theorem yields_of_getElem? {c : CodePoint} (ready : decoder.expecting = .character)
    (late : 6 ≤ zchar) (plain : ¬ (decoder.alphabet = 2 ∧ zchar = 6))
    (found : (codec.alphabets.get decoder.alphabet)[(zchar - 6).toNat]? = some c) :
    Yields codec decoder zchar [c] := by
  intro expand
  rw [feedWith_character ready late plain, found]

private theorem misses_of_getElem? (ready : decoder.expecting = .character)
    (late : 6 ≤ zchar) (plain : ¬ (decoder.alphabet = 2 ∧ zchar = 6))
    (missing : (codec.alphabets.get decoder.alphabet)[(zchar - 6).toNat]? = none) :
    Misses codec decoder zchar := by
  intro expand
  rw [feedWith_character ready late plain, missing]

end Decoder

namespace Codec

open Decoder (Yields Misses)

/-! ## Rows -/

/-- The code that an alphabet table has for a zchar of an alphabet. -/
def tableCode (image : Image) (table : Int) (alphabet : Nat) (zchar : Int) : Nat :=
  image.peek (table + 26 * alphabet + (zchar - 6)).toNat

/-- The codes of one alphabet of a table. -/
def tableRow (image : Image) (table : Int) (alphabet : Nat) : List Nat :=
  (List.range 26).map fun (place : Nat) => tableCode image table alphabet (place + 6)

/-- The codes of one alphabet of a table that print something. -/
def printedRow (image : Image) (table : Int) (alphabet : Nat) : List Nat :=
  (tableRow image table alphabet).filter (· ≠ 0)

/-- The zchars of an alphabet that stand for characters of a table: all from six on but the escape
and the line end of the third. -/
def Stands (alphabet : Nat) (zchar : Int) : Prop :=
  alphabet ≤ 2 ∧ 6 ≤ zchar ∧ zchar ≤ 31 ∧ ¬ (alphabet = 2 ∧ zchar ≤ 7)

instance (alphabet : Nat) (zchar : Int) : Decidable (Stands alphabet zchar) :=
  inferInstanceAs (Decidable (_ ∧ _))

variable {image : Image} {table : Int} {extras : Text}

private theorem getElem?_tableRow {alphabet : Nat} {zchar : Int} (late : 6 ≤ zchar) (small : zchar ≤ 31) :
    (tableRow image table alphabet)[(zchar - 6).toNat]? =
      some (tableCode image table alphabet zchar) := by
  have inside : (zchar - 6).toNat < 26 := by omega
  have back : ((zchar - 6).toNat : Int) + 6 = zchar := by omega
  rw [tableRow, List.getElem?_map, List.getElem?_range inside, Option.map_some, back]

/-- A code stands at its own place if no zero precedes it in its row. -/
theorem getElem?_printedRow {alphabet : Nat} {zchar : Int} (late : 6 ≤ zchar) (small : zchar ≤ 31)
    (printed : ∀ earlier, 6 ≤ earlier → earlier ≤ zchar →
      tableCode image table alphabet earlier ≠ 0) :
    (printedRow image table alphabet)[(zchar - 6).toNat]? =
      some (tableCode image table alphabet zchar) := by
  rw [printedRow, getElem?_filter_of_kept, getElem?_tableRow late small]
  intro code member
  rw [tableRow, ← List.map_take, List.take_range] at member
  obtain ⟨place, bound, rfl⟩ := List.mem_map.mp member
  have before := List.mem_range.mp bound
  exact decide_eq_true (printed _ (by omega) (by omega))

/-- An alphabet of a table is the text of its row. -/
theorem loadAlphabet_row (extras : Text) (inside : 0 ≤ table ∧ table + 78 ≤ image.size)
    (alphabet : Nat) (known : alphabet ≤ 2) :
    loadAlphabet extras image (table + 26 * alphabet) =
      .ok ((tableRow image table alphabet).flatMap fun (code : Nat) =>
        Zscii.toText extras code) := by
  rw [loadAlphabet, image.byteRun_of_inside ⟨by omega, by omega⟩, Result.ok_bind]
  refine congrArg (fun codes : List Nat => Except.ok (codes.flatMap fun (code : Nat) =>
    Zscii.toText extras code)) (List.map_congr_left fun place _ => ?_)
  unfold tableCode
  congr 2
  omega

/-- The alphabets of a table are the texts of its rows, and the first two symbols are fixed. -/
theorem loadAlphabets_table (extras : Text) {version : Int} (late : 5 ≤ version)
    (custom : table ≠ 0) (inside : 0 ≤ table ∧ table + 78 ≤ image.size) :
    ∃ alphabets, loadAlphabets version extras (some image) table = .ok alphabets ∧
      alphabets.symbols.take 2 = [0x20, 0x0a] ∧
      ∀ alphabet zchar, Stands alphabet zchar →
        (alphabets.get alphabet)[(zchar - 6).toNat]?.map (fun c => [c]) =
          (printedRow image table alphabet)[(zchar - 6).toNat]?.map
            fun (code : Nat) => Zscii.toText extras code := by
  have lower := loadAlphabet_row extras inside 0 (by decide)
  have upper := loadAlphabet_row extras inside 1 (by decide)
  have symbols := loadAlphabet_row extras inside 2 (by decide)
  rw [show table + 26 * (0 : Nat) = table by omega] at lower
  rw [show table + 26 * (1 : Nat) = table + 26 by omega] at upper
  rw [show table + 26 * (2 : Nat) = table + 52 by omega] at symbols
  unfold loadAlphabets
  rw [if_neg (by omega), if_neg (by omega)]
  simp only [lower, upper, symbols, Result.ok_bind]
  refine ⟨_, rfl, rfl, ?_⟩
  rintro alphabet zchar ⟨known, -, -, other⟩
  obtain rfl | rfl | rfl : alphabet = 0 ∨ alphabet = 1 ∨ alphabet = 2 := by omega
  · exact Zscii.getElem?_toTexts extras _ _
  · exact Zscii.getElem?_toTexts extras _ _
  · obtain ⟨place, place_eq⟩ : ∃ place, (zchar - 6).toNat = place + 2 :=
      ⟨(zchar - 8).toNat, by omega⟩
    refine Eq.trans ?_ (Zscii.getElem?_toTexts extras _ _)
    simp [Alphabets.get, place_eq, Nat.add_comm]

/-! ## Reading -/

/-- How a codec reads the zchars of an alphabet table. -/
structure ReadsTable (codec : Codec) (image : Image) (table : Int) : Prop where
  /-- The line end of the third alphabet is fixed. -/
  newline : ∀ decoder : Decoder, decoder.expecting = .character → decoder.alphabet = 2 →
    Yields codec decoder 7 [0x0a]
  /-- A zchar prints the code at its place among those of its row that are not zero. -/
  printed : ∀ (decoder : Decoder) (zchar : Int) (code : Nat), decoder.expecting = .character →
    Stands decoder.alphabet zchar →
    (printedRow image table decoder.alphabet)[(zchar - 6).toNat]? = some code →
    Yields codec decoder zchar (codec.zsciiText code)
  /-- A zchar beyond them stands for no character. -/
  missing : ∀ (decoder : Decoder) (zchar : Int), decoder.expecting = .character →
    Stands decoder.alphabet zchar →
    (printedRow image table decoder.alphabet)[(zchar - 6).toNat]? = none →
    Misses codec decoder zchar
  /-- A zchar prints the code at its own place if its row has no zero up to there. -/
  in_place : ∀ (decoder : Decoder) (zchar : Int), decoder.expecting = .character →
    Stands decoder.alphabet zchar →
    (∀ earlier, 6 ≤ earlier → earlier ≤ zchar →
      tableCode image table decoder.alphabet earlier ≠ 0) →
    Yields codec decoder zchar (codec.zsciiText (tableCode image table decoder.alphabet zchar))

/-- A story with an alphabet table is read by it: a zchar prints the code at its place in the row
of its alphabet, where zeros do not count. -/
theorem alphabet_table_read {version abbreviations unicodeTable : Int} (late : 5 ≤ version)
    (custom : table ≠ 0) (inside : 0 ≤ table ∧ table + 78 ≤ image.size)
    (named : loadExtras (some image) unicodeTable = .ok extras) :
    ∃ codec, load version (some image) abbreviations table unicodeTable = .ok codec ∧
      codec.extras = extras ∧ codec.ReadsTable image table := by
  obtain ⟨alphabets, loaded, fixed, rows⟩ := loadAlphabets_table extras late custom inside
  refine ⟨{ version, abbreviations, alphabets, extras }, ?_, rfl, ?_⟩
  · rw [load, named, Result.ok_bind, loaded, Result.ok_bind]
    rfl
  have printed : ∀ (decoder : Decoder) (zchar : Int) (code : Nat),
      decoder.expecting = .character → Stands decoder.alphabet zchar →
      (printedRow image table decoder.alphabet)[(zchar - 6).toNat]? = some code →
      Yields { version, abbreviations, alphabets, extras } decoder zchar
        (Zscii.toText extras code) := by
    intro decoder zchar code ready stands found
    have row := rows decoder.alphabet zchar stands
    obtain ⟨-, later, -, other⟩ := stands
    rw [found, Option.map_some] at row
    obtain ⟨c, place, text⟩ := Option.map_eq_some_iff.mp row
    rw [← text]
    exact Decoder.yields_of_getElem? ready later (by omega) place
  refine ⟨?_, printed, ?_, ?_⟩
  · intro decoder ready third
    refine Decoder.yields_of_getElem? ready (by decide) (by omega) ?_
    have place : alphabets.symbols[1]? = (alphabets.symbols.take 2)[1]? := by simp
    rw [third]
    exact place.trans (by rw [fixed]; rfl)
  · intro decoder zchar ready stands missing
    have row := rows decoder.alphabet zchar stands
    obtain ⟨-, later, -, other⟩ := stands
    rw [missing, Option.map_none] at row
    exact Decoder.misses_of_getElem? ready later (by omega) (Option.map_eq_none_iff.mp row)
  · intro decoder zchar ready stands clear
    exact printed decoder zchar _ ready stands
      (getElem?_printedRow stands.2.1 stands.2.2.1 clear)

/-- An alphabet table at address two whose first code is zero. -/
def gappedTable : Image where
  bytes := ([0, 0, 0] ++ (List.range 25).map (UInt8.ofNat <| · + 97) ++
    (List.range 26).map (UInt8.ofNat <| · + 65) ++
    (List.range 26).map (UInt8.ofNat <| · + 32)).toArray

/-- The table with a gap is read with its first alphabet one place too early. -/
theorem alphabet_table_read_gapped :
    (5 : Int) ≤ 5 ∧ (2 : Int) ≠ 0 ∧ ((0 : Int) ≤ 2 ∧ (2 : Int) + 78 ≤ gappedTable.size) ∧
      loadExtras (some gappedTable) 0 = .ok Zscii.defaultExtras ∧
      ∃ codec, load 5 (some gappedTable) 0 2 0 = .ok codec ∧
        Yields codec {} 7 (codec.zsciiText 98) ∧ Misses codec {} 31 ∧
        tableCode gappedTable 2 0 7 = 97 := by
  have late : (5 : Int) ≤ 5 := by decide
  have custom : (2 : Int) ≠ 0 := by decide
  have inside : (0 : Int) ≤ 2 ∧ (2 : Int) + 78 ≤ gappedTable.size := by decide
  have named : loadExtras (some gappedTable) 0 = .ok Zscii.defaultExtras := rfl
  obtain ⟨codec, loaded, -, reads⟩ :
      ∃ codec, load 5 (some gappedTable) 0 2 0 = .ok codec ∧
        codec.extras = Zscii.defaultExtras ∧ codec.ReadsTable gappedTable 2 :=
    alphabet_table_read late custom inside named
  refine ⟨late, custom, inside, named, codec, loaded, ?_, ?_, by decide +kernel⟩
  · exact reads.printed {} 7 98 rfl (by decide) (by decide +kernel)
  · exact reads.missing {} 31 rfl (by decide) (by decide +kernel)

/-- The codec of the table with a gap. -/
def gappedCodec : Codec where
  version := 5
  alphabets :=
    { lower := (List.range 25).map (· + 97)
      upper := (List.range 26).map (· + 65)
      symbols := [0x20, 0x0a] ++ (List.range 24).map (· + 34) }

/-- A zchar does not always print the code at its own place in the table. -/
theorem not_forall_code_in_place :
    ¬ ∀ (version abbreviations table unicodeTable : Int) (image : Image) (codec : Codec)
      (decoder : Decoder) (zchar : Int), 5 ≤ version → table ≠ 0 →
      0 ≤ table ∧ table + 78 ≤ image.size →
      load version (some image) abbreviations table unicodeTable = .ok codec →
      decoder.expecting = .character → Stands decoder.alphabet zchar →
      Yields codec decoder zchar
        (codec.zsciiText (tableCode image table decoder.alphabet zchar)) := by
  intro claimed
  have loaded : load 5 (some gappedTable) 0 2 0 = .ok gappedCodec := by decide +kernel
  have prints := claimed 5 0 2 0 gappedTable gappedCodec {} 7 (by decide) (by decide) (by decide)
    loaded rfl (by decide)
  have actual : Yields gappedCodec {} 7 [98] :=
    Decoder.yields_of_getElem? rfl (by decide) (by decide) (by decide +kernel)
  have same := (prints fun _ => .ok []).symm.trans (actual fun _ => .ok [])
  injection same with text
  exact absurd text (by decide +kernel)

end Codec

end StoryMachine
