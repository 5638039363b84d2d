import StoryMachine.Proofs.ChunkForms

/-!
# The geometry of a form

The chunks that are read from a form are the consecutive records of its body: the
first stands at offset 12, and each of the others right after the data of the one
before it, or after a pad byte if that data has an odd length. What was read and
is written again gives the form back, unless a pad byte was missing or not zero.
-/

namespace StoryMachine

/-- A span between two positions of a list. -/
theorem Span.ofList_of_le {α : Type} (xs : List α) {start stop : Int} (positive : 0 ≤ start)
    (ordered : start ≤ stop) (inside : stop ≤ xs.length) :
    Span.ofList xs start stop = (xs.drop start.toNat).take (stop - start).toNat := by
  have first : min start.toNat xs.length = start.toNat := by omega
  have last : min stop.toNat xs.length = stop.toNat := by omega
  have long : stop.toNat - start.toNat = (stop - start).toNat := by omega
  unfold Span.ofList Span.position
  rw [if_neg (by omega), if_neg (by omega), first, last, List.drop_take, long]

namespace Chunk

variable {use : ContainerUse} {type : String} {data : List UInt8} {chunk : Chunk}
  {chunks : List Chunk}

/-! ## Fields that are read -/

/-- The digits of the number that bytes spell are these bytes. -/
theorem digits_number (bytes : List UInt8) : digits bytes.length (number bytes) = bytes := by
  induction bytes using List.reverseRecOn with
  | nil => rfl
  | append_singleton bytes byte ih =>
      have small := byte.toNat_lt
      have quotient : (number bytes * 256 + byte.toNat) / 256 = number bytes := by omega
      have low : UInt8.ofNat (number bytes * 256 + byte.toNat) = byte := by
        apply UInt8.toNat_inj.mp
        rw [UInt8.toNat_ofNat']
        omega
      rw [number_append_singleton, List.length_append, List.length_singleton, digits, quotient,
        low, ih]

/-- A byte is the number of its Latin-1 character. -/
theorem toNat_charOfByte (byte : UInt8) : (Char.ofNat byte.toNat).toNat = byte.toNat := by
  have small := byte.toNat_lt
  have valid : byte.toNat.isValidChar := by
    unfold Nat.isValidChar
    omega
  unfold Char.ofNat
  rw [dif_pos valid]
  rfl

/-- Bytes are what they are read as. -/
theorem nameBytes_latin (bytes : List UInt8) : nameBytes (latin bytes) = bytes := by
  have back (byte : UInt8) : UInt8.ofNat (Char.ofNat byte.toNat).toNat = byte := by
    rw [toNat_charOfByte, UInt8.ofNat_toNat]
  unfold nameBytes latin
  rw [String.toList_ofList, List.map_map]
  conv_rhs => rw [← List.map_id bytes]
  exact List.map_congr_left fun byte _ => back byte

/-- Four bytes are a name. -/
theorem isName_latin {bytes : List UInt8} (four : bytes.length = 4) : IsName (latin bytes) := by
  unfold IsName latin
  rw [String.toList_ofList, List.length_map]
  refine ⟨four, ?_⟩
  intro c member
  obtain ⟨byte, -, rfl⟩ := List.mem_map.mp member
  rw [toNat_charOfByte]
  exact byte.toNat_lt

/-- A type whose bytes are four is a name. -/
theorem isName_of_ofLatin {bytes : List UInt8} (encoded : ofLatin type = .ok bytes)
    (four : bytes.length = 4) : IsName type ∧ nameBytes type = bytes := by
  unfold ofLatin at encoded
  split at encoded
  · rename_i latin
    cases encoded
    rw [List.length_map] at four
    refine ⟨⟨four, ?_⟩, rfl⟩
    intro c member
    exact of_decide_eq_true (List.all_eq_true.mp latin c member)
  · cases encoded

/-! ## Records -/

/-- The chunk stands in the data: its name and its length at its offset, then its content. -/
structure StandsIn (data : List UInt8) (chunk : Chunk) : Prop where
  positive : 0 ≤ chunk.offset
  inside : chunk.offset + 8 + chunk.data.length ≤ data.length
  name : latin ((data.drop chunk.offset.toNat).take 4) = chunk.id
  count : number ((data.drop (chunk.offset.toNat + 4)).take 4) = chunk.data.length
  content : (data.drop (chunk.offset.toNat + 8)).take chunk.data.length = chunk.data

/-- Where the record after a chunk starts: after its data and a pad byte behind odd data. -/
def stop (chunk : Chunk) : Int :=
  chunk.offset + 8 + chunk.data.length + (padding chunk.data).length

/-- The chunks are the records of the data from an offset on, one right after the other, up to its
end. -/
def Consecutive (data : List UInt8) : Int → List Chunk → Prop
  | offset, [] => data.length ≤ offset
  | offset, chunk :: rest =>
      offset < data.length ∧ chunk.offset = offset ∧ chunk.StandsIn data ∧
        Consecutive data chunk.stop rest

/-- The pad byte behind data of odd length is there and is zero. -/
def Padded (data : List UInt8) (chunk : Chunk) : Prop :=
  chunk.data.length % 2 = 1 → data[chunk.offset.toNat + 8 + chunk.data.length]? = some 0

/-- What is read at an offset is the record that stands there. -/
theorem read_eq_ok_iff {offset next : Int} (positive : 0 ≤ offset) :
    read use data offset = .ok (chunk, next) ↔
      chunk.offset = offset ∧ chunk.StandsIn data ∧ next = chunk.stop := by
  by_cases room : (data.length : Int) < offset + 8
  · have refused :
        read use data offset = Result.fault (.container use (.truncatedHeader offset)) := by
      unfold read
      rw [if_pos room]
      rfl
    rw [refused]
    constructor
    · intro found
      cases found
    · rintro ⟨rfl, stands, -⟩
      have inside := stands.inside
      omega
  have named : Span.ofList data offset (offset + 4) = (data.drop offset.toNat).take 4 := by
    rw [Span.ofList_of_le data positive (by omega) (by omega), add_sub_cancel_left]
    rfl
  have counted : Span.ofList data (offset + 4) (offset + 8) =
      (data.drop (offset.toNat + 4)).take 4 := by
    have start : (offset + 4).toNat = offset.toNat + 4 := by omega
    have width : (offset + 8 - (offset + 4)).toNat = 4 := by omega
    rw [Span.ofList_of_le data (by omega) (by omega) (by omega), start, width]
  have four : ((data.drop (offset.toNat + 4)).take 4).length = 4 := by
    rw [List.length_take, List.length_drop]
    omega
  obtain ⟨length, spelled⟩ : ∃ length, number ((data.drop (offset.toNat + 4)).take 4) = length :=
    ⟨_, rfl⟩
  have field4 : field 4 ((data.drop (offset.toNat + 4)).take 4) = .ok length := by
    unfold field
    rw [if_pos four, spelled]
  have width : (offset + 8 + length - (offset + 8)).toNat = length := by omega
  have start : (offset + 8).toNat = offset.toNat + 8 := by omega
  have unfolded : read use data offset =
      if (data.length : Int) < offset + 8 + length then
        Result.fault (.container use (.truncatedChunk (latin ((data.drop offset.toNat).take 4))
          offset length (data.length - (offset + 8))))
      else .ok ({
          id := latin ((data.drop offset.toNat).take 4), offset
          data := Span.ofList data (offset + 8) (offset + 8 + length) },
        offset + 8 + length + if length % 2 = 1 then 1 else 0) := by
    unfold read
    rw [if_neg room, named, counted, field4]
    by_cases short : (data.length : Int) < offset + 8 + length
    · simp only [bind, Except.bind, if_pos short]
      rfl
    · simp only [bind, Except.bind, if_neg short]
      rfl
  rw [unfolded]
  constructor
  · intro found
    split at found
    · cases found
    · rename_i fits
      have ordered : offset + 8 ≤ offset + 8 + length := by omega
      have content := Span.ofList_of_le data (by omega) ordered (by omega)
      rw [width, start] at content
      have long : (Span.ofList data (offset + 8) (offset + 8 + length)).length = length := by
        rw [content, List.length_take, List.length_drop]
        omega
      cases found
      refine ⟨rfl, ⟨positive, ?_, rfl, ?_, ?_⟩, ?_⟩
      · dsimp only
        omega
      · rw [long]
        exact spelled
      · rw [long]
        exact content.symm
      · unfold stop
        rw [length_padding, long]
        dsimp only
        split <;> rfl
  · rintro ⟨rfl, stands, rfl⟩
    have inside := stands.inside
    have same : length = chunk.data.length := spelled.symm.trans stands.count
    subst same
    rw [if_neg (by omega)]
    have ordered : chunk.offset + 8 ≤ chunk.offset + 8 + chunk.data.length := by omega
    have content := Span.ofList_of_le data (by omega) ordered (by omega)
    rw [width, start, stands.content] at content
    rw [content, stands.name]
    unfold stop
    rw [length_padding]
    refine congrArg Except.ok (Prod.ext rfl ?_)
    dsimp only
    split <;> rfl

/-- A chunk has at least its header. -/
theorem le_stop (chunk : Chunk) : chunk.offset + 8 ≤ chunk.stop := by
  unfold stop
  omega

/-- The chunks that are read from an offset on are the consecutive records. -/
theorem readAll_eq_ok_iff {offset : Int} (positive : 0 ≤ offset) :
    readAll use data offset = .ok chunks ↔ Consecutive data offset chunks := by
  induction chunks generalizing offset with
  | nil =>
      unfold Consecutive
      rw [readAll]
      split
      · rename_i inside
        refine ⟨fun found => ?_, fun outside => by omega⟩
        split at found
        · cases found
        split at found
        · obtain ⟨rest, -, found⟩ := Result.bind_eq_ok found
          cases found
        · cases found
      · rename_i outside
        exact ⟨fun _ => by omega, fun _ => rfl⟩
  | cons chunk rest ih =>
      unfold Consecutive
      rw [readAll]
      split
      · rename_i inside
        constructor
        · intro found
          split at found
          · cases found
          rename_i first next read
          obtain ⟨at_offset, stands, rfl⟩ := (read_eq_ok_iff positive).mp read
          have forward := le_stop first
          rw [dif_pos (by omega)] at found
          obtain ⟨others, readOthers, found⟩ := Result.bind_eq_ok found
          cases found
          exact ⟨inside, at_offset, stands, (ih (by omega)).mp readOthers⟩
        · rintro ⟨-, at_offset, stands, follow⟩
          have forward := le_stop chunk
          rw [(read_eq_ok_iff positive).mpr ⟨at_offset, stands, rfl⟩]
          dsimp only
          rw [dif_pos (by omega), (ih (by omega)).mpr follow]
          rfl
      · rename_i outside
        constructor
        · intro found
          cases found
        · rintro ⟨inside, -⟩
          exact absurd inside outside

/-- A padded record is written as it stands. -/
theorem StandsIn.drop_eq (stands : chunk.StandsIn data) (padded : chunk.Padded data) :
    data.drop chunk.offset.toNat =
      bytesOf (chunk.id, chunk.data) ++ data.drop chunk.stop.toNat := by
  have positive := stands.positive
  have inside := stands.inside
  have name : nameBytes chunk.id = (data.drop chunk.offset.toNat).take 4 := by
    rw [← stands.name, nameBytes_latin]
  have four : ((data.drop (chunk.offset.toNat + 4)).take 4).length = 4 := by
    rw [List.length_take, List.length_drop]
    omega
  have count : digits 4 chunk.data.length = (data.drop (chunk.offset.toNat + 4)).take 4 := by
    have spelled := digits_number ((data.drop (chunk.offset.toNat + 4)).take 4)
    rwa [four, stands.count] at spelled
  have pad : data.drop (chunk.offset.toNat + 8 + chunk.data.length) =
      padding chunk.data ++ data.drop chunk.stop.toNat := by
    unfold Padded at padded
    unfold stop padding
    by_cases odd : chunk.data.length % 2 = 1
    · obtain ⟨present, zero⟩ := List.getElem?_eq_some_iff.mp (padded odd)
      have next : (chunk.offset + 8 + chunk.data.length + (1 : Nat)).toNat =
          chunk.offset.toNat + 8 + chunk.data.length + 1 := by omega
      rw [if_pos odd, List.drop_eq_getElem_cons present, zero, List.length_singleton, next]
      rfl
    · have next : (chunk.offset + 8 + chunk.data.length + (0 : Nat)).toNat =
          chunk.offset.toNat + 8 + chunk.data.length := by omega
      rw [if_neg odd, List.length_nil, next]
      rfl
  calc data.drop chunk.offset.toNat
      = (data.drop chunk.offset.toNat).take 4 ++ data.drop (chunk.offset.toNat + 4) := by
        rw [← List.drop_drop, List.take_append_drop]
    _ = (data.drop chunk.offset.toNat).take 4 ++
          ((data.drop (chunk.offset.toNat + 4)).take 4 ++ data.drop (chunk.offset.toNat + 8)) := by
        rw [← List.drop_drop (i := 4) (j := chunk.offset.toNat + 4), List.take_append_drop]
    _ = nameBytes chunk.id ++ (digits 4 chunk.data.length ++ (chunk.data ++
          data.drop (chunk.offset.toNat + 8 + chunk.data.length))) := by
        rw [name, count]
        conv_lhs => rw [← List.take_append_drop chunk.data.length
          (data.drop (chunk.offset.toNat + 8)), stands.content, List.drop_drop]
    _ = bytesOf (chunk.id, chunk.data) ++ data.drop chunk.stop.toNat := by
        rw [pad, bytesOf]
        simp only [List.append_assoc]

private theorem Consecutive.drop_eq {offset : Int} (follow : Consecutive data offset chunks)
    (padded : ∀ chunk ∈ chunks, chunk.Padded data) :
    data.drop offset.toNat = (chunks.map fun chunk => (chunk.id, chunk.data)).flatMap bytesOf := by
  induction chunks generalizing offset with
  | nil =>
      unfold Consecutive at follow
      exact List.drop_eq_nil_of_le (by omega)
  | cons chunk rest ih =>
      obtain ⟨-, rfl, stands, follow⟩ := follow
      rw [stands.drop_eq (padded chunk List.mem_cons_self),
        ih follow fun other member => padded other (List.mem_cons_of_mem _ member)]
      rfl

private theorem Consecutive.standsIn {offset : Int} (follow : Consecutive data offset chunks) :
    ∀ chunk ∈ chunks, chunk.StandsIn data := by
  induction chunks generalizing offset with
  | nil => exact List.forall_mem_nil _
  | cons chunk rest ih =>
      obtain ⟨-, -, stands, follow⟩ := follow
      exact List.forall_mem_cons.mpr ⟨stands, ih follow⟩

/-- A chunk that stands in a file has a name. -/
theorem StandsIn.isName (stands : chunk.StandsIn data) : IsName chunk.id := by
  rw [← stands.name]
  apply isName_latin
  have inside := stands.inside
  have positive := stands.positive
  rw [List.length_take, List.length_drop]
  omega

/-! ## Forms -/

/-- The length that a form declares: its bytes after the length field. -/
def formLength (file : List UInt8) : Nat :=
  number ((file.drop 4).take 4)

/-- The part of a file that its form declares. -/
def formPart (file : List UInt8) : List UInt8 :=
  file.take (8 + formLength file)

/-- The file starts as a form of the type and has as many bytes as the form declares. -/
structure IsForm (type : String) (file : List UInt8) : Prop where
  long : 12 ≤ file.length
  marked : latin (file.take 4) = "FORM"
  typed : ofLatin type = .ok ((file.drop 8).take 4)
  whole : 8 + formLength file ≤ file.length

/-- A form is read if its body consists of records, and then into these. -/
theorem readForm_eq_ok_iff {file : List UInt8} :
    readForm use type file = .ok chunks ↔
      IsForm type file ∧ Consecutive (formPart file) 12 chunks := by
  have records : readAll use (formPart file) 12 = .ok chunks ↔
      Consecutive (formPart file) 12 chunks := readAll_eq_ok_iff (by decide)
  rw [← records]
  unfold readForm formPart formLength
  constructor
  · intro found
    dsimp only at found
    split at found
    · cases found
    rename_i header
    obtain ⟨long, marked⟩ := not_or.mp header
    obtain ⟨name, encoded, found⟩ := Result.bind_eq_ok found
    split at found
    · cases found
    rename_i typed
    split at found
    · cases found
    rename_i whole
    refine ⟨⟨not_lt.mp long, not_not.mp marked, ?_, not_lt.mp whole⟩, found⟩
    rw [encoded, not_not.mp typed]
  · rintro ⟨form, found⟩
    have header : ¬ (file.length < 12 ∨ latin (file.take 4) ≠ "FORM") :=
      not_or.mpr ⟨not_lt.mpr form.long, not_not.mpr form.marked⟩
    have whole : ¬ file.length < 8 + number ((file.drop 4).take 4) := not_lt.mpr form.whole
    dsimp only
    rw [if_neg header, form.typed, Result.ok_bind, if_neg (not_not.mpr rfl), if_neg whole]
    exact found

/-- A form is taken apart into its mark, its length, its type and its body. -/
theorem IsForm.formPart_eq {file : List UInt8} (form : IsForm type file)
    (long : 4 ≤ formLength file) :
    formPart file = nameBytes "FORM" ++ (digits 4 (formLength file) ++
      (nameBytes type ++ (formPart file).drop 12)) := by
  have enough := form.long
  have four : ((file.drop 8).take 4).length = 4 := by
    rw [List.length_take, List.length_drop]
    omega
  have counted : ((file.drop 4).take 4).length = 4 := by
    rw [List.length_take, List.length_drop]
    omega
  have mark : nameBytes "FORM" = (formPart file).take 4 := by
    unfold formPart
    rw [List.take_take, Nat.min_eq_left (by omega), ← form.marked, nameBytes_latin]
  have length : digits 4 (formLength file) = ((formPart file).drop 4).take 4 := by
    have spelled := digits_number ((file.drop 4).take 4)
    rw [counted] at spelled
    unfold formPart
    rw [List.drop_take, List.take_take, Nat.min_eq_left (by omega)]
    exact spelled
  have name : nameBytes type = ((formPart file).drop 8).take 4 := by
    unfold formPart
    rw [List.drop_take, List.take_take, Nat.min_eq_left (by omega)]
    exact (isName_of_ofLatin form.typed four).2
  rw [mark, length, name]
  conv_lhs => rw [← List.take_append_drop 4 (formPart file),
    ← List.take_append_drop 4 ((formPart file).drop 4), List.drop_drop,
    ← List.take_append_drop 4 ((formPart file).drop 8), List.drop_drop]

private theorem length_formPart {file : List UInt8} (form : IsForm type file) :
    (formPart file).length = 8 + formLength file := by
  unfold formPart
  rw [List.length_take, Nat.min_eq_left form.whole]

/-- The records of a padded form are written as they stand. -/
theorem writeForm_of_consecutive {file : List UInt8} (form : IsForm type file)
    (long : 4 ≤ formLength file) (follow : Consecutive (formPart file) 12 chunks)
    (padded : ∀ chunk ∈ chunks, chunk.Padded (formPart file)) :
    writeForm type (chunks.map fun chunk => (chunk.id, chunk.data)) = .ok (formPart file) := by
  have enough := form.long
  have four : ((file.drop 8).take 4).length = 4 := by
    rw [List.length_take, List.length_drop]
    omega
  have body := follow.drop_eq padded
  have size : formSize (chunks.map fun chunk => (chunk.id, chunk.data)) = formLength file := by
    unfold formSize
    rw [← body, List.length_drop, length_formPart form]
    omega
  have small : formLength file < 256 ^ 4 := by
    have bound := number_lt ((file.drop 4).take 4)
    have short : ((file.drop 4).take 4).length = 4 := by
      rw [List.length_take, List.length_drop]
      omega
    rwa [short] at bound
  have names : ∀ piece ∈ chunks.map fun chunk => (chunk.id, chunk.data), IsName piece.1 := by
    intro piece member
    obtain ⟨chunk, listed, rfl⟩ := List.mem_map.mp member
    exact (follow.standsIn chunk listed).isName
  rw [writeForm_of_isName (isName_of_ofLatin form.typed four).1 names (by rwa [size]), formBytes,
    size, ← body]
  exact congrArg Except.ok (form.formPart_eq long).symm

/-- Written chunks are read back with their names, their data and the offsets at which their records
stand in the file. A form is read exactly if its body is a row of records, and gives these; written
again they are the part of the file that the form declares, if the form has room for its type and
the pad bytes are there and are zero. -/
theorem forms_round_trip (use : ContainerUse) (type : String) :
    (∀ pieces : List (String × List UInt8), IsName type → (∀ piece ∈ pieces, IsName piece.1) →
      formSize pieces < 2 ^ 32 →
      ∃ file chunks, writeForm type pieces = .ok file ∧ readForm use type file = .ok chunks ∧
        chunks.map (fun chunk => (chunk.id, chunk.data)) = pieces ∧
        Consecutive file 12 chunks) ∧
    ∀ (file : List UInt8) (chunks : List Chunk),
      (readForm use type file = .ok chunks ↔
        IsForm type file ∧ Consecutive (formPart file) 12 chunks) ∧
      (readForm use type file = .ok chunks → 4 ≤ formLength file →
        (∀ chunk ∈ chunks, chunk.Padded (formPart file)) →
        writeForm type (chunks.map fun chunk => (chunk.id, chunk.data)) = .ok (formPart file)) := by
  refine ⟨?_, fun file chunks => ⟨readForm_eq_ok_iff, ?_⟩⟩
  · intro pieces typeName names small
    have fits : formSize pieces < 256 ^ 4 := small
    obtain ⟨chunks, found, same⟩ := readForm_formBytes use typeName names fits
    refine ⟨formBytes type pieces, chunks, writeForm_of_isName typeName names fits, found, same, ?_⟩
    obtain ⟨form, follow⟩ := readForm_eq_ok_iff.mp found
    -- All of a written file is its form.
    have declared : formLength (formBytes type pieces) = formSize pieces := by
      unfold formLength
      rw [formBytes, List.drop_left' (length_nameBytes isName_form),
        List.take_left' (length_digits 4 _), number_digits_of_lt fits]
    have all : formPart (formBytes type pieces) = formBytes type pieces := by
      unfold formPart
      rw [declared]
      exact List.take_of_length_le (length_formBytes typeName pieces).le
    rwa [all] at follow
  · intro found long padded
    obtain ⟨form, follow⟩ := readForm_eq_ok_iff.mp found
    exact writeForm_of_consecutive form long follow padded

/-- Two chunks, the first with data of odd length. -/
def samplePieces : List (String × List UInt8) :=
  [("ODD ", [7, 8, 9]), ("EVEN", [])]

/-- A form with these chunks, and a byte after its end. -/
def sampleFile : List UInt8 :=
  [0x46, 0x4f, 0x52, 0x4d, 0, 0, 0, 24, 0x54, 0x45, 0x53, 0x54,
    0x4f, 0x44, 0x44, 0x20, 0, 0, 0, 3, 7, 8, 9, 0,
    0x45, 0x56, 0x45, 0x4e, 0, 0, 0, 0, 0xff]

/-- The chunks stand at 12 and at 24, and the byte after the form is not written again. -/
theorem forms_round_trip_sample :
    (∃ file chunks, writeForm "TEST" samplePieces = .ok file ∧
      readForm .resources "TEST" file = .ok chunks ∧
      chunks.map (fun chunk => (chunk.id, chunk.data)) = samplePieces ∧
      Consecutive file 12 chunks) ∧
    ∃ chunks, readForm .resources "TEST" sampleFile = .ok chunks ∧
      chunks.map Chunk.offset = [12, 24] ∧
      Consecutive (formPart sampleFile) 12 chunks ∧
      writeForm "TEST" (chunks.map fun chunk => (chunk.id, chunk.data)) =
        .ok (sampleFile.take 32) := by
  obtain ⟨written, read⟩ := forms_round_trip .resources "TEST"
  have found : readForm .resources "TEST" sampleFile =
      .ok [{ id := "ODD ", data := [7, 8, 9], offset := 12 },
        { id := "EVEN", data := [], offset := 24 }] := by
    decide +kernel
  obtain ⟨exactly, again⟩ := read sampleFile _
  refine ⟨written samplePieces (by decide) (by decide) (by decide), _, found, rfl,
    (exactly.mp found).2, again found (by decide) ?_⟩
  unfold Padded
  decide

end Chunk

end StoryMachine
