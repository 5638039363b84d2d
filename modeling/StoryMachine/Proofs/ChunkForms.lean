import Mathlib.Data.List.Induction
import StoryMachine.Chunk
import StoryMachine.Proofs.Images

/-!
# Chunk files can be read back

The chunks of a form that was written are read back with their names and their
data, in order. A chunk that is read has at most as many bytes as the file.
-/

namespace StoryMachine

namespace Chunk

/-! ## Fields -/

/-- A number is written in as many bytes as are asked for. -/
theorem length_digits (count value : Nat) : (digits count value).length = count := by
  induction count generalizing value with
  | zero => rfl
  | succ count ih => rw [digits, List.length_append, ih, List.length_singleton]

/-- A byte more is the lowest digit. -/
theorem number_append_singleton (bytes : List UInt8) (byte : UInt8) :
    number (bytes ++ [byte]) = number bytes * 256 + byte.toNat := by
  unfold number
  rw [List.foldl_append, List.foldl_cons, List.foldl_nil]

private theorem number_digits (count value : Nat) : number (digits count value) = value % 256 ^ count := by
  induction count generalizing value with
  | zero =>
      rw [Nat.pow_zero, Nat.mod_one]
      rfl
  | succ count ih =>
      have low : (UInt8.ofNat value).toNat = value % 256 := UInt8.toNat_ofNat'
      rw [digits, number_append_singleton, ih, low, Nat.pow_succ, Nat.mul_comm (256 ^ count) 256,
        Nat.mod_mul]
      omega

/-- A number that fits is read back from its digits. -/
theorem number_digits_of_lt {count value : Nat} (fits : value < 256 ^ count) :
    number (digits count value) = value := by
  rw [number_digits, Nat.mod_eq_of_lt fits]

/-- A number fits the bytes that it is read from. -/
theorem number_lt (bytes : List UInt8) : number bytes < 256 ^ bytes.length := by
  induction bytes using List.reverseRecOn with
  | nil => decide
  | append_singleton bytes byte ih =>
      have small := byte.toNat_lt
      rw [number_append_singleton, List.length_append, List.length_singleton, Nat.pow_succ]
      omega

/-- A number that fits a field is written in it. -/
theorem toField_of_lt {count : Nat} {value : Int} (positive : 0 ≤ value)
    (fits : value < (256 ^ count : Nat)) :
    toField count value = .ok (digits count value.toNat) := by
  unfold toField
  exact if_pos ⟨positive, fits⟩

/-- What is written in a field fits it. -/
theorem toField_eq_ok {count : Nat} {value : Int} {bytes : List UInt8}
    (written : toField count value = .ok bytes) :
    0 ≤ value ∧ value < (256 ^ count : Nat) ∧ bytes = digits count value.toNat := by
  unfold toField at written
  split at written
  · rename_i fits
    cases written
    exact ⟨fits.1, fits.2, rfl⟩
  · cases written

/-- A natural number that fits a field is written in it. -/
theorem toField_natCast_of_lt {count value : Nat} (fits : value < 256 ^ count) :
    toField count value = .ok (digits count value) := by
  have field := toField_of_lt (Int.natCast_nonneg value) (Int.ofNat_lt.mpr fits)
  rwa [Int.toNat_natCast] at field

/-! ## Names -/

/-- A name that a chunk can have: four Latin-1 characters. -/
def IsName (id : String) : Prop :=
  id.toList.length = 4 ∧ ∀ c ∈ id.toList, c.toNat < 256

instance (id : String) : Decidable (IsName id) :=
  -- Only the characters of the name are looked at, not all characters.
  have : Decidable (∀ c ∈ id.toList, c.toNat < 256) := List.decidableBAll _ id.toList
  inferInstanceAs (Decidable (_ ∧ _))

/-- The bytes of a name. -/
def nameBytes (id : String) : List UInt8 :=
  id.toList.map fun c => UInt8.ofNat c.toNat

/-- A name is written in its own bytes. -/
theorem ofLatin_of_isName {id : String} (name : IsName id) : ofLatin id = .ok (nameBytes id) := by
  have latin : (id.toList.all fun c => c.toNat < 256) = true := by
    rw [List.all_eq_true]
    intro c member
    exact decide_eq_true (name.2 c member)
  unfold ofLatin
  rw [if_pos latin]
  rfl

/-- A name has four bytes. -/
theorem length_nameBytes {id : String} (name : IsName id) : (nameBytes id).length = 4 := by
  unfold nameBytes
  rw [List.length_map, name.1]

/-- A name is read back from its bytes. -/
theorem latin_nameBytes {id : String} (name : IsName id) : latin (nameBytes id) = id := by
  have back (c : Char) (member : c ∈ id.toList) : Char.ofNat (UInt8.ofNat c.toNat).toNat = c := by
    have low : (UInt8.ofNat c.toNat).toNat = c.toNat % 256 := UInt8.toNat_ofNat'
    rw [low, Nat.mod_eq_of_lt (name.2 c member), Char.ofNat_toNat]
  have whole : id.toList.map ((fun byte : UInt8 => Char.ofNat byte.toNat) ∘
      fun c => UInt8.ofNat c.toNat) = id.toList.map fun c => c :=
    List.map_congr_left back
  unfold latin nameBytes
  rw [List.map_map, whole, List.map_id', String.ofList_toList]

/-! ## Chunks -/

/-- The byte that follows data of odd length. -/
def padding (data : List UInt8) : List UInt8 :=
  if data.length % 2 = 1 then [0] else []

/-- Data of odd length is followed by one byte. -/
theorem length_padding (data : List UInt8) :
    (padding data).length = if data.length % 2 = 1 then 1 else 0 := by
  unfold padding
  split <;> rfl

/-- A chunk in bytes, given its name and data. -/
def bytesOf (piece : String × List UInt8) : List UInt8 :=
  nameBytes piece.1 ++ digits 4 piece.2.length ++ piece.2 ++ padding piece.2

/-- A chunk takes its header, its data and the padding. -/
theorem length_bytesOf {piece : String × List UInt8} (name : IsName piece.1) :
    (bytesOf piece).length = 8 + piece.2.length + (padding piece.2).length := by
  simp only [bytesOf, List.length_append, length_nameBytes name, length_digits]

/-- A chunk with a name and short data is written. -/
theorem write_of_isName {id : String} {data : List UInt8} (name : IsName id)
    (short : data.length < 256 ^ 4) : write id data = .ok (bytesOf (id, data)) := by
  unfold write
  rw [ofLatin_of_isName name, toField_natCast_of_lt short]
  rfl

private theorem writeAll_of_isName (pieces : List (String × List UInt8))
    (names : ∀ piece ∈ pieces, IsName piece.1)
    (short : ∀ piece ∈ pieces, piece.2.length < 256 ^ 4) :
    writeAll pieces = .ok (pieces.flatMap bytesOf) := by
  induction pieces with
  | nil => rfl
  | cons piece rest ih =>
      have first :=
        write_of_isName (names piece List.mem_cons_self) (short piece List.mem_cons_self)
      have others := ih (fun piece member => names piece (List.mem_cons_of_mem _ member))
        (fun piece member => short piece (List.mem_cons_of_mem _ member))
      rw [writeAll, first, others]
      rfl

end Chunk

private theorem Span.ofList_append {α : Type} (before part rest : List α) {start stop : Int}
    (atStart : start = before.length) (atStop : stop = before.length + part.length) :
    Span.ofList (before ++ (part ++ rest)) start stop = part := by
  subst atStart atStop
  unfold Span.ofList Span.position
  have first : min (before.length : Int).toNat (before ++ (part ++ rest)).length =
      before.length := by
    simp only [List.length_append]
    omega
  have last : min ((before.length : Int) + part.length).toNat (before ++ (part ++ rest)).length =
      before.length + part.length := by
    simp only [List.length_append]
    omega
  rw [if_neg (by omega), if_neg (by omega), first, last, List.take_length_add_append,
    List.drop_left, List.take_left]

namespace Chunk

/-- A chunk that stands between other bytes is read, and the offset after it is found. -/
theorem read_bytesOf (use : ContainerUse) (before rest : List UInt8)
    {piece : String × List UInt8} (name : IsName piece.1) (short : piece.2.length < 256 ^ 4) :
    read use (before ++ (bytesOf piece ++ rest)) before.length =
      .ok ({ id := piece.1, data := piece.2, offset := before.length },
        (before.length + (bytesOf piece).length : Nat)) := by
  obtain ⟨id, data⟩ := piece
  dsimp only at name short ⊢
  have nameLength := length_nameBytes name
  have fieldLength := length_digits 4 data.length
  have spread : before ++ (bytesOf (id, data) ++ rest) =
      before ++ (nameBytes id ++ (digits 4 data.length ++ (data ++ (padding data ++ rest)))) := by
    simp only [bytesOf, List.append_assoc]
  have found : Span.ofList (before ++ (bytesOf (id, data) ++ rest)) before.length
      (before.length + 4) = nameBytes id := by
    rw [spread]
    exact Span.ofList_append before _ _ rfl (by omega)
  have counted : Span.ofList (before ++ (bytesOf (id, data) ++ rest)) (before.length + 4)
      (before.length + 8) = digits 4 data.length := by
    rw [spread, ← List.append_assoc before]
    exact Span.ofList_append _ _ _ (by rw [List.length_append]; omega)
      (by rw [List.length_append]; omega)
  have content : Span.ofList (before ++ (bytesOf (id, data) ++ rest)) (before.length + 8)
      (before.length + 8 + data.length) = data := by
    rw [spread, ← List.append_assoc before, ← List.append_assoc (before ++ _)]
    exact Span.ofList_append _ _ _ (by simp only [List.length_append]; omega)
      (by simp only [List.length_append]; omega)
  have counts : field 4 (digits 4 data.length) = .ok data.length := by
    unfold field
    rw [if_pos fieldLength, number_digits_of_lt short]
  have whole : (before ++ (bytesOf (id, data) ++ rest)).length =
      before.length + (8 + data.length + (padding data).length + rest.length) := by
    rw [List.length_append, List.length_append, length_bytesOf name]
  unfold read
  rw [found, counted, counts, latin_nameBytes name, if_neg (by omega)]
  simp only [bind, Except.bind]
  rw [if_neg (by omega), content, length_bytesOf name, length_padding]
  refine congrArg Except.ok (Prod.ext rfl ?_)
  dsimp only
  split <;> omega

/-- Chunks one after the other are read back. -/
theorem readAll_bytesOf (use : ContainerUse) (pieces : List (String × List UInt8))
    (names : ∀ piece ∈ pieces, IsName piece.1)
    (short : ∀ piece ∈ pieces, piece.2.length < 256 ^ 4) (before : List UInt8) :
    ∃ chunks, readAll use (before ++ pieces.flatMap bytesOf) before.length = .ok chunks ∧
      chunks.map (fun chunk => (chunk.id, chunk.data)) = pieces := by
  induction pieces generalizing before with
  | nil =>
      refine ⟨[], ?_, rfl⟩
      rw [readAll, dif_neg]
      simp only [List.flatMap_nil, List.append_nil]
      omega
  | cons piece rest ih =>
      have name := names piece List.mem_cons_self
      have first := read_bytesOf use before (rest.flatMap bytesOf) name
        (short piece List.mem_cons_self)
      have length := length_bytesOf name
      obtain ⟨chunks, others, same⟩ := ih
        (fun piece member => names piece (List.mem_cons_of_mem _ member))
        (fun piece member => short piece (List.mem_cons_of_mem _ member))
        (before ++ bytesOf piece)
      rw [List.length_append, List.append_assoc] at others
      refine ⟨{ id := piece.1, data := piece.2, offset := before.length } :: chunks, ?_, ?_⟩
      · rw [List.flatMap_cons, readAll, dif_pos]
        · rw [first]
          dsimp only
          rw [dif_pos (by omega), others]
          rfl
        · simp only [List.length_append]
          omega
      · rw [List.map_cons, same]

/-! ## Forms -/

/-- The number of bytes of a form after its length. -/
def formSize (pieces : List (String × List UInt8)) : Nat :=
  4 + (pieces.flatMap bytesOf).length

private theorem length_le_formSize {pieces : List (String × List UInt8)} {piece : String × List UInt8}
    (member : piece ∈ pieces) : piece.2.length ≤ formSize pieces := by
  have own : piece.2.length ≤ (bytesOf piece).length := by
    simp only [bytesOf, List.length_append]
    omega
  obtain ⟨before, rest, rfl⟩ := List.append_of_mem member
  simp only [formSize, List.flatMap_append, List.flatMap_cons, List.length_append]
  omega

/-- The name of a form is a name. -/
theorem isName_form : IsName "FORM" := by
  decide

/-- A form in bytes, given the names and data of its chunks. -/
def formBytes (type : String) (pieces : List (String × List UInt8)) : List UInt8 :=
  nameBytes "FORM" ++ (digits 4 (formSize pieces) ++ (nameBytes type ++ pieces.flatMap bytesOf))

/-- A form takes its header and what its size says. -/
theorem length_formBytes {type : String} (typeName : IsName type)
    (pieces : List (String × List UInt8)) :
    (formBytes type pieces).length = 8 + formSize pieces := by
  simp only [formBytes, List.length_append, length_nameBytes isName_form, length_digits,
    length_nameBytes typeName, formSize]
  omega

/-- A form of small chunks with names is written. -/
theorem writeForm_of_isName {type : String} (typeName : IsName type)
    {pieces : List (String × List UInt8)} (names : ∀ piece ∈ pieces, IsName piece.1)
    (small : formSize pieces < 256 ^ 4) : writeForm type pieces = .ok (formBytes type pieces) := by
  have short (piece : String × List UInt8) (member : piece ∈ pieces) :
      piece.2.length < 256 ^ 4 :=
    Nat.lt_of_le_of_lt (length_le_formSize member) small
  have length : (nameBytes type ++ pieces.flatMap bytesOf).length = formSize pieces := by
    rw [List.length_append, length_nameBytes typeName, formSize]
  unfold writeForm
  rw [ofLatin_of_isName typeName, Result.ok_bind, writeAll_of_isName pieces names short,
    Result.ok_bind, ofLatin_of_isName isName_form, Result.ok_bind, length,
    toField_natCast_of_lt small, Result.ok_bind, formBytes, List.append_assoc]
  rfl

/-- A form that was written is read back. -/
theorem readForm_formBytes (use : ContainerUse) {type : String} (typeName : IsName type)
    {pieces : List (String × List UInt8)} (names : ∀ piece ∈ pieces, IsName piece.1)
    (small : formSize pieces < 256 ^ 4) :
    ∃ chunks, readForm use type (formBytes type pieces) = .ok chunks ∧
      chunks.map (fun chunk => (chunk.id, chunk.data)) = pieces := by
  have short (piece : String × List UInt8) (member : piece ∈ pieces) :
      piece.2.length < 256 ^ 4 :=
    Nat.lt_of_le_of_lt (length_le_formSize member) small
  have formLength := length_nameBytes isName_form
  have countLength := length_digits 4 (formSize pieces)
  have typeLength := length_nameBytes typeName
  have total := length_formBytes typeName pieces
  have enough : 4 ≤ formSize pieces := Nat.le_add_right 4 _
  let front := nameBytes "FORM" ++ (digits 4 (formSize pieces) ++ nameBytes type)
  have frontLength : front.length = 12 := by
    rw [List.length_append, List.length_append, formLength, countLength, typeLength]
  have whole : formBytes type pieces = front ++ pieces.flatMap bytesOf := by
    simp only [formBytes, front, List.append_assoc]
  obtain ⟨chunks, read, same⟩ := readAll_bytesOf use pieces names short front
  have marked : (formBytes type pieces).take 4 = nameBytes "FORM" := by
    rw [formBytes, List.take_left' formLength]
  have counted : ((formBytes type pieces).drop 4).take 4 = digits 4 (formSize pieces) := by
    rw [formBytes, List.drop_left' formLength, List.take_left' countLength]
  have typed : ((formBytes type pieces).drop 8).take 4 = nameBytes type := by
    have split : (nameBytes "FORM" ++ digits 4 (formSize pieces)).length = 8 := by
      rw [List.length_append, formLength, countLength]
    rw [formBytes, ← List.append_assoc, List.drop_left' split, List.take_left' typeLength]
  have body : (formBytes type pieces).take (8 + formSize pieces) =
      front ++ pieces.flatMap bytesOf := by
    rw [List.take_of_length_le (Nat.le_of_eq total), whole]
  refine ⟨chunks, ?_, same⟩
  have long : ¬ (8 + formSize pieces < 12 ∨ "FORM" ≠ "FORM") := by
    simp only [ne_eq, not_true_eq_false, or_false]
    omega
  unfold readForm
  rw [marked, counted, typed, latin_nameBytes isName_form, ofLatin_of_isName typeName,
    number_digits_of_lt small, total, if_neg long]
  simp only [bind, Except.bind, ne_eq, not_true_eq_false, ↓reduceIte, Nat.lt_irrefl, body]
  rw [frontLength] at read
  exact read

end Chunk

/-! ## Any data -/

private theorem Span.length_ofList {α : Type} (xs : List α) {start stop : Int} (positive : 0 ≤ start)
    (ordered : start ≤ stop) (inside : stop ≤ xs.length) :
    ((Span.ofList xs start stop).length : Int) = stop - start := by
  unfold Span.ofList Span.position
  rw [if_neg (by omega), if_neg (by omega), List.length_drop, List.length_take]
  omega

private theorem Span.length_ofList_le {α : Type} (xs : List α) (start stop : Int) :
    (Span.ofList xs start stop).length ≤ xs.length := by
  unfold Span.ofList
  rw [List.length_drop, List.length_take]
  omega

/-- A failure that is due to a broken rule. -/
def Failure.IsFault (failure : Failure) : Prop :=
  ∃ fault, failure = .fault fault

/-- A failure that is due to a broken rule of a kind. -/
def Failure.HasKind (kind : FaultKind) (failure : Failure) : Prop :=
  ∃ fault, fault.kind = kind ∧ failure = .fault fault

/-- A failure of a kind is a fault. -/
theorem Failure.HasKind.isFault {kind : FaultKind} {failure : Failure}
    (broken : failure.HasKind kind) : failure.IsFault := by
  obtain ⟨fault, -, same⟩ := broken
  exact ⟨fault, same⟩

/-- A fault has the kind of its cause. -/
theorem Result.hasKind_of_fault {α : Type} {cause : Cause} {failure : Failure}
    (failed : (Result.fault cause : Result α) = .error failure) :
    failure.HasKind cause.kind := by
  cases failed
  exact ⟨_, rfl, rfl⟩

/-- What is raised as a fault is one. -/
theorem Result.isFault_of_fault {α : Type} {cause : Cause} {failure : Failure}
    (failed : (Result.fault cause : Result α) = .error failure) : failure.IsFault :=
  (Result.hasKind_of_fault failed).isFault

/-- A failure of two questions is one of the first or one of the second. -/
theorem Result.bind_eq_error {α β : Type} {first : Result α} {rest : α → Result β}
    {failure : Failure} (failed : first >>= rest = .error failure) :
    first = .error failure ∨ ∃ a, first = .ok a ∧ rest a = .error failure := by
  cases first with
  | error other =>
      cases failed
      exact .inl rfl
  | ok a => exact .inr ⟨a, rfl, failed⟩

namespace Chunk

variable {use : ContainerUse} {data : List UInt8}

private theorem read_eq_ok {offset next : Int} {chunk : Chunk} (positive : 0 ≤ offset)
    (found : read use data offset = .ok (chunk, next)) :
    chunk.data.length ≤ data.length ∧ 0 ≤ next := by
  unfold read at found
  dsimp only at found
  split at found
  · cases found
  · obtain ⟨length, -, found⟩ := Result.bind_eq_ok found
    split at found
    · cases found
    · cases found
      refine ⟨Span.length_ofList_le _ _ _, ?_⟩
      split <;> omega

private theorem read_eq_error {offset : Int} {failure : Failure} (positive : 0 ≤ offset)
    (failed : read use data offset = .error failure) : failure.HasKind use.faultKind := by
  unfold read at failed
  dsimp only at failed
  split at failed
  · exact Result.hasKind_of_fault failed
  · rename_i room
    have length : ((Span.ofList data (offset + 4) (offset + 8)).length : Int) =
        offset + 8 - (offset + 4) :=
      Span.length_ofList data (by omega) (by omega) (by omega)
    rcases Result.bind_eq_error failed with failed | ⟨count, -, failed⟩
    · unfold field at failed
      rw [if_pos (by omega)] at failed
      cases failed
    · split at failed
      · exact Result.hasKind_of_fault failed
      · cases failed

/-- What is true of every chunk that is read from a place on. -/
theorem forall_mem_of_readAll {P : Chunk → Prop}
    (each : ∀ (offset next : Int) (chunk : Chunk), 0 ≤ offset →
      read use data offset = .ok (chunk, next) → P chunk ∧ 0 ≤ next)
    {offset : Int} {chunks : List Chunk} (positive : 0 ≤ offset)
    (found : readAll use data offset = .ok chunks) : ∀ chunk ∈ chunks, P chunk := by
  induction offset using readAll.induct use data generalizing chunks with
  | case1 offset inside failure failed =>
      rw [readAll, dif_pos inside, failed] at found
      cases found
  | case2 offset inside chunk next first forward ih =>
      rw [readAll, dif_pos inside, first] at found
      dsimp only at found
      rw [dif_pos forward] at found
      obtain ⟨rest, others, found⟩ := Result.bind_eq_ok found
      cases found
      obtain ⟨holds, start⟩ := each offset next chunk positive first
      exact List.forall_mem_cons.mpr ⟨holds, ih start others⟩
  | case3 offset inside chunk next first stuck =>
      rw [readAll, dif_pos inside, first] at found
      dsimp only at found
      rw [dif_neg stuck] at found
      cases found
      obtain ⟨holds, start⟩ := each offset next chunk positive first
      exact List.forall_mem_singleton.mpr holds
  | case4 offset outside =>
      rw [readAll, dif_neg outside] at found
      cases found
      exact List.forall_mem_nil _

private theorem readAll_eq_error {offset : Int} {failure : Failure} (positive : 0 ≤ offset)
    (failed : readAll use data offset = .error failure) : failure.HasKind use.faultKind := by
  induction offset using readAll.induct use data with
  | case1 offset inside other first =>
      rw [readAll, dif_pos inside, first] at failed
      cases failed
      exact read_eq_error positive first
  | case2 offset inside chunk next first forward ih =>
      rw [readAll, dif_pos inside, first] at failed
      dsimp only at failed
      rw [dif_pos forward] at failed
      rcases Result.bind_eq_error failed with failed | ⟨rest, -, failed⟩
      · exact ih (read_eq_ok positive first).2 failed
      · cases failed
  | case3 offset inside chunk next first stuck =>
      rw [readAll, dif_pos inside, first] at failed
      dsimp only at failed
      rw [dif_neg stuck] at failed
      cases failed
  | case4 offset outside =>
      rw [readAll, dif_neg outside] at failed
      cases failed

/-- The chunks of a form are not longer than the file. -/
theorem length_data_le_of_readForm {type : String} {chunks : List Chunk}
    (found : readForm use type data = .ok chunks) :
    ∀ chunk ∈ chunks, chunk.data.length ≤ data.length := by
  unfold readForm at found
  dsimp only at found
  split at found
  · cases found
  · obtain ⟨name, -, found⟩ := Result.bind_eq_ok found
    split at found
    · cases found
    split at found
    · cases found
    · intro chunk member
      have short := forall_mem_of_readAll (fun _ _ _ => read_eq_ok) (by decide) found chunk member
      rw [List.length_take] at short
      omega

/-- A form that cannot be read breaks a rule of its kind of file: nothing else goes wrong. -/
theorem readForm_eq_error {type : String} (name : IsName type) {failure : Failure}
    (failed : readForm use type data = .error failure) : failure.HasKind use.faultKind := by
  unfold readForm at failed
  dsimp only at failed
  split at failed
  · exact Result.hasKind_of_fault failed
  · rw [ofLatin_of_isName name, Result.ok_bind] at failed
    split at failed
    · exact Result.hasKind_of_fault failed
    split at failed
    · exact Result.hasKind_of_fault failed
    · exact readAll_eq_error (by decide) failed

end Chunk

end StoryMachine
