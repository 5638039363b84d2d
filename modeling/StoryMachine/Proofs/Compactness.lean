import Mathlib.Data.List.DropRight
import StoryMachine.Proofs.Failures

/-!
# Compressed memory is as short as it can be

Packing data costs one byte for each byte that is not zero and two for each 256
zeros, begun or full, of a run. Nothing that unpacks to the data costs less: a
packed run of at most 256 zeros in front of other data takes two bytes, however
the zeros of both join.
-/

namespace StoryMachine

namespace Difference

/-! ## What packing costs -/

private theorem length_pack_cons {byte : UInt8} (nonzero : byte ≠ 0) (rest : List UInt8) :
    (pack (byte :: rest)).length = (pack rest).length + 1 := by
  rw [pack, if_neg nonzero, List.length_cons]

/-- The data does not start with a zero. -/
def StartsNonzero (data : List UInt8) : Prop :=
  ∀ byte ∈ data.head?, byte ≠ 0

/-- The zeros in front of other data, as many as one run can hold. -/
theorem takeWhile_take_run (count : Nat) {data : List UInt8} (other : StartsNonzero data) :
    ((List.replicate count 0 ++ data).take 255).takeWhile (· == 0) =
      List.replicate (min count 255) 0 := by
  have stops : (data.take (255 - count)).takeWhile (· == 0) = [] := by
    rw [List.takeWhile_eq_nil_iff]
    intro long zero
    have first : data.head? = some ((data.take (255 - count))[0]) := by
      rw [List.getElem_take, List.head?_eq_getElem?, List.getElem?_eq_getElem]
    exact other _ first (eq_of_beq zero)
  rw [List.take_append, List.length_replicate, List.take_replicate,
    List.takeWhile_append_of_pos, stops, List.append_nil, Nat.min_comm]
  intro byte member
  rw [List.eq_of_mem_replicate member]
  rfl

/-- A run costs two bytes for every 256 zeros that it begins. -/
theorem length_pack_run (count : Nat) {data : List UInt8} (other : StartsNonzero data) :
    (pack (List.replicate count 0 ++ data)).length =
      2 * ((count + 255) / 256) + (pack data).length := by
  induction count using Nat.strong_induction_on with
  | _ count ih =>
      cases count with
      | zero => simp
      | succ count =>
          have left : (List.replicate count 0 ++ data).drop (min count 255) =
              List.replicate (count - min count 255) 0 ++ data := by
            rw [List.drop_append, List.length_replicate, List.drop_replicate,
              Nat.sub_eq_zero_of_le (Nat.min_le_left count 255), List.drop_zero]
          rw [List.replicate_succ, List.cons_append, pack_zero_cons, takeWhile_take_run count other,
            List.length_replicate, left, List.length_cons, List.length_cons,
            ih (count - min count 255) (by omega)]
          omega

/-- Data is a run of zeros, maybe an empty one, in front of other data. -/
theorem exists_run (data : List UInt8) :
    ∃ count other, StartsNonzero other ∧ data = List.replicate count 0 ++ other := by
  refine ⟨(data.takeWhile (· == 0)).length, data.dropWhile (· == 0), ?_, ?_⟩
  · intro byte first zero
    have kept := List.head?_dropWhile_not (· == (0 : UInt8)) data
    rw [first, zero] at kept
    exact absurd kept (by decide)
  · rw [← takeWhile_zero_eq_replicate, List.takeWhile_append_dropWhile]

/-- One more run of at most 256 zeros costs at most two bytes, also where it meets other zeros. -/
theorem length_pack_replicate_append_le {count : Nat} (short : count ≤ 256) (data : List UInt8) :
    (pack (List.replicate count 0 ++ data)).length ≤ 2 + (pack data).length := by
  obtain ⟨more, other, nonzero, rfl⟩ := exists_run data
  rw [← List.append_assoc, List.replicate_append_replicate, length_pack_run _ nonzero,
    length_pack_run _ nonzero]
  omega

/-! ## Zeros at the end -/

private theorem withoutTrailingZeros_eq (data : List UInt8) :
    withoutTrailingZeros data = data.rdropWhile (· == 0) :=
  rfl

private theorem withoutTrailingZeros_replicate (count : Nat) :
    withoutTrailingZeros (List.replicate count 0) = [] := by
  rw [withoutTrailingZeros_eq, List.rdropWhile_eq_nil_iff]
  intro byte member
  rw [List.eq_of_mem_replicate member]
  rfl

/-- Only what stands behind the last other byte is dropped. -/
theorem withoutTrailingZeros_of_append (front data : List UInt8) :
    withoutTrailingZeros (front ++ data) =
      if withoutTrailingZeros data = [] then withoutTrailingZeros front
      else front ++ withoutTrailingZeros data := by
  unfold withoutTrailingZeros
  rw [List.reverse_append, List.dropWhile_append]
  simp only [List.isEmpty_iff, List.reverse_eq_nil_iff]
  split
  · rfl
  · rw [List.reverse_append, List.reverse_reverse]

private theorem withoutTrailingZeros_append_replicate (data : List UInt8) (count : Nat) :
    withoutTrailingZeros (data ++ List.replicate count 0) = withoutTrailingZeros data := by
  rw [withoutTrailingZeros_of_append, if_pos (withoutTrailingZeros_replicate count)]

/-! ## Every packed form is at least as long -/

/-- Whatever unpacks to the data is not shorter than the packed data without its last zeros. -/
theorem length_pack_le_of_unpack {data difference : List UInt8}
    (read : unpack data = .ok difference) :
    (pack (withoutTrailingZeros difference)).length ≤ data.length := by
  fun_induction unpack data generalizing difference with
  | case1 =>
      cases read
      simp [withoutTrailingZeros, pack]
  | case2 => cases read
  | case3 more rest ih =>
      obtain ⟨others, unpacked, read⟩ := Result.bind_eq_ok read
      cases read
      have behind := ih unpacked
      have short : more.toNat + 1 ≤ 256 := more.toNat_lt
      rw [withoutTrailingZeros_of_append, List.length_cons, List.length_cons]
      -- A run with nothing but zeros behind it need not be packed at all.
      split
      · rw [withoutTrailingZeros_replicate, pack]
        exact Nat.zero_le _
      · have joined := length_pack_replicate_append_le short (withoutTrailingZeros others)
        omega
  | case4 byte rest nonzero ih =>
      obtain ⟨others, unpacked, read⟩ := Result.bind_eq_ok read
      cases read
      have behind := ih unpacked
      have kept : withoutTrailingZeros [byte] = [byte] := by
        simp [withoutTrailingZeros, nonzero]
      have whole : withoutTrailingZeros (byte :: others) = byte :: withoutTrailingZeros others := by
        rw [← List.singleton_append, withoutTrailingZeros_of_append]
        split
        · rename_i nothing
          rw [kept, nothing]
        · rfl
      rw [whole, length_pack_cons nonzero, List.length_cons]
      omega

/-- What decompresses to a memory unpacks to its difference from the fresh one, up to zeros at the
end. -/
theorem decompress_eq_ok {data fresh memory : List UInt8}
    (read : decompress data fresh = .ok memory) :
    ∃ difference count, unpack data = .ok difference ∧
      ofMemories memory fresh = difference ++ List.replicate count 0 := by
  obtain ⟨difference, unpacked, read⟩ := Result.bind_eq_ok read
  dsimp only at read
  split at read
  · cases read
  · rename_i fits
    cases read
    refine ⟨difference, fresh.length - difference.length, unpacked, ofMemories_ofMemories _ _ ?_⟩
    rw [List.length_append, List.length_replicate]
    omega

/-- Of all that decompresses to a memory the compressed memory is the shortest. Decompression of
anything at all breaks a rule of saved games or gives memory of the right size. -/
theorem compressed_shortest (data fresh : List UInt8) :
    (∀ memory, decompress data fresh = .ok memory →
      decompress (compress memory fresh) fresh = .ok memory ∧
        (compress memory fresh).length ≤ data.length) ∧
    ((∃ fault, fault.kind = .saveRestore ∧ decompress data fresh = .error (.fault fault)) ∨
      ∃ memory, decompress data fresh = .ok memory ∧ memory.length = fresh.length) := by
  constructor
  · intro memory read
    obtain ⟨difference, count, unpacked, same⟩ := decompress_eq_ok read
    refine ⟨decompress_compress (length_of_decompress read), ?_⟩
    unfold compress
    rw [same, withoutTrailingZeros_append_replicate]
    exact length_pack_le_of_unpack unpacked
  · cases outcome : decompress data fresh with
    | error failure =>
        obtain ⟨fault, kind, rfl⟩ := decompress_eq_error outcome
        exact .inl ⟨fault, kind, rfl⟩
    | ok memory => exact .inr ⟨memory, rfl, length_of_decompress outcome⟩

/-- A run of 257 zeros in three pieces, with a zero at the end that need not be written: a full
run and one zero more take three bytes less. -/
theorem compressed_shortest_split :
    decompress [0, 127, 0, 127, 0, 0, 9, 0, 0] (List.replicate 259 7) =
        .ok (List.replicate 257 7 ++ [14, 7]) ∧
      decompress (compress (List.replicate 257 7 ++ [14, 7]) (List.replicate 259 7))
        (List.replicate 259 7) = .ok (List.replicate 257 7 ++ [14, 7]) ∧
      compress (List.replicate 257 7 ++ [14, 7]) (List.replicate 259 7) = [0, 255, 0, 0, 9] ∧
      (compress (List.replicate 257 7 ++ [14, 7]) (List.replicate 259 7)).length ≤ 9 := by
  have read : decompress [0, 127, 0, 127, 0, 0, 9, 0, 0] (List.replicate 259 7) =
      .ok (List.replicate 257 7 ++ [14, 7]) := by
    decide +kernel
  obtain ⟨again, shorter⟩ := (compressed_shortest _ _).1 _ read
  exact ⟨read, again, by decide +kernel, shorter⟩

end Difference

end StoryMachine
