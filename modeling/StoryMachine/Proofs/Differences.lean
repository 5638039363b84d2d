import StoryMachine.SaveFile.Difference
import StoryMachine.Proofs.Images

/-!
# Compressed memory can be read back

Compression is undone by decompression with the same fresh memory, and a
compressed memory is at most twice as long as the memory.
-/

namespace StoryMachine

namespace Difference

/-- The zeros at the beginning are zeros. -/
theorem takeWhile_zero_eq_replicate (data : List UInt8) :
    data.takeWhile (· == 0) = List.replicate (data.takeWhile (· == 0)).length 0 := by
  rw [List.eq_replicate_iff]
  refine ⟨rfl, ?_⟩
  intro byte member
  have zero := List.all_takeWhile (p := (· == (0 : UInt8))) (l := data)
  exact eq_of_beq (List.all_eq_true.mp zero byte member)

/-- A run of zeros is what stands in front of the rest. -/
theorem replicate_append_drop (data : List UInt8) (limit : Nat) :
    List.replicate ((data.take limit).takeWhile (· == 0)).length 0 ++
        data.drop ((data.take limit).takeWhile (· == 0)).length = data := by
  have run := List.takeWhile_prefix (· == (0 : UInt8)) (l := data.take limit)
  rw [← takeWhile_zero_eq_replicate]
  obtain ⟨rest, split⟩ := run.trans (List.take_prefix limit data)
  generalize (data.take limit).takeWhile (· == 0) = zeros at split ⊢
  rw [← split, List.drop_left]

private theorem length_run_le (data : List UInt8) :
    ((data.take 255).takeWhile (· == 0)).length ≤ 255 := by
  have short := (List.takeWhile_prefix (· == (0 : UInt8)) (l := data.take 255)).length_le
  rw [List.length_take] at short
  omega

/-- A run of zeros is packed as a zero and the number of those that follow it, at most 255. -/
theorem pack_zero_cons (rest : List UInt8) :
    pack (0 :: rest) =
      0 :: UInt8.ofNat ((rest.take 255).takeWhile (· == 0)).length ::
        pack (rest.drop ((rest.take 255).takeWhile (· == 0)).length) := by
  rw [pack, if_pos rfl]

private theorem unpack_pack (data : List UInt8) : unpack (pack data) = .ok data := by
  induction data using pack.induct with
  | case1 => simp only [pack, unpack]
  | case2 rest more ih =>
      have short : (UInt8.ofNat more).toNat = more := by
        have bound : more ≤ 255 := length_run_le rest
        rw [UInt8.toNat_ofNat']
        omega
      have run : List.replicate more 0 ++ rest.drop more = rest := replicate_append_drop rest 255
      have packed : pack (0 :: rest) = 0 :: UInt8.ofNat more :: pack (rest.drop more) :=
        pack_zero_cons rest
      rw [packed, unpack.eq_def]
      simp only [↓reduceIte, ih, short, bind, Except.bind, pure, Except.pure]
      rw [List.replicate_succ, List.cons_append, run]
  | case3 byte rest nonzero ih =>
      rw [pack, if_neg nonzero, unpack.eq_def]
      simp only [nonzero, ↓reduceIte, ih, bind, Except.bind, pure, Except.pure]

private theorem withoutTrailingZeros_append (data : List UInt8) :
    withoutTrailingZeros data ++
        List.replicate (data.length - (withoutTrailingZeros data).length) 0 = data := by
  have split := List.takeWhile_append_dropWhile (p := (· == (0 : UInt8))) (l := data.reverse)
  have whole := congrArg List.reverse split
  rw [List.reverse_append, List.reverse_reverse, takeWhile_zero_eq_replicate,
    List.reverse_replicate] at whole
  have lengths := congrArg List.length whole
  rw [List.length_append, List.length_replicate] at lengths
  unfold withoutTrailingZeros
  have count : data.length - (data.reverse.dropWhile (· == 0)).reverse.length =
      (data.reverse.takeWhile (· == 0)).length := by omega
  rw [count]
  exact whole

private theorem length_withoutTrailingZeros_le (data : List UInt8) :
    (withoutTrailingZeros data).length ≤ data.length := by
  have lengths := congrArg List.length (withoutTrailingZeros_append data)
  rw [List.length_append] at lengths
  omega

/-- The difference from fresh memory, taken twice, is the memory. -/
theorem ofMemories_ofMemories (current fresh : List UInt8) (same : current.length = fresh.length) :
    ofMemories (ofMemories current fresh) fresh = current := by
  unfold ofMemories
  apply List.ext_getElem
  · simp only [List.length_zipWith]
    omega
  · intro index left right
    simp only [List.getElem_zipWith, UInt8.xor_assoc, UInt8.xor_self, UInt8.xor_zero]

private theorem length_ofMemories (current fresh : List UInt8) (same : current.length = fresh.length) :
    (ofMemories current fresh).length = fresh.length := by
  unfold ofMemories
  rw [List.length_zipWith]
  omega

/-- Compressed memory is read back as it was. -/
theorem decompress_compress {current fresh : List UInt8} (same : current.length = fresh.length) :
    decompress (compress current fresh) fresh = .ok current := by
  have length := length_ofMemories current fresh same
  have short := length_withoutTrailingZeros_le (ofMemories current fresh)
  have padded := withoutTrailingZeros_append (ofMemories current fresh)
  rw [length] at short padded
  unfold decompress compress
  rw [unpack_pack]
  simp only [bind, Except.bind, Nat.not_lt.mpr short, ↓reduceIte, padded]
  rw [ofMemories_ofMemories current fresh same]
  rfl

/-- Decompressed memory has the size of the fresh memory. -/
theorem length_of_decompress {data fresh memory : List UInt8}
    (read : decompress data fresh = .ok memory) : memory.length = fresh.length := by
  obtain ⟨difference, -, read⟩ := Result.bind_eq_ok read
  dsimp only at read
  split at read
  · cases read
  · cases read
    unfold ofMemories
    rw [List.length_zipWith, List.length_append, List.length_replicate]
    omega

private theorem length_pack_le (data : List UInt8) : (pack data).length ≤ 2 * data.length := by
  induction data using pack.induct with
  | case1 => simp only [pack, List.length_nil, Nat.mul_zero, Nat.le_refl]
  | case2 rest more ih =>
      have packed : pack (0 :: rest) = 0 :: UInt8.ofNat more :: pack (rest.drop more) :=
        pack_zero_cons rest
      rw [packed, List.length_cons, List.length_cons, List.length_cons]
      rw [List.length_drop] at ih
      omega
  | case3 byte rest nonzero ih =>
      rw [pack, if_neg nonzero, List.length_cons, List.length_cons]
      omega

/-- At worst, compression doubles the length. -/
theorem length_compress_le (current fresh : List UInt8) :
    (compress current fresh).length ≤ 2 * current.length := by
  have packed := length_pack_le (withoutTrailingZeros (ofMemories current fresh))
  have short := length_withoutTrailingZeros_le (ofMemories current fresh)
  have both : (ofMemories current fresh).length ≤ current.length := by
    unfold ofMemories
    rw [List.length_zipWith]
    omega
  unfold compress
  omega

end Difference

end StoryMachine
