import StoryMachine.SaveFile
import StoryMachine.Proofs.ChunkForms
import StoryMachine.Proofs.Variables

/-!
# Saved frames can be read back

Frames whose numbers fit their fields are written, and read back with all that a
saved game keeps of them. Whatever frames are read can be written again, in as
many bytes.
-/

namespace StoryMachine

/-! ## Numbers in fields -/

namespace Chunk

private theorem digits_succ_eq_cons (count value : Nat) :
    digits (count + 1) value = UInt8.ofNat (value / 256 ^ count) :: digits count value := by
  induction count generalizing value with
  | zero => simp only [digits, List.nil_append, Nat.pow_zero, Nat.div_one]
  | succ count ih =>
      rw [digits, ih, Nat.div_div_eq_div_mul, ← Nat.pow_succ', List.cons_append]
      rfl

private theorem digits_two (value : Nat) :
    digits 2 value = [UInt8.ofNat (value / 256), UInt8.ofNat value] :=
  rfl

private theorem digits_three (value : Nat) :
    digits 3 value =
      [UInt8.ofNat (value / 256 / 256), UInt8.ofNat (value / 256), UInt8.ofNat value] :=
  rfl

private theorem number_pair (high low : UInt8) : number [high, low] = high.toNat * 256 + low.toNat := by
  simp only [number, List.foldl_cons, List.foldl_nil, Nat.zero_mul, Nat.zero_add]

end Chunk

namespace SaveFile

open Chunk

/-- An address of at most four bytes is written with its lowest three. -/
theorem shortAddress_of_lt {address : Int} (positive : 0 ≤ address)
    (fits : address < (256 ^ 4 : Nat)) : shortAddress address = .ok (digits 3 address.toNat) := by
  unfold shortAddress
  rw [toField_of_lt positive fits, Result.ok_bind, digits_succ_eq_cons, List.drop_one,
    List.tail_cons]
  rfl

private theorem toByte_of_lt {value : Int} (positive : 0 ≤ value) (fits : value < 256) :
    toByte value = .ok (Byte.ofInt value) := by
  unfold toByte
  exact if_pos ⟨positive, fits⟩

/-- Words one after the other, the high byte of each first. -/
def wordBytes (values : List Int) : List UInt8 :=
  values.flatMap fun value => digits 2 value.toNat

private theorem length_wordBytes (values : List Int) : (wordBytes values).length = 2 * values.length := by
  induction values with
  | nil => rfl
  | cons value rest ih =>
      unfold wordBytes at ih ⊢
      rw [List.flatMap_cons, List.length_append, ih, length_digits, List.length_cons]
      omega

private theorem encodeWords_of_isWord (values : List Int) (words : ∀ value ∈ values, Word.IsWord value) :
    encodeWords values = .ok (wordBytes values) := by
  induction values with
  | nil => rfl
  | cons value rest ih =>
      obtain ⟨positive, fits⟩ := words value List.mem_cons_self
      rw [encodeWords, toField_of_lt positive (by simpa using fits), Result.ok_bind,
        ih fun value member => words value (List.mem_cons_of_mem _ member)]
      rfl

private theorem decodeWords_append_digits {value : Int} (word : Word.IsWord value) (rest : List UInt8) :
    decodeWords (digits 2 value.toNat ++ rest) = value :: decodeWords rest := by
  obtain ⟨positive, fits⟩ := word
  have small : value.toNat < 256 ^ 2 := by omega
  have back := number_digits_of_lt small
  rw [digits_two, number_pair] at back
  rw [digits_two, List.cons_append, List.cons_append, List.nil_append, decodeWords, back,
    Int.toNat_of_nonneg positive]

private theorem decodeWords_wordBytes (values : List Int) (words : ∀ value ∈ values, Word.IsWord value) :
    decodeWords (wordBytes values) = values := by
  induction values with
  | nil => rfl
  | cons value rest ih =>
      have first := decodeWords_append_digits (words value List.mem_cons_self) (wordBytes rest)
      rw [ih fun value member => words value (List.mem_cons_of_mem _ member)] at first
      exact first

/-! ## Writing frames -/

/-- The low bits of a byte that count arguments are counted back. -/
theorem trailingOnes_argumentBits :
    ∀ count : Nat, count ≤ 8 → trailingOnes (UInt8.ofNat (1 <<< count - 1)).toNat = count := by
  decide

/-- The flags of a frame give back the number of its locals and whether its result is dropped. -/
theorem frameFlags_bits (outermost : Bool) {frame : Frame}
    (few : frame.locals.length ≤ maxLocals) :
    frameFlags outermost frame < 256 ∧
      frameFlags outermost frame % 16 = frame.locals.length ∧
      (frameFlags outermost frame / 16 % 2 = 1 ↔ frame.storeTo.isNone ∧ outermost = false) := by
  have flagged : ∀ count : Nat, count ≤ 15 → count ||| 0x10 = count + 16 := by decide
  unfold maxLocals at few
  unfold frameFlags
  dsimp only
  split
  · rename_i dropped
    rw [flagged _ few]
    simp only [Bool.and_eq_true, Bool.not_eq_true'] at dropped
    exact ⟨by omega, by omega, ⟨fun _ => dropped, fun _ => by omega⟩⟩
  · rename_i stored
    simp only [Bool.and_eq_true, Bool.not_eq_true'] at stored
    exact ⟨by omega, by omega, ⟨fun odd => by omega, fun dropped => absurd dropped stored⟩⟩

end SaveFile

/-- A frame whose numbers fit the fields of a saved game. -/
structure Frame.Encodable (frame : Frame) : Prop where
  returnTo : 0 ≤ frame.returnTo ∧ frame.returnTo < 0x1000000
  storeTo : ∀ target, frame.storeTo = some target → 0 ≤ target ∧ target < 256
  locals : frame.locals.length ≤ maxLocals
  arguments : 0 ≤ frame.argumentCount ∧ frame.argumentCount ≤ 8
  stack : frame.stack.length < 0x10000
  local_words : ∀ value ∈ frame.locals, Word.IsWord value
  stack_words : ∀ value ∈ frame.stack, Word.IsWord value

/-- What a saved game keeps of a frame. -/
def Frame.kept (frame : Frame) : Frame where
  returnTo := frame.returnTo
  storeTo := frame.storeTo
  locals := frame.locals
  argumentCount := frame.argumentCount
  stack := frame.stack

/-- Frames agree if and only if a saved game keeps the same of both. -/
theorem Frame.agrees_iff_kept (left right : Frame) :
    left.agrees right ↔ left.kept = right.kept := by
  simp only [Frame.agrees, Frame.kept, Bool.and_eq_true, decide_eq_true_eq, Frame.mk.injEq,
    true_and]
  tauto

namespace SaveFile

open Chunk

/-- A frame in bytes. -/
def frameBytes (outermost : Bool) (frame : Frame) : List UInt8 :=
  digits 3 frame.returnTo.toNat ++
    ([Byte.ofInt (frameFlags outermost frame), Byte.ofInt (frame.storeTo.getD 0),
        UInt8.ofNat (1 <<< frame.argumentCount.toNat - 1)] ++
      (digits 2 frame.stack.length ++
        (wordBytes frame.locals ++ wordBytes frame.stack.reverse)))

private theorem length_frameBytes (outermost : Bool) (frame : Frame) :
    (frameBytes outermost frame).length =
      8 + (frame.locals.length + frame.stack.length) * 2 := by
  simp only [frameBytes, List.length_append, length_digits, List.length_cons, List.length_nil,
    length_wordBytes, List.length_reverse]
  omega

private theorem encodeFrame_of_encodable (outermost : Bool) {frame : Frame} (fits : frame.Encodable) :
    encodeFrame outermost frame = .ok (frameBytes outermost frame) := by
  obtain ⟨⟨positive, near⟩, target, locals, arguments, stack, localWords, stackWords⟩ := fits
  obtain ⟨flags, -, -⟩ := frameFlags_bits outermost locals
  have stored : 0 ≤ frame.storeTo.getD 0 ∧ frame.storeTo.getD 0 < 256 := by
    cases storeTo : frame.storeTo with
    | none => decide
    | some number => exact target number storeTo
  have counted : argumentBits frame.argumentCount =
      .ok (UInt8.ofNat (1 <<< frame.argumentCount.toNat - 1)) := if_pos arguments
  have reversed (value : Int) (member : value ∈ frame.stack.reverse) : Word.IsWord value :=
    stackWords value (List.mem_reverse.mp member)
  unfold encodeFrame
  rw [shortAddress_of_lt positive (by omega), Result.ok_bind,
    toByte_of_lt (Int.natCast_nonneg _) (by omega), Result.ok_bind,
    toByte_of_lt stored.1 stored.2, Result.ok_bind, counted, Result.ok_bind,
    toField_natCast_of_lt (by omega), Result.ok_bind, encodeWords_of_isWord _ localWords,
    Result.ok_bind, encodeWords_of_isWord _ reversed, Result.ok_bind]
  simp only [frameBytes, List.append_assoc]
  rfl

/-- Frames in bytes, the outermost first. -/
def framesBytes (outermost : Bool) : List Frame → List UInt8
  | [] => []
  | frame :: rest => frameBytes outermost frame ++ framesBytes false rest

/-- Frames that fit are written one after the other. -/
theorem encodeFrames_of_encodable (frames : List Frame) (fits : ∀ frame ∈ frames, frame.Encodable) :
    ∀ outermost, encodeFrames outermost frames = .ok (framesBytes outermost frames) := by
  induction frames with
  | nil => exact fun _ => rfl
  | cons frame rest ih =>
      intro outermost
      have others := ih (fun frame member => fits frame (List.mem_cons_of_mem _ member)) false
      rw [encodeFrames, encodeFrame_of_encodable outermost (fits frame List.mem_cons_self),
        Result.ok_bind, others]
      rfl

/-! ## Reading frames -/

private theorem storeTo_of_flags {outermost : Bool} {frame : Frame}
    (few : frame.locals.length ≤ maxLocals)
    (target : ∀ target, frame.storeTo = some target → 0 ≤ target ∧ target < 256)
    (root : outermost = true → frame.storeTo = none) :
    (if outermost || frameFlags outermost frame / 16 % 2 = 1 then none
      else some ((Byte.ofInt (frame.storeTo.getD 0)).toNat : Int)) = frame.storeTo := by
  obtain ⟨-, -, dropped⟩ := frameFlags_bits outermost few
  cases storeTo : frame.storeTo with
  | none =>
      rw [storeTo] at dropped
      rw [if_pos]
      cases outermost with
      | true => rfl
      | false => simpa using dropped
  | some number =>
      have inner : outermost = false := by
        cases outermost with
        | false => rfl
        | true =>
            rw [root rfl] at storeTo
            cases storeTo
      obtain ⟨least, most⟩ := target number storeTo
      have byte := Image.toNat_byte_ofInt (show number.toNat < 256 by omega)
      rw [Int.toNat_of_nonneg least] at byte
      rw [storeTo] at dropped
      rw [if_neg, Option.getD_some, byte, Int.toNat_of_nonneg least]
      simpa [inner] using dropped

/-- A frame in front of other bytes is read back. -/
theorem decodeFrames_frameBytes {outermost : Bool} {frame : Frame} (fits : frame.Encodable)
    (root : outermost = true → frame.storeTo = none) (position : Nat) (rest : List UInt8) :
    decodeFrames outermost position (frameBytes outermost frame ++ rest) =
      (do
        let others ←
          decodeFrames false (position + (frameBytes outermost frame).length) rest
        return frame.kept :: others) := by
  obtain ⟨⟨positive, near⟩, target, locals, arguments, stack, localWords, stackWords⟩ := fits
  obtain ⟨flags, count, dropped⟩ := frameFlags_bits outermost locals
  have spread : frameBytes outermost frame ++ rest =
      UInt8.ofNat (frame.returnTo.toNat / 256 / 256) :: UInt8.ofNat (frame.returnTo.toNat / 256) ::
        UInt8.ofNat frame.returnTo.toNat :: Byte.ofInt (frameFlags outermost frame) ::
        Byte.ofInt (frame.storeTo.getD 0) :: UInt8.ofNat (1 <<< frame.argumentCount.toNat - 1) ::
        UInt8.ofNat (frame.stack.length / 256) :: UInt8.ofNat frame.stack.length ::
        (wordBytes (frame.locals ++ frame.stack.reverse) ++ rest) := by
    simp only [frameBytes, wordBytes, digits_three, digits_two, List.flatMap_append,
      List.cons_append, List.nil_append, List.append_assoc]
  have returns : number [UInt8.ofNat (frame.returnTo.toNat / 256 / 256),
      UInt8.ofNat (frame.returnTo.toNat / 256), UInt8.ofNat frame.returnTo.toNat] =
        frame.returnTo.toNat := by
    rw [← digits_three, number_digits_of_lt (by omega)]
  have flagByte : (Byte.ofInt (frameFlags outermost frame)).toNat = frameFlags outermost frame :=
    Image.toNat_byte_ofInt flags
  have size : (UInt8.ofNat (frame.stack.length / 256)).toNat * 256 +
      (UInt8.ofNat frame.stack.length).toNat = frame.stack.length := by
    rw [← number_pair, ← digits_two, number_digits_of_lt (by omega)]
  have words (value : Int) (member : value ∈ frame.locals ++ frame.stack.reverse) :
      Word.IsWord value := by
    rcases List.mem_append.mp member with inLocals | onStack
    · exact localWords value inLocals
    · exact stackWords value (List.mem_reverse.mp onStack)
  have length : (wordBytes (frame.locals ++ frame.stack.reverse)).length =
      (frame.locals.length + frame.stack.length) * 2 := by
    rw [length_wordBytes, List.length_append, List.length_reverse, Nat.mul_comm]
  have stored := storeTo_of_flags locals target root
  have argumentsRead := trailingOnes_argumentBits frame.argumentCount.toNat (by omega)
  rw [length_frameBytes, spread, decodeFrames.eq_def]
  dsimp only
  rw [flagByte, count, size, if_neg (by rw [List.length_append]; omega), List.take_left' length,
    List.drop_left' length, decodeWords_wordBytes _ words, List.take_left' rfl,
    List.drop_left' rfl, List.reverse_reverse, returns, argumentsRead,
    Int.toNat_of_nonneg positive, Int.toNat_of_nonneg arguments.1, stored, Nat.add_assoc position]
  rfl

/-- Frames that fit are read back, as far as a saved game keeps them. -/
theorem decodeFrames_framesBytes (frames : List Frame) (fits : ∀ frame ∈ frames, frame.Encodable) :
    ∀ (outermost : Bool) (position : Nat),
      (outermost = true → ∀ first ∈ frames.head?, first.storeTo = none) →
        decodeFrames outermost position (framesBytes outermost frames) =
          .ok (frames.map Frame.kept) := by
  induction frames with
  | nil =>
      intro outermost position _
      rw [framesBytes, decodeFrames]
      rfl
  | cons frame rest ih =>
      intro outermost position root
      have first := decodeFrames_frameBytes (fits frame List.mem_cons_self)
        (fun isRoot => root isRoot frame rfl) position (framesBytes false rest)
      have others := ih (fun frame member => fits frame (List.mem_cons_of_mem _ member)) false
        (position + (frameBytes outermost frame).length) (fun isRoot => by cases isRoot)
      rw [framesBytes, first, others]
      rfl

/-! ## Any bytes -/

private theorem isWord_of_mem_decodeWords (data : List UInt8) :
    ∀ value ∈ decodeWords data, Word.IsWord value := by
  induction data using decodeWords.induct with
  | case1 high low rest ih =>
      have first := high.toNat_lt
      have second := low.toNat_lt
      rw [decodeWords]
      refine List.forall_mem_cons.mpr ⟨?_, ih⟩
      unfold Word.IsWord
      omega
  | case2 data short =>
      rw [decodeWords.eq_2 data short]
      exact List.forall_mem_nil _

private theorem length_decodeWords (data : List UInt8) : (decodeWords data).length = data.length / 2 := by
  induction data using decodeWords.induct with
  | case1 high low rest ih =>
      rw [decodeWords, List.length_cons, ih, List.length_cons, List.length_cons]
      omega
  | case2 data short =>
      rw [decodeWords.eq_2 data short]
      match data, short with
      | [], _ => rfl
      | [_], _ => simp only [List.length_cons, List.length_nil, Nat.reduceAdd, Nat.reduceDiv]
      | high :: low :: rest, short => exact (short high low rest rfl).elim

private theorem trailingOnes_le (byte : Nat) : trailingOnes byte ≤ 8 := by
  unfold trailingOnes
  have short := (List.takeWhile_prefix byte.testBit (l := List.range 8)).length_le
  rwa [List.length_range] at short

/-- The numbers of a frame that is read fit their fields. -/
theorem encodable_read (outermost : Bool) (r2 r1 r0 flags target arguments s1 s0 : UInt8)
    {rest : List UInt8}
    (enough : (flags.toNat % 16 + (s1.toNat * 256 + s0.toNat)) * 2 ≤ rest.length) :
    let values := decodeWords
      (rest.take ((flags.toNat % 16 + (s1.toNat * 256 + s0.toNat)) * 2))
    let frame : Frame := {
      returnTo := number [r2, r1, r0]
      storeTo := if outermost || flags.toNat / 16 % 2 = 1 then none else some (target.toNat : Int)
      locals := values.take (flags.toNat % 16)
      argumentCount := trailingOnes arguments.toNat
      stack := (values.drop (flags.toNat % 16)).reverse }
    frame.Encodable ∧ frame.locals.length = flags.toNat % 16 ∧
      frame.stack.length = s1.toNat * 256 + s0.toNat := by
  intro values frame
  have words := isWord_of_mem_decodeWords
    (rest.take ((flags.toNat % 16 + (s1.toNat * 256 + s0.toNat)) * 2))
  have count : values.length = flags.toNat % 16 + (s1.toNat * 256 + s0.toNat) := by
    rw [length_decodeWords, List.length_take]
    omega
  have locals : frame.locals.length = flags.toNat % 16 := by
    rw [List.length_take]
    omega
  have stack : frame.stack.length = s1.toNat * 256 + s0.toNat := by
    rw [List.length_reverse, List.length_drop]
    omega
  have high := s1.toNat_lt
  have low := s0.toNat_lt
  have address : number [r2, r1, r0] < 256 ^ 3 := number_lt [r2, r1, r0]
  have few := trailingOnes_le arguments.toNat
  refine ⟨⟨⟨Int.natCast_nonneg _, ?_⟩, ?_, ?_, ⟨Int.natCast_nonneg _, ?_⟩, ?_, ?_, ?_⟩, locals,
    stack⟩
  · dsimp only [frame]
    omega
  · intro number stored
    have small := target.toNat_lt
    dsimp only [frame] at stored
    split at stored
    · cases stored
    · cases stored
      omega
  · rw [locals]
    unfold maxLocals
    omega
  · dsimp only [frame]
    omega
  · omega
  · intro value member
    exact words value (List.mem_of_mem_take member)
  · intro value member
    exact words value (List.mem_of_mem_drop (List.mem_reverse.mp member))

/-- Frames that are read can be written again, in as many bytes. -/
theorem decodeFrames_eq_ok {outermost : Bool} {position : Nat} {data : List UInt8}
    {frames : List Frame} (read : decodeFrames outermost position data = .ok frames) :
    (∀ frame ∈ frames, frame.Encodable ∧ frame.kept = frame) ∧
      (outermost = true → ∀ first ∈ frames.head?, first.storeTo = none) ∧
      (framesBytes outermost frames).length = data.length := by
  induction outermost, position, data using decodeFrames.induct generalizing frames with
  | case1 outermost position =>
      rw [decodeFrames] at read
      cases read
      refine ⟨List.forall_mem_nil _, ?_, rfl⟩
      intro _ first none_eq
      cases none_eq
  | case2 =>
      rename_i short
      rw [decodeFrames.eq_def] at read
      dsimp only at read
      rw [if_pos short] at read
      cases read
  | case3 =>
      rename_i outermost position r2 r1 r0 flags target arguments s1 s0 rest _ _ _ enough ih
      rw [decodeFrames.eq_def] at read
      dsimp only at read
      rw [if_neg enough] at read
      obtain ⟨others, tail, read⟩ := Result.bind_eq_ok read
      cases read
      obtain ⟨fit, -, length⟩ := ih tail
      obtain ⟨first, locals, stack⟩ :=
        encodable_read outermost r2 r1 r0 flags target arguments s1 s0 (Nat.not_lt.mp enough)
      refine ⟨List.forall_mem_cons.mpr ⟨⟨first, rfl⟩, fit⟩, ?_, ?_⟩
      · rintro rfl frame ⟨⟩
        rfl
      · rw [List.length_drop] at length
        rw [framesBytes, List.length_append, length_frameBytes, length, locals, stack]
        simp only [List.length_cons]
        omega
  | case4 outermost position data nonempty short =>
      rw [decodeFrames.eq_def] at read
      split at read
      · exact (nonempty rfl).elim
      · exact (short _ _ _ _ _ _ _ _ _ rfl).elim
      · cases read

end SaveFile

end StoryMachine
