import StoryMachine.Proofs.SavedGames

/-!
# Games that were written

Writing a game checks most of its numbers against their fields. What it does not
check is that addresses have three bytes, that a frame has no more locals than
its flags can count, and that the outermost frame takes no result. A game for
which that is known, and which was written, is read back.
-/

namespace StoryMachine

/-- What the fields of a frame do not check. -/
structure Frame.Compact (frame : Frame) : Prop where
  returnTo : frame.returnTo < 0x1000000
  locals : frame.locals.length ≤ maxLocals

/-- Frames, the outermost first, as far as their fields do not check them. -/
structure Frame.Nested (frames : List Frame) : Prop where
  compact : ∀ frame ∈ frames, frame.Compact
  outermost : ∃ first, frames.head? = some first ∧ first.storeTo = none

private theorem Frame.Encodable.compact {frame : Frame} (fits : frame.Encodable) : frame.Compact :=
  ⟨fits.returnTo.2, fits.locals⟩

/-- The frames of a game that can be written are nested. -/
theorem SavedGame.Encodable.nested {game : SavedGame} {fresh : List UInt8}
    (fits : game.Encodable fresh) : Frame.Nested game.frames :=
  ⟨fun frame member => (fits.frames frame member).compact, fits.outermost⟩

/-! ## Forms -/

namespace Chunk

private theorem writeAll_eq_ok (pieces : List (String × List UInt8)) :
    ∀ {bytes : List UInt8}, (∀ piece ∈ pieces, IsName piece.1) → writeAll pieces = .ok bytes →
      bytes = pieces.flatMap bytesOf := by
  induction pieces with
  | nil =>
      intro bytes _ written
      cases written
      rfl
  | cons piece rest ih =>
      intro bytes names written
      rw [writeAll] at written
      obtain ⟨first, begun, written⟩ := Result.bind_eq_ok written
      obtain ⟨others, ended, written⟩ := Result.bind_eq_ok written
      have tail := ih (fun piece member => names piece (List.mem_cons_of_mem _ member)) ended
      have short : piece.2.length < 256 ^ 4 := by
        unfold write at begun
        obtain ⟨name, -, begun⟩ := Result.bind_eq_ok begun
        obtain ⟨length, field, -⟩ := Result.bind_eq_ok begun
        have fits := (toField_eq_ok field).2.1
        omega
      rw [write_of_isName (names piece List.mem_cons_self) short] at begun
      cases begun
      cases written
      rw [List.flatMap_cons, tail]

/-- A form that was written fits its length field. -/
theorem formSize_lt_of_writeForm {type : String} (typeName : IsName type)
    {pieces : List (String × List UInt8)} (names : ∀ piece ∈ pieces, IsName piece.1)
    {bytes : List UInt8} (written : writeForm type pieces = .ok bytes) :
    formSize pieces < 256 ^ 4 := by
  unfold writeForm at written
  rw [ofLatin_of_isName typeName, Result.ok_bind] at written
  obtain ⟨body, chunks, written⟩ := Result.bind_eq_ok written
  rw [writeAll_eq_ok pieces names chunks] at written
  dsimp only at written
  obtain ⟨header, -, written⟩ := Result.bind_eq_ok written
  obtain ⟨length, field, -⟩ := Result.bind_eq_ok written
  have fits := (toField_eq_ok field).2.1
  rw [List.length_append, length_nameBytes typeName] at fits
  unfold formSize
  omega

end Chunk

namespace SaveFile

open Chunk

/-! ## Fields -/

private theorem shortAddress_eq_ok {address : Int} {bytes : List UInt8}
    (written : shortAddress address = .ok bytes) : 0 ≤ address := by
  obtain ⟨field, whole, -⟩ := Result.bind_eq_ok written
  exact (toField_eq_ok whole).1

private theorem toByte_eq_ok {value : Int} {byte : UInt8} (written : toByte value = .ok byte) :
    0 ≤ value ∧ value < 256 := by
  unfold toByte at written
  split at written
  · rename_i fits
    exact fits
  · cases written

private theorem argumentBits_eq_ok {count : Int} {byte : UInt8} (written : argumentBits count = .ok byte) :
    0 ≤ count ∧ count ≤ 8 := by
  unfold argumentBits at written
  split at written
  · rename_i fits
    exact fits
  · cases written

private theorem encodeWords_eq_ok (values : List Int) :
    ∀ {bytes : List UInt8}, encodeWords values = .ok bytes →
      ∀ value ∈ values, Word.IsWord value := by
  induction values with
  | nil =>
      intro bytes _ value member
      cases member
  | cons first rest ih =>
      intro bytes written value member
      rw [encodeWords] at written
      obtain ⟨word, field, written⟩ := Result.bind_eq_ok written
      obtain ⟨words, others, -⟩ := Result.bind_eq_ok written
      obtain ⟨positive, fits, -⟩ := toField_eq_ok field
      rcases List.mem_cons.mp member with rfl | member
      · exact ⟨positive, by omega⟩
      · exact ih others value member

/-! ## Frames -/

private theorem encodable_of_encodeFrame {outermost : Bool} {frame : Frame} (compact : frame.Compact)
    {bytes : List UInt8} (written : encodeFrame outermost frame = .ok bytes) :
    frame.Encodable := by
  unfold encodeFrame at written
  obtain ⟨returnTo, address, written⟩ := Result.bind_eq_ok written
  obtain ⟨flags, -, written⟩ := Result.bind_eq_ok written
  obtain ⟨target, stored, written⟩ := Result.bind_eq_ok written
  obtain ⟨arguments, counted, written⟩ := Result.bind_eq_ok written
  obtain ⟨size, sized, written⟩ := Result.bind_eq_ok written
  obtain ⟨locals, localWords, written⟩ := Result.bind_eq_ok written
  obtain ⟨stack, stackWords, -⟩ := Result.bind_eq_ok written
  refine ⟨⟨shortAddress_eq_ok address, compact.returnTo⟩, ?_, compact.locals,
    argumentBits_eq_ok counted, ?_, encodeWords_eq_ok _ localWords, ?_⟩
  · intro number given
    rw [given] at stored
    exact toByte_eq_ok stored
  · have fits := (toField_eq_ok sized).2.1
    omega
  · intro value member
    exact encodeWords_eq_ok _ stackWords value (List.mem_reverse.mpr member)

private theorem encodable_of_encodeFrames (frames : List Frame) :
    ∀ {outermost : Bool} {bytes : List UInt8}, (∀ frame ∈ frames, frame.Compact) →
      encodeFrames outermost frames = .ok bytes → ∀ frame ∈ frames, frame.Encodable := by
  induction frames with
  | nil =>
      intro outermost bytes _ _ frame member
      cases member
  | cons first rest ih =>
      intro outermost bytes compact written frame member
      rw [encodeFrames] at written
      obtain ⟨begun, head, written⟩ := Result.bind_eq_ok written
      obtain ⟨ended, tail, -⟩ := Result.bind_eq_ok written
      rcases List.mem_cons.mp member with rfl | member
      · exact encodable_of_encodeFrame (compact _ List.mem_cons_self) head
      · exact ih (fun frame member => compact frame (List.mem_cons_of_mem _ member)) tail frame
          member

/-! ## Games -/

variable {game : SavedGame} {fresh : List UInt8} {compressed : Bool} {data : List UInt8}

/-- A game that was written fits its fields. -/
theorem encodable_of_encode (serial : game.serial.length = 6) (pc : game.pc < 0x1000000)
    (dynamic : game.dynamic.length = fresh.length) (nested : Frame.Nested game.frames)
    (written : encode game fresh compressed = .ok data) : game.Encodable fresh := by
  unfold encode at written
  dsimp only at written
  obtain ⟨identity, named, written⟩ := Result.bind_eq_ok written
  obtain ⟨frames, listed, -⟩ := Result.bind_eq_ok written
  unfold encodeIdentity at named
  obtain ⟨release, first, named⟩ := Result.bind_eq_ok named
  obtain ⟨checksum, second, named⟩ := Result.bind_eq_ok named
  obtain ⟨address, third, -⟩ := Result.bind_eq_ok named
  obtain ⟨releasePositive, releaseFits, -⟩ := toField_eq_ok first
  obtain ⟨checksumPositive, checksumFits, -⟩ := toField_eq_ok second
  exact ⟨⟨releasePositive, by omega⟩, serial, ⟨checksumPositive, by omega⟩,
    ⟨shortAddress_eq_ok third, pc⟩, dynamic, nested.outermost,
    encodable_of_encodeFrames _ nested.compact listed⟩

/-- A saved game that is written is not too large for a form. -/
theorem formSize_lt_of_encode (fits : game.Encodable fresh)
    (written : encode game fresh compressed = .ok data) :
    formSize (pieces game fresh compressed) < 256 ^ 4 := by
  rw [encode_eq, chunksOf_of_encodable fits, Result.ok_bind] at written
  exact formSize_lt_of_writeForm isName_formType (Arrangement.refl game fresh compressed).names
    written

/-- A game that was written is read back. -/
theorem decode_of_encode (fits : game.Encodable fresh)
    (written : encode game fresh compressed = .ok data) : decode data fresh = .ok game.kept := by
  obtain ⟨again, encoded, decoded⟩ := decode_encode fits (formSize_lt_of_encode fits written)
  rw [encoded] at written
  cases written
  exact decoded

end SaveFile

end StoryMachine
