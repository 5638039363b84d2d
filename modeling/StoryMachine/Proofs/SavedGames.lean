import StoryMachine.Proofs.Differences
import StoryMachine.Proofs.Ensures
import StoryMachine.Proofs.SavedFrames

/-!
# Saved games can be read back

A saved game whose numbers fit their fields is written and read back, compressed
or not, in whatever order its chunks stand and whatever other chunks stand among
them. Whatever is read from a file can be written and read again.
-/

namespace StoryMachine

namespace SavedGame

/-- A saved game whose numbers fit the fields of a file, given the dynamic memory of the fresh
story. -/
structure Encodable (game : SavedGame) (fresh : List UInt8) : Prop where
  release : 0 ≤ game.release ∧ game.release < 0x10000
  serial : game.serial.length = 6
  checksum : 0 ≤ game.checksum ∧ game.checksum < 0x10000
  pc : 0 ≤ game.pc ∧ game.pc < 0x1000000
  dynamic : game.dynamic.length = fresh.length
  outermost : ∃ first, game.frames.head? = some first ∧ first.storeTo = none
  frames : ∀ frame ∈ game.frames, frame.Encodable

/-- Two saved games that hold the same game, with frames that agree. -/
structure Agrees (left right : SavedGame) : Prop where
  release : left.release = right.release
  serial : left.serial = right.serial
  checksum : left.checksum = right.checksum
  pc : left.pc = right.pc
  dynamic : left.dynamic = right.dynamic
  frames : List.Forall₂ (fun frame other => frame.agrees other) left.frames right.frames

/-- What a file keeps of a saved game. -/
def kept (game : SavedGame) : SavedGame :=
  { game with frames := game.frames.map Frame.kept }

private theorem agrees_kept (game : SavedGame) : game.kept.Agrees game where
  release := rfl
  serial := rfl
  checksum := rfl
  pc := rfl
  dynamic := rfl
  frames := by
    unfold kept
    dsimp only
    induction game.frames with
    | nil => exact .nil
    | cons frame rest ih => exact .cons ((Frame.agrees_iff_kept _ _).mpr rfl) ih

end SavedGame

namespace SaveFile

open Chunk

variable {game : SavedGame} {fresh : List UInt8}

/-! ## The chunks of a saved game -/

/-- The names of the chunks that a saved game is read from. -/
def knownNames : List String :=
  ["IFhd", "CMem", "UMem", "Stks"]

/-- The type of the form of a saved game is a name. -/
theorem isName_formType : IsName formType := by
  decide

private theorem isName_of_known : ∀ name ∈ knownNames, IsName name := by
  decide

/-- The chunks of a saved game, in the order in which they are written. -/
def chunksOf (game : SavedGame) (fresh : List UInt8) (compressed : Bool) :
    Result (List (String × List UInt8)) := do
  let memory :=
    if compressed then ("CMem", Difference.compress game.dynamic fresh)
    else ("UMem", game.dynamic)
  let identity ← encodeIdentity game
  let frames ← encodeFrames true game.frames
  return [("IFhd", identity), memory, ("Stks", frames)]

/-- A saved game is written as a form of its chunks. -/
theorem encode_eq (game : SavedGame) (fresh : List UInt8) (compressed : Bool) :
    encode game fresh compressed = chunksOf game fresh compressed >>= writeForm formType := by
  simp only [encode, chunksOf, bind_assoc, pure_bind]

/-- The identity chunk. -/
def identityBytes (game : SavedGame) : List UInt8 :=
  digits 2 game.release.toNat ++ (game.serial ++
    (digits 2 game.checksum.toNat ++ digits 3 game.pc.toNat))

private theorem encodeIdentity_of_encodable (fits : game.Encodable fresh) :
    encodeIdentity game = .ok (identityBytes game) := by
  unfold encodeIdentity
  rw [toField_of_lt fits.release.1 (by have := fits.release.2; omega), Result.ok_bind,
    toField_of_lt fits.checksum.1 (by have := fits.checksum.2; omega), Result.ok_bind,
    shortAddress_of_lt fits.pc.1 (by have := fits.pc.2; omega), Result.ok_bind]
  simp only [identityBytes, List.append_assoc]
  rfl

/-- The memory chunk. -/
def memoryPiece (game : SavedGame) (fresh : List UInt8) (compressed : Bool) :
    String × List UInt8 :=
  if compressed then ("CMem", Difference.compress game.dynamic fresh) else ("UMem", game.dynamic)

/-- The chunks of a saved game that fits are its identity, its memory and its frames. -/
theorem chunksOf_of_encodable (fits : game.Encodable fresh) (compressed : Bool) :
    chunksOf game fresh compressed = .ok
      [("IFhd", identityBytes game), memoryPiece game fresh compressed,
        ("Stks", framesBytes true game.frames)] := by
  unfold chunksOf
  dsimp only
  rw [encodeIdentity_of_encodable fits, Result.ok_bind,
    encodeFrames_of_encodable _ fits.frames, Result.ok_bind]
  rfl

/-! ## Reading the chunks -/

private theorem identity_fields (fits : game.Encodable fresh) :
    (identityBytes game).length = 13 ∧
      (number ((identityBytes game).take 2) : Int) = game.release ∧
      ((identityBytes game).drop 2).take 6 = game.serial ∧
      (number (((identityBytes game).drop 8).take 2) : Int) = game.checksum ∧
      (number (((identityBytes game).drop 10).take 3) : Int) = game.pc := by
  obtain ⟨release, serial, checksum, pc, -, -, -⟩ := fits
  have first := length_digits 2 game.release.toNat
  have second := length_digits 2 game.checksum.toNat
  have third := length_digits 3 game.pc.toNat
  have eight : (digits 2 game.release.toNat ++ game.serial).length = 8 := by
    rw [List.length_append, first, serial]
  have ten : (digits 2 game.release.toNat ++ (game.serial ++ digits 2 game.checksum.toNat)).length =
      10 := by
    rw [List.length_append, List.length_append, first, serial, second]
  refine ⟨?_, ?_, ?_, ?_, ?_⟩
  · simp only [identityBytes, List.length_append, first, serial, second, third]
  · rw [identityBytes, List.take_left' first, number_digits_of_lt (by omega),
      Int.toNat_of_nonneg release.1]
  · rw [identityBytes, List.drop_left' first, List.take_left' serial]
  · rw [identityBytes, ← List.append_assoc, List.drop_left' eight, List.take_left' second,
      number_digits_of_lt (by omega), Int.toNat_of_nonneg checksum.1]
  · rw [identityBytes, ← List.append_assoc game.serial, ← List.append_assoc, List.drop_left' ten,
      List.take_of_length_le (Nat.le_of_eq third), number_digits_of_lt (by omega),
      Int.toNat_of_nonneg pc.1]

/-- The chunks of a game, as they are read. -/
def pieces (game : SavedGame) (fresh : List UInt8) (compressed : Bool) :
    List (String × List UInt8) :=
  [("IFhd", identityBytes game), memoryPiece game fresh compressed,
    ("Stks", framesBytes true game.frames)]

/-- What has been read of a saved game is what the game has, as far as the names of chunks that were
read go. -/
structure Parts.Hold (parts : Parts) (game : SavedGame) (names : List String) : Prop where
  identity : "IFhd" ∈ names → parts.identity = some (identityBytes game)
  memory : "CMem" ∈ names ∨ "UMem" ∈ names → parts.memory = some game.dynamic
  frames : "Stks" ∈ names → parts.frames = some (game.frames.map Frame.kept)

private theorem decodeStack_framesBytes (fits : game.Encodable fresh) :
    decodeStack (framesBytes true game.frames) = .ok (game.frames.map Frame.kept) := by
  obtain ⟨first, head, root⟩ := fits.outermost
  have read := decodeFrames_framesBytes game.frames fits.frames true 0 (fun _ found member => by
    rw [head] at member
    cases member
    exact root)
  have nonempty : (game.frames.map Frame.kept).isEmpty = false := by
    rw [List.isEmpty_map]
    cases frames : game.frames with
    | nil => rw [frames] at head; cases head
    | cons frame rest => rfl
  unfold decodeStack
  rw [read, Result.ok_bind]
  dsimp only
  rw [if_neg (by rw [nonempty]; exact Bool.false_ne_true)]
  rfl

private theorem addChunk_identity {data : List UInt8} (length : data.length = 13) (offset : Int)
    (parts : Parts) (skipped : List String) :
    addChunk fresh parts { id := "IFhd", data, offset } skipped =
      .ok { parts with identity := some data } skipped := by
  unfold addChunk
  dsimp only
  rw [if_neg (by omega)]
  rfl

private theorem addChunk_compressed {data memory : List UInt8}
    (expanded : Difference.decompress data fresh = .ok memory) (offset : Int) (parts : Parts)
    (skipped : List String) :
    addChunk fresh parts { id := "CMem", data, offset } skipped =
      .ok { parts with memory := some memory } skipped := by
  unfold addChunk
  dsimp only
  rw [expanded]
  rfl

private theorem addChunk_plain {data : List UInt8} (length : data.length = fresh.length) (offset : Int)
    (parts : Parts) (skipped : List String) :
    addChunk fresh parts { id := "UMem", data, offset } skipped =
      .ok { parts with memory := some data } skipped := by
  unfold addChunk
  dsimp only
  rw [if_neg (not_not.mpr length)]
  rfl

private theorem addChunk_frames {data : List UInt8} {frames : List Frame}
    (read : decodeStack data = .ok frames) (offset : Int) (parts : Parts) (skipped : List String) :
    addChunk fresh parts { id := "Stks", data, offset } skipped =
      .ok { parts with frames := some frames } skipped := by
  unfold addChunk
  dsimp only
  rw [read]
  rfl

private theorem addChunk_other {chunk : Chunk} (other : chunk.id ∉ knownNames) (parts : Parts)
    (skipped : List String) :
    addChunk fresh parts chunk skipped = .ok parts (skipped ++ [chunk.id]) := by
  simp only [knownNames, List.mem_cons, List.not_mem_nil, or_false, not_or] at other
  obtain ⟨identity, compressed, plain, frames⟩ := other
  unfold addChunk
  simp only
  rfl

private theorem ne_of_not_known {id name : String} (other : id ∉ knownNames) (known : name ∈ knownNames) :
    name ≠ id := by
  rintro rfl
  exact other known

/-- A chunk of the game, or one with a name that is not known, is read. -/
theorem addChunk_of_piece (fits : game.Encodable fresh) {compressed : Bool} {chunk : Chunk}
    (known : (chunk.id, chunk.data) ∈ pieces game fresh compressed ∨ chunk.id ∉ knownNames)
    {parts : Parts} {names : List String} (hold : parts.Hold game names) (skipped : List String) :
    ∃ parts' skipped', addChunk fresh parts chunk skipped = .ok parts' skipped' ∧
      parts'.Hold game (chunk.id :: names) := by
  rcases known with piece | other
  · obtain ⟨id, data, offset⟩ := chunk
    simp only [pieces, List.mem_cons, List.not_mem_nil, or_false, Prod.mk.injEq] at piece
    rcases piece with ⟨rfl, rfl⟩ | memory | ⟨rfl, rfl⟩
    · refine ⟨_, _, addChunk_identity (identity_fields fits).1 offset parts skipped, ?_, ?_, ?_⟩
      · exact fun _ => rfl
      · simpa using hold.memory
      · simpa using hold.frames
    · unfold memoryPiece at memory
      cases compressed with
      | true =>
          obtain ⟨rfl, rfl⟩ := Prod.mk.inj memory
          refine ⟨_, _, addChunk_compressed (Difference.decompress_compress fits.dynamic) offset
            parts skipped, ?_, ?_, ?_⟩
          · simpa using hold.identity
          · exact fun _ => rfl
          · simpa using hold.frames
      | false =>
          obtain ⟨rfl, rfl⟩ := Prod.mk.inj memory
          refine ⟨_, _, addChunk_plain fits.dynamic offset parts skipped, ?_, ?_, ?_⟩
          · simpa using hold.identity
          · exact fun _ => rfl
          · simpa using hold.frames
    · refine ⟨_, _, addChunk_frames (decodeStack_framesBytes fits) offset parts skipped, ?_, ?_, ?_⟩
      · simpa using hold.identity
      · simpa using hold.memory
      · exact fun _ => rfl
  · refine ⟨parts, _, addChunk_other other parts skipped, ?_, ?_, ?_⟩
    · intro named
      exact hold.identity (List.mem_of_ne_of_mem (ne_of_not_known other (by decide)) named)
    · rintro (named | named)
      · exact hold.memory (.inl (List.mem_of_ne_of_mem (ne_of_not_known other (by decide)) named))
      · exact hold.memory (.inr (List.mem_of_ne_of_mem (ne_of_not_known other (by decide)) named))
    · intro named
      exact hold.frames (List.mem_of_ne_of_mem (ne_of_not_known other (by decide)) named)

private theorem addChunks_of_pieces (fits : game.Encodable fresh) {compressed : Bool} (chunks : List Chunk)
    (known : ∀ chunk ∈ chunks,
      (chunk.id, chunk.data) ∈ pieces game fresh compressed ∨ chunk.id ∉ knownNames)
    {parts : Parts} {names : List String} (hold : parts.Hold game names) (skipped : List String) :
    ∃ parts' skipped', addChunks fresh parts chunks skipped = .ok parts' skipped' ∧
      parts'.Hold game ((chunks.map Chunk.id).reverse ++ names) := by
  induction chunks generalizing parts names skipped with
  | nil => exact ⟨parts, skipped, rfl, hold⟩
  | cons chunk rest ih =>
      obtain ⟨between, noted, first, held⟩ :=
        addChunk_of_piece fits (known chunk List.mem_cons_self) hold skipped
      obtain ⟨parts', skipped', others, final⟩ :=
        ih (fun chunk member => known chunk (List.mem_cons_of_mem _ member)) held noted
      refine ⟨parts', skipped', ?_, ?_⟩
      · rw [addChunks]
        simp only [bind, EStateM.bind, first]
        exact others
      · rw [List.map_cons, List.reverse_cons, List.append_assoc]
        exact final

/-- A form with the chunks of a game in any order, and any others among them, is read back. -/
theorem decode_formBytes (fits : game.Encodable fresh) {compressed : Bool}
    {arranged : List (String × List UInt8)}
    (perm : (arranged.filter fun piece => piece.1 ∈ knownNames).Perm
      (pieces game fresh compressed))
    (names : ∀ piece ∈ arranged, IsName piece.1) (small : formSize arranged < 256 ^ 4) :
    decode (formBytes formType arranged) fresh = .ok game.kept := by
  obtain ⟨chunks, read, same⟩ :=
    readForm_formBytes .save isName_formType names small
  have known (chunk : Chunk) (member : chunk ∈ chunks) :
      (chunk.id, chunk.data) ∈ pieces game fresh compressed ∨ chunk.id ∉ knownNames := by
    by_cases isKnown : chunk.id ∈ knownNames
    · have listed : (chunk.id, chunk.data) ∈ arranged :=
        same ▸ List.mem_map_of_mem (f := fun chunk => (chunk.id, chunk.data)) member
      exact .inl (perm.subset (List.mem_filter.mpr ⟨listed, decide_eq_true isKnown⟩))
    · exact .inr isKnown
  have named (piece : String × List UInt8) (member : piece ∈ pieces game fresh compressed) :
      piece.1 ∈ (chunks.map Chunk.id).reverse ++ [] := by
    have listed := (List.mem_filter.mp (perm.symm.subset member)).1
    rw [← same] at listed
    obtain ⟨chunk, found, rfl⟩ := List.mem_map.mp listed
    rw [List.append_nil, List.mem_reverse]
    exact List.mem_map_of_mem found
  have nothing : ({} : Parts).Hold game [] := by
    refine ⟨?_, ?_, ?_⟩
    · intro member
      cases member
    · rintro (member | member) <;> cases member
    · intro member
      cases member
  obtain ⟨parts, skipped, added, hold⟩ := addChunks_of_pieces fits chunks known nothing []
  have identity := hold.identity (named _ List.mem_cons_self)
  have memory : parts.memory = some game.dynamic := by
    have present :=
      named (memoryPiece game fresh compressed) (List.mem_cons_of_mem _ List.mem_cons_self)
    cases compressed with
    | true => exact hold.memory (.inl present)
    | false => exact hold.memory (.inr present)
  have frames := hold.frames (named ("Stks", framesBytes true game.frames)
    (List.mem_cons_of_mem _ (List.mem_cons_of_mem _ List.mem_cons_self)))
  obtain ⟨-, release, serial, checksum, pc⟩ := identity_fields fits
  have run : decodeNoting (formBytes formType arranged) fresh [] = .ok game.kept skipped := by
    unfold decodeNoting
    rw [read]
    simp only [bind, EStateM.bind, liftM, monadLift, MonadLift.monadLift, Action.ofResult, added,
      identity, memory, frames, release, serial, checksum, pc]
    rfl
  unfold decode Action.answer
  rw [run]

/-! ## Any file -/

/-- What is read from a file of a certain size can be written again. -/
structure Parts.Rewritable (parts : Parts) (fresh : List UInt8) (limit : Nat) : Prop where
  identity : ∀ identity, parts.identity = some identity → 13 ≤ identity.length
  memory : ∀ memory, parts.memory = some memory → memory.length = fresh.length
  frames : ∀ frames, parts.frames = some frames →
    (∀ frame ∈ frames, frame.Encodable ∧ frame.kept = frame) ∧
      (∃ first, frames.head? = some first ∧ first.storeTo = none) ∧
      (framesBytes true frames).length ≤ limit

private theorem decodeStack_eq_ok {data : List UInt8} {frames : List Frame}
    (read : decodeStack data = .ok frames) :
    (∀ frame ∈ frames, frame.Encodable ∧ frame.kept = frame) ∧
      (∃ first, frames.head? = some first ∧ first.storeTo = none) ∧
      (framesBytes true frames).length = data.length := by
  obtain ⟨found, decoded, read⟩ := Result.bind_eq_ok read
  dsimp only at read
  split at read
  · cases read
  · rename_i nonempty
    cases read
    obtain ⟨fit, root, length⟩ := decodeFrames_eq_ok decoded
    cases frames with
    | nil => exact absurd rfl nonempty
    | cons first rest => exact ⟨fit, ⟨first, rfl, root rfl first rfl⟩, length⟩

private theorem ensures_addChunk {limit : Nat} {parts : Parts} (sound : parts.Rewritable fresh limit)
    {chunk : Chunk} (short : chunk.data.length ≤ limit) :
    Action.Ensures (fun _ => True) (fun parts => parts.Rewritable fresh limit)
      (addChunk fresh parts chunk) := by
  obtain ⟨identity, memory, frames⟩ := sound
  unfold addChunk
  split
  · refine .excluded fun long => .pure ⟨?_, memory, frames⟩
    rintro _ ⟨⟩
    exact Nat.not_lt.mp long
  · refine .bind (.lift fun _ expanded => Difference.length_of_decompress expanded)
      fun found size => ?_
    refine .pure ⟨identity, ?_, frames⟩
    rintro _ ⟨⟩
    exact size
  · refine .excluded fun same => .pure ⟨identity, ?_, frames⟩
    rintro _ ⟨⟩
    exact not_not.mp same
  · refine .bind (.lift fun _ read => decodeStack_eq_ok read) fun found read => ?_
    obtain ⟨fit, root, length⟩ := read
    refine .pure ⟨identity, memory, ?_⟩
    rintro _ ⟨⟩
    exact ⟨fit, root, Nat.le_of_eq length |>.trans short⟩
  · refine .seq (.modify fun _ _ => trivial) fun _ => ?_
    exact .pure ⟨identity, memory, frames⟩

private theorem ensures_addChunks {limit : Nat} (chunks : List Chunk)
    (short : ∀ chunk ∈ chunks, chunk.data.length ≤ limit) {parts : Parts}
    (sound : parts.Rewritable fresh limit) :
    Action.Ensures (fun _ => True) (fun parts => parts.Rewritable fresh limit)
      (addChunks fresh parts chunks) := by
  induction chunks generalizing parts with
  | nil => exact .pure sound
  | cons chunk rest ih =>
      refine .bind (ensures_addChunk sound (short chunk List.mem_cons_self)) fun parts sound => ?_
      exact ih (fun chunk member => short chunk (List.mem_cons_of_mem _ member)) sound

private theorem number_take_lt (bytes : List UInt8) (count : Nat) :
    number (bytes.take count) < 256 ^ count := by
  have short := List.length_take_le count bytes
  exact Nat.lt_of_lt_of_le (number_lt _) (Nat.pow_le_pow_right (by decide) short)

/-- A game that is read from a file can be written again. -/
theorem decode_eq_ok {data : List UInt8} (decoded : decode data fresh = .ok game) :
    game.Encodable fresh ∧ game.kept = game ∧
      (framesBytes true game.frames).length ≤ data.length := by
  have ensures : Action.Ensures (fun _ => True)
      (fun game => game.Encodable fresh ∧ game.kept = game ∧
        (framesBytes true game.frames).length ≤ data.length) (decodeNoting data fresh) := by
    unfold decodeNoting
    refine .bind (.lift fun _ found => length_data_le_of_readForm found) fun chunks short => ?_
    have nothing : ({} : Parts).Rewritable fresh data.length := by
      refine ⟨?_, ?_, ?_⟩ <;> exact fun _ none_eq => by cases none_eq
    refine .bind (ensures_addChunks chunks short nothing) fun parts sound => ?_
    split
    · exact .fault _
    · exact .fault _
    · exact .fault _
    · rename_i identity dynamic frames hasIdentity hasMemory hasFrames
      obtain ⟨fit, root, length⟩ := sound.frames frames hasFrames
      have long := sound.identity identity hasIdentity
      have release := number_take_lt identity 2
      have checksum := number_take_lt (identity.drop 8) 2
      have pc := number_take_lt (identity.drop 10) 3
      refine .pure ⟨⟨?_, ?_, ?_, ?_, sound.memory dynamic hasMemory, root, fun frame member =>
        (fit frame member).1⟩, ?_, length⟩
      · exact ⟨Int.natCast_nonneg _, by dsimp only; omega⟩
      · rw [List.length_take, List.length_drop]
        omega
      · exact ⟨Int.natCast_nonneg _, by dsimp only; omega⟩
      · exact ⟨Int.natCast_nonneg _, by dsimp only; omega⟩
      · unfold SavedGame.kept
        rw [List.map_congr_left fun frame member => (fit frame member).2, List.map_id']
  unfold decode Action.answer at decoded
  cases outcome : decodeNoting data fresh [] with
  | error failure skipped =>
      rw [outcome] at decoded
      cases decoded
  | ok found skipped =>
      rw [outcome] at decoded
      cases decoded
      exact (ensures.of_ok trivial outcome).2

/-! ## Round trips -/

/-- The chunks of a saved game in any order, with any other chunks among them. -/
structure Arrangement (written arranged : List (String × List UInt8)) : Prop where
  known : (arranged.filter fun piece => piece.1 ∈ knownNames).Perm written
  names : ∀ piece ∈ arranged, IsName piece.1

/-- The pieces as they are written are an arrangement of themselves. -/
theorem Arrangement.refl (game : SavedGame) (fresh : List UInt8) (compressed : Bool) :
    Arrangement (pieces game fresh compressed) (pieces game fresh compressed) := by
  have all : ∀ piece ∈ pieces game fresh compressed, piece.1 ∈ knownNames := by
    cases compressed <;>
      simp only [pieces, memoryPiece, List.forall_mem_cons, List.not_mem_nil, false_implies,
        implies_true, and_true, ↓reduceIte, Bool.false_eq_true] <;> decide
  refine ⟨?_, fun piece member => isName_of_known _ (all piece member)⟩
  rw [List.filter_eq_self.mpr fun piece member => decide_eq_true (all piece member)]

private theorem decode_arrangement (fits : game.Encodable fresh) {compressed : Bool}
    {arranged : List (String × List UInt8)}
    (arrangement : Arrangement (pieces game fresh compressed) arranged)
    (small : formSize arranged < 256 ^ 4) :
    ∃ data, writeForm formType arranged = .ok data ∧ decode data fresh = .ok game.kept :=
  ⟨_, writeForm_of_isName isName_formType arrangement.names small,
    decode_formBytes fits arrangement.known arrangement.names small⟩

/-- A saved game that fits is written and read back, as far as it is kept. -/
theorem decode_encode (fits : game.Encodable fresh) {compressed : Bool}
    (small : formSize (pieces game fresh compressed) < 256 ^ 4) :
    ∃ data, encode game fresh compressed = .ok data ∧ decode data fresh = .ok game.kept := by
  rw [encode_eq, chunksOf_of_encodable fits, Result.ok_bind]
  exact decode_arrangement fits (Arrangement.refl game fresh compressed) small

/-- A game of reasonable size fits the length field of a form. -/
theorem formSize_pieces_lt (fits : game.Encodable fresh) (compressed : Bool)
    (memory : fresh.length < 2 ^ 30) (frames : (framesBytes true game.frames).length < 2 ^ 30) :
    formSize (pieces game fresh compressed) < 256 ^ 4 := by
  have short (id : String) (data : List UInt8) (name : IsName id) :
      (bytesOf (id, data)).length ≤ 9 + data.length := by
    rw [length_bytesOf name, length_padding]
    dsimp only
    split <;> omega
  have identity := short "IFhd" (identityBytes game) (isName_of_known _ (by decide))
  have stack := short "Stks" (framesBytes true game.frames) (isName_of_known _ (by decide))
  have length := (identity_fields fits).1
  have dynamic : (bytesOf (memoryPiece game fresh compressed)).length ≤ 9 + 2 * fresh.length := by
    have same := fits.dynamic
    cases compressed with
    | true =>
        have compress := Difference.length_compress_le game.dynamic fresh
        have piece := short "CMem" (Difference.compress game.dynamic fresh)
          (isName_of_known _ (by decide))
        exact piece.trans (by omega)
    | false =>
        have piece := short "UMem" game.dynamic (isName_of_known _ (by decide))
        exact piece.trans (by omega)
  simp only [formSize, pieces, List.flatMap_cons, List.flatMap_nil, List.append_nil,
    List.length_append]
  omega

/-- A saved game that fits its fields is read back from what is written, and likewise when the
chunks are rearranged and others are inserted; a game that is read from a file is written and read
back unchanged. -/
theorem saved_games_round_trip (fresh : List UInt8) (compressed : Bool) :
    (∀ game : SavedGame, game.Encodable fresh →
      ∃ written decoded, chunksOf game fresh compressed = .ok written ∧ decoded.Agrees game ∧
        (formSize written < 2 ^ 32 →
          ∃ data, encode game fresh compressed = .ok data ∧ decode data fresh = .ok decoded) ∧
        ∀ arranged, Arrangement written arranged → formSize arranged < 2 ^ 32 →
          ∃ data, writeForm formType arranged = .ok data ∧ decode data fresh = .ok decoded) ∧
    ∀ (data : List UInt8) (game : SavedGame), data.length < 2 ^ 30 → fresh.length < 2 ^ 30 →
      decode data fresh = .ok game →
        ∃ again, encode game fresh compressed = .ok again ∧ decode again fresh = .ok game := by
  constructor
  · intro game fits
    refine ⟨pieces game fresh compressed, game.kept, chunksOf_of_encodable fits compressed,
      game.agrees_kept, ?_, ?_⟩
    · intro small
      exact decode_encode fits (by omega)
    · intro arranged arrangement small
      exact decode_arrangement fits arrangement (by omega)
  · intro data game shortData shortFresh decoded
    obtain ⟨fits, same, frames⟩ := decode_eq_ok decoded
    have again := decode_encode fits
      (formSize_pieces_lt fits compressed shortFresh (Nat.lt_of_le_of_lt frames shortData))
    rwa [same] at again

/-- A game in a routine with two locals and one word on its stack. -/
def sampleGame : SavedGame where
  release := 1
  serial := [50, 54, 48, 49, 48, 49]
  checksum := 0xffff
  pc := 0xffffff
  dynamic := [0, 5, 0]
  frames :=
    [{},
      { returnTo := 81, storeTo := some 255, locals := [1, 2], argumentCount := 8,
        stack := [0xffff] }]

private theorem encodable_sampleGame : sampleGame.Encodable [7, 0, 0] := by
  refine ⟨by decide, by decide, by decide, by decide, by decide, ⟨{}, rfl, rfl⟩, ?_⟩
  intro frame member
  have bounds : ∀ frame ∈ sampleGame.frames,
      (0 ≤ frame.returnTo ∧ frame.returnTo < 0x1000000) ∧
        (∀ target ∈ frame.storeTo, 0 ≤ target ∧ target < 256) ∧
        frame.locals.length ≤ maxLocals ∧
        (0 ≤ frame.argumentCount ∧ frame.argumentCount ≤ 8) ∧ frame.stack.length < 0x10000 ∧
        (∀ value ∈ frame.locals, 0 ≤ value ∧ value < 65536) ∧
        ∀ value ∈ frame.stack, 0 ≤ value ∧ value < 65536 := by
    decide
  obtain ⟨returnTo, storeTo, locals, arguments, stack, localWords, stackWords⟩ :=
    bounds frame member
  exact ⟨returnTo, storeTo, locals, arguments, stack, localWords, stackWords⟩

/-- The sample game is written with its memory compressed, and read back. -/
theorem saved_games_round_trip_sample :
    ∃ data decoded, encode sampleGame [7, 0, 0] true = .ok data ∧
      decode data [7, 0, 0] = .ok decoded ∧ decoded.Agrees sampleGame := by
  obtain ⟨written, decoded, made, agrees, whole, -⟩ :=
    (saved_games_round_trip [7, 0, 0] true).1 sampleGame encodable_sampleGame
  rw [chunksOf_of_encodable encodable_sampleGame] at made
  cases made
  obtain ⟨data, encoded, decodes⟩ := whole (by decide +kernel)
  exact ⟨data, decoded, encoded, decodes, agrees⟩

end SaveFile

end StoryMachine
