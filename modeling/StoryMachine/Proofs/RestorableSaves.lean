import StoryMachine.Proofs.Resuming

/-!
# Which saves can be restored

A run fills the fields of a saved game with numbers that fit, whatever the story:
no frame has more locals or arguments than a saved game can hold, all values are
words, and the outermost frame takes no result. What a run does not bound are
where its calls return to and how many words a routine leaves on its stack. A
save is written exactly if those fit, and what was written is accepted at every
later point of the run, except when the byte of its result is the last of memory.
-/

namespace StoryMachine

/-! ## Frames of a run -/

namespace Frame

variable {frame : Frame} {calls after : CallStack}

/-- A frame that fits a saved game in all but where it returns to and the size of its stack. -/
structure Tidy (frame : Frame) : Prop where
  storeTo : ∀ target, frame.storeTo = some target → 0 ≤ target ∧ target < 256
  locals : frame.locals.length ≤ maxLocals
  arguments : 0 ≤ frame.argumentCount ∧ frame.argumentCount ≤ 8
  local_words : ∀ value ∈ frame.locals, Word.IsWord value
  stack_words : ∀ value ∈ frame.stack, Word.IsWord value

private theorem Encodable.tidy (fits : frame.Encodable) : frame.Tidy :=
  ⟨fits.storeTo, fits.locals, fits.arguments, fits.local_words, fits.stack_words⟩

private theorem Tidy.encodable (tidy : frame.Tidy)
    (returnTo : 0 ≤ frame.returnTo ∧ frame.returnTo < 0x1000000)
    (stack : frame.stack.length < 0x10000) : frame.Encodable :=
  ⟨returnTo, tidy.storeTo, tidy.locals, tidy.arguments, stack, tidy.local_words,
    tidy.stack_words⟩

private theorem Tidy.revise (tidy : frame.Tidy) {revised : Frame} (revises : frame.Revises revised) :
    revised.Tidy := by
  have storeTo : revised.storeTo = frame.storeTo := by
    rw [revises.linkage]
  have arguments : revised.argumentCount = frame.argumentCount := by
    rw [revises.linkage]
  refine ⟨storeTo ▸ tidy.storeTo, ?_, arguments ▸ tidy.arguments, ?_, ?_⟩
  · rw [revises.locals_length]
    exact tidy.locals
  · intro value member
    exact (revises.local_words value member).elim (tidy.local_words value) id
  · intro value member
    exact (revises.stack_words value member).elim (tidy.stack_words value) id

private theorem isWord_initialValues {image : Image} {count : Nat} {address : Int} {values : List Int}
    (read : initialValues image address count = .ok values) :
    ∀ value ∈ values, Word.IsWord value := by
  induction count generalizing address values with
  | zero =>
      cases read
      simp
  | succ count ih =>
      obtain ⟨value, word, read⟩ := Result.bind_eq_ok read
      obtain ⟨rest, others, read⟩ := Result.bind_eq_ok read
      cases read
      refine List.forall_mem_cons.mpr ⟨?_, ih others⟩
      exact ⟨Int.natCast_nonneg value, Int.ofNat_lt.mpr (Image.word_lt word)⟩

/-- The frame of a call with at most seven arguments is tidy. -/
theorem tidy_of_ofRoutine {image : Image} {version : Version} {start returnTo : Int}
    {storeTo : Option Int} {arguments : List Int} {interrupt : Option Nat}
    (opened : ofRoutine image version start returnTo storeTo arguments interrupt = .ok frame)
    (target : ∀ target, storeTo = some target → 0 ≤ target ∧ target < 256)
    (few : arguments.length ≤ 7) : frame.Tidy := by
  have locals := (ofRoutine_eq_ok opened).2.1
  have built (count : Nat) (initial : List Int) (words : ∀ value ∈ initial, Word.IsWord value)
      (given : List Int)
      (made : given = (arguments.take count).map fun value => (Word.ofInt value : Int)) :
      (0 ≤ (given.length : Int) ∧ (given.length : Int) ≤ 8) ∧
        ∀ value ∈ given ++ initial.drop given.length, Word.IsWord value := by
    refine ⟨?_, ?_⟩
    · rw [made, List.length_map, List.length_take]
      omega
    · intro value member
      rcases List.mem_append.mp member with member | member
      · rw [made] at member
        obtain ⟨argument, -, rfl⟩ := List.mem_map.mp member
        exact Word.isWord_ofInt argument
      · exact words value (List.mem_of_mem_drop member)
  unfold ofRoutine at opened
  obtain ⟨count, -, opened⟩ := Result.bind_eq_ok opened
  dsimp only at opened
  split at opened
  · cases opened
  split at opened
  · obtain ⟨initial, read, opened⟩ := Result.bind_eq_ok opened
    cases opened
    obtain ⟨counted, words⟩ := built count initial (isWord_initialValues read) _ rfl
    exact ⟨target, locals, counted, words, by simp⟩
  · obtain ⟨initial, read, opened⟩ := Result.bind_eq_ok opened
    cases read
    cases opened
    have zeros : ∀ value ∈ List.replicate count (0 : Int), Word.IsWord value := by
      intro value member
      rw [List.eq_of_mem_replicate member]
      unfold Word.IsWord
      decide
    obtain ⟨counted, words⟩ := built count _ zeros _ rfl
    exact ⟨target, locals, counted, words, by simp⟩

/-- Frames as a run has them, the outermost first. -/
structure Arranged (frames : List Frame) : Prop where
  tidy : ∀ frame ∈ frames, frame.Tidy
  rooted : Rooted frames

namespace Arranged

/-- Arranged frames whose addresses have three bytes are nested. -/
theorem nested {frames : List Frame} (arranged : Arranged frames)
    (near : ∀ frame ∈ frames, frame.returnTo < 0x1000000) : Nested frames :=
  ⟨fun frame member => ⟨near frame member, (arranged.tidy frame member).locals⟩, arranged.rooted⟩

private theorem revise (arranged : Arranged calls.frames) (revises : calls.current.Revises frame) :
    Arranged { calls with current := frame }.frames := by
  refine ⟨fun other member => ?_, arranged.rooted.revise revises⟩
  rcases CallStack.mem_frames_revised member with rfl | member
  · exact (arranged.tidy _ (CallStack.mem_frames.mpr List.mem_cons_self)).revise revises
  · exact arranged.tidy other member

private theorem left (arranged : Arranged calls.frames) (left : after.LeftFrom calls) :
    Arranged after.frames :=
  ⟨fun frame member => arranged.tidy frame ((CallStack.frames_of_left left).subset member),
    arranged.rooted.left left⟩

private theorem push (arranged : Arranged calls.frames) (tidy : frame.Tidy)
    (entered : calls.push frame = .ok after) : Arranged after.frames := by
  refine ⟨fun other member => ?_, arranged.rooted.push entered⟩
  rw [CallStack.frames_of_push entered] at member
  rcases List.mem_append.mp member with member | member
  · exact arranged.tidy other member
  · cases List.mem_singleton.mp member
    exact tidy

end Arranged

end Frame

/-! ## The invariant -/

namespace Machine

variable {reach : Int → Prop} {kind : MoveKind} {machine after : Machine} {data : Array UInt8}

/-- The frames of the game, and of every snapshot of it, are as a run has them. -/
structure Core.Arranged (core : Core) : Prop where
  frames : Frame.Arranged core.work.calls.frames
  undo : ∀ game ∈ core.undo, Frame.Arranged game.frames

private theorem Core.Arranged.withSnapshot (arranged : machine.core.Arranged) {game : SavedGame}
    (frames : Frame.Arranged game.frames) : (machine.withSnapshot game).core.Arranged := by
  rw [core_withSnapshot]
  refine ⟨?_, arranged.undo⟩
  dsimp only
  obtain ⟨calls, made, listed⟩ := frames.rooted.exists_calls
  rw [made, Option.getD_some, listed]
  exact frames

private theorem Core.Arranged.begun (undo : ∀ game ∈ machine.undo, Frame.Arranged game.frames) :
    machine.begun.core.Arranged := by
  have tidy : ({} : Frame).Tidy := ⟨by simp, by decide, by decide, by simp, by simp⟩
  rw [core_begun]
  refine ⟨⟨?_, {}, rfl, rfl⟩, undo⟩
  intro frame member
  cases List.mem_singleton.mp member
  exact tidy

private theorem Core.Arranged.move (arranged : machine.core.Arranged)
    (move : Move reach kind machine after) : after.core.Arranged := by
  have ⟨frames, _⟩ := arranged
  have undo : ∀ game ∈ machine.undo, Frame.Arranged game.frames := arranged.undo
  cases move with
  | aside apart =>
      rw [apart.core]
      exact arranged
  | revise revises => exact ⟨frames.revise revises, undo⟩
  | leave left => exact ⟨frames.left left, undo⟩
  | goBack popped => exact ⟨frames.left (CallStack.leftFrom_pop popped), undo⟩
  | call opened returns target few entered =>
      exact ⟨frames.push (Frame.tidy_of_ofRoutine opened target few) entered, undo⟩
  | keepUndo near =>
      refine ⟨frames, ?_⟩
      intro game member
      rcases List.mem_cons.mp (List.mem_of_mem_take member) with rfl | member
      · exact frames
      · exact undo game member
  | @dropUndo _ game rest newest =>
      exact ⟨frames, fun older member => undo older (newest ▸ List.mem_cons_of_mem game member)⟩
  | @undo _ game rest newest size =>
      have older : { machine with undo := rest }.core.Arranged :=
        ⟨frames, fun older member => undo older (newest ▸ List.mem_cons_of_mem game member)⟩
      exact older.withSnapshot (undo game (newest ▸ List.mem_cons_self))
  | restore decoded size =>
      have fits := (SaveFile.decode_eq_ok decoded).1
      exact arranged.withSnapshot ⟨fun frame member => (fits.frames frame member).tidy,
        fits.outermost⟩
  | restart loaded =>
      rw [core_restarted]
      exact Core.Arranged.begun undo
  | _ => exact ⟨frames, undo⟩

private theorem closed_arranged (data : Array UInt8) :
    Closed (fun _ => True) (fun machine => (machine.core.Protects data ∧
      machine.core.Ledger fun _ => True) ∧ machine.core.Arranged) where
  move := fun allowed holds move =>
    ⟨(closed_protects data).move allowed holds.1 move, holds.2.move move⟩
  near := fun _ _ => trivial
  ledger := fun holds found => holds.1.2.found found

/-- The frames of a started machine are arranged at every point of a run. -/
theorem arranged_of_passes {fresh started : Machine} (unused : fresh.requests = #[])
    (accepted : reset fresh = .ok () started) (passes : Passes started machine) :
    machine.core.Arranged := by
  have start : started.core.Arranged := by
    obtain ⟨story, memory, -, rfl⟩ := reset_eq_ok accepted
    unfold opened
    exact Core.Arranged.begun (by simp)
  exact ((closed_arranged fresh.file.data).passes
    ⟨⟨protects_of_reset accepted, ledger_of_reset accepted unused⟩, start⟩ passes).2

end Machine

/-! ## Writing a snapshot -/

namespace Machine

variable {machine later : Machine} {data : Array UInt8} {pc : Int}

/-- What a snapshot of a run needs in order to be written: no call returns to a place before memory,
no stack has too many words, and the whole fits the length field of a form. -/
structure Writable (machine : Machine) (pc : Int) : Prop where
  returns : ∀ frame ∈ machine.work.calls.frames, 0 ≤ frame.returnTo
  depths : ∀ frame ∈ machine.work.calls.frames, frame.stack.length < 0x10000
  size : Chunk.formSize (SaveFile.pieces (machine.snapshot pc) machine.freshDynamic true) < 256 ^ 4

/-- A snapshot of a run is written exactly if it is writable, and then it fits its fields. -/
theorem encodes_iff_writable (protects : machine.core.Protects data)
    (arranged : machine.core.Arranged) (start : 0 ≤ pc) (stop : Near pc)
    (near : ∀ frame ∈ machine.work.calls.frames, Near frame.returnTo) :
    (∃ written, SaveFile.encode (machine.snapshot pc) machine.freshDynamic = .ok written) ↔
      machine.Writable pc := by
  constructor
  · rintro ⟨written, encoded⟩
    have fits := encodable_snapshot protects (arranged.frames.nested near) stop encoded
    exact ⟨fun frame member => (fits.frames frame member).returnTo.1,
      fun frame member => (fits.frames frame member).stack,
      SaveFile.formSize_lt_of_encode fits encoded⟩
  · intro writable
    have fits : (machine.snapshot pc).Encodable machine.freshDynamic := by
      refine ⟨?_, length_serial_snapshot protects pc, ?_, ⟨start, stop⟩,
        length_dynamic_snapshot protects pc, arranged.frames.rooted, ?_⟩
      · exact ⟨Int.natCast_nonneg _, Int.ofNat_lt.mpr (Image.peekWord_lt _ _)⟩
      · exact ⟨Int.natCast_nonneg _, Int.ofNat_lt.mpr (Image.peekWord_lt _ _)⟩
      · intro frame member
        exact (arranged.frames.tidy frame member).encodable
          ⟨writable.returns frame member, near frame member⟩ (writable.depths frame member)
    obtain ⟨written, encoded, -⟩ := SaveFile.decode_encode fits writable.size
    exact ⟨written, encoded⟩

end Machine

/-! ## The place of the result -/

/-- The offset of the branch at an address as its bytes have it, without a sign. -/
def Image.rawOffset (image : Image) (address : Int) : Nat :=
  if image.peek address.toNat / 64 % 2 = 1 then image.peek address.toNat % 64
  else image.peek address.toNat % 64 * 256 + image.peek (address + 1).toNat

/-- The sense of a branch, and whether it returns from its routine, can be told without its sign. -/
theorem Instruction.readBranch_raw {image : Image} {address next : Int} {branch : BranchTarget}
    (read : readBranch image address = .ok (branch, next)) :
    (branch.ifTrue = true ↔ 0x80 ≤ image.peek address.toNat) ∧
      ((branch.offset = 0 ∨ branch.offset = 1) ↔
        (image.rawOffset address = 0 ∨ image.rawOffset address = 1)) := by
  unfold readBranch at read
  obtain ⟨first, found, read⟩ := Result.bind_eq_ok read
  obtain ⟨-, rfl⟩ := Image.byte_eq_ok found
  dsimp only at read
  unfold Image.rawOffset
  split at read
  · rename_i short
    cases read
    rw [if_pos short]
    exact ⟨decide_eq_true_iff, by dsimp only; omega⟩
  · rename_i long
    obtain ⟨second, found, read⟩ := Result.bind_eq_ok read
    obtain ⟨-, rfl⟩ := Image.byte_eq_ok found
    cases read
    have low := image.peek_lt (address + 1).toNat
    rw [if_neg long]
    refine ⟨decide_eq_true_iff, ?_⟩
    dsimp only
    split <;> omega

private theorem Image.getElem?_of_lt {image : Image} {address : Nat} (inside : address < image.size) :
    ∃ byte : UInt8, image.bytes[address]? = some byte ∧ byte.toNat = image.peek address := by
  refine ⟨_, Array.getElem?_eq_getElem inside, ?_⟩
  unfold peek
  rw [Array.getD_eq_getD_getElem?, Array.getElem?_eq_getElem inside, Option.getD_some]

namespace Machine

variable {machine later : Machine} {data : Array UInt8} {pc : Int}

/-- Where memory has a byte, a snapshot of it reads as memory does on every machine of the story. -/
theorem byteAfter_snapshot (protects : machine.core.Protects data)
    (other : later.core.Protects data) {address : Int} (holds : machine.image.Holds address) :
    later.byteAfter (machine.snapshot pc).kept address =
      .ok (machine.image.peek address.toNat) := by
  have guards : machine.work.memory.Guards data := protects.memory
  have guards' : later.work.memory.Guards data := other.memory
  have size : machine.image.size = data.size := guards.size
  have size' : later.image.size = data.size := guards'.size
  have inside := guards.inside
  have length := GameMemory.size_dynamicBytes guards
  have dynamic : (machine.snapshot pc).kept.dynamic = machine.work.memory.dynamicBytes.toList := rfl
  unfold Image.Holds at holds
  unfold byteAfter
  rw [dynamic, Array.getElem?_toList]
  rcases Nat.lt_or_ge address.toNat (Image.mk data).staticMemoryAddress with below | above
  · have standing : address.toNat < machine.image.size := by omega
    have bytes : machine.work.memory.bytes.size = data.size := guards.size
    obtain ⟨byte, found, same⟩ := Image.getElem?_of_lt standing
    have stored : machine.work.memory.dynamicBytes[address.toNat]? = some byte := by
      rw [GameMemory.dynamicBytes_eq guards, Array.getElem?_extract, if_pos (by omega),
        Nat.zero_add]
      exact found
    rw [stored]
    exact congrArg Except.ok same
  · have same : later.image.peek address.toNat = machine.image.peek address.toNat :=
      (guards'.above _ above).trans (guards.above _ above).symm
    rw [Array.getElem?_eq_none (by omega)]
    dsimp only
    rw [Image.byte_of_holds (by unfold Image.Holds; omega), same]

/-- A branch that returns needs a caller. -/
theorem two_le_frames_of_takeBranch {offset next : Int} (returns : offset = 0 ∨ offset = 1)
    {after : Machine} (taken : takeBranch offset next machine = .ok () after) :
    2 ≤ machine.work.calls.frames.length := by
  unfold takeBranch at taken
  rw [if_pos returns] at taken
  obtain ⟨frame, left, popped, -⟩ := Action.bind_eq_ok taken
  rw [leave_eq] at popped
  unfold CallStack.pop at popped
  unfold CallStack.frames
  rw [List.length_append, List.length_reverse]
  cases callers : machine.work.calls.callers with
  | nil =>
      rw [callers] at popped
      cases popped
  | cons caller rest =>
      rw [List.length_cons, List.length_singleton]
      omega

private theorem getLast?_frames_snapshot (machine : Machine) (pc : Int) :
    (machine.snapshot pc).kept.frames.getLast? = some machine.work.calls.current.kept := by
  change (machine.work.calls.frames.map Frame.kept).getLast? = _
  unfold CallStack.frames
  rw [List.map_append, List.map_singleton, List.getLast?_concat]

/-- What a save leaves to be done once the game has been stored. -/
def settleSave (instruction : Instruction) : Play Unit :=
  settle instruction (if instruction.opcode.branches then .branch true else .store 1)

/-- A save whose branch returns when it succeeds was made in a routine with a caller. -/
theorem two_le_frames_of_settleSave {address : Int} {instruction : Instruction}
    (decoded : machine.instructionAt address = .ok instruction)
    (saves : instruction.opcode.operation = .save) (early : machine.image.version < 4)
    {settled : Machine} (settles : settleSave instruction machine = .ok () settled)
    (sense : 0x80 ≤ machine.image.peek instruction.resultAddress.toNat)
    (returns : machine.image.rawOffset instruction.resultAddress = 0 ∨
      machine.image.rawOffset instruction.resultAddress = 1) :
    2 ≤ machine.work.calls.frames.length := by
  obtain ⟨branches, branch, given, read⟩ :=
    Instruction.branch_of_save decoded saves (by exact_mod_cast early)
  obtain ⟨ifTrue, offset⟩ := Instruction.readBranch_raw read
  unfold settleSave at settles
  rw [if_pos branches] at settles
  unfold settle followBranch at settles
  rw [given] at settles
  dsimp only at settles
  rw [if_pos (ifTrue.mpr sense).symm] at settles
  exact two_le_frames_of_takeBranch (offset.mpr returns) settles

/-- A save whose result goes to a local was made in a routine that has the local. -/
theorem le_locals_of_settleSave (inside : machine.work.memory.dynamicEnd ≤ machine.work.memory.size)
    {address : Int} {instruction : Instruction}
    (decoded : machine.instructionAt address = .ok instruction)
    (saves : instruction.opcode.operation = .save) (late : 4 ≤ machine.image.version)
    {settled : Machine} (settles : settleSave instruction machine = .ok () settled)
    (positive : 0 < machine.image.peek instruction.resultAddress.toNat)
    (small : machine.image.peek instruction.resultAddress.toNat < 0x10) :
    machine.image.peek instruction.resultAddress.toNat ≤
      machine.work.calls.current.locals.length := by
  obtain ⟨branches, given, -⟩ :=
    Instruction.target_of_save decoded saves (by exact_mod_cast late)
  unfold settleSave at settles
  rw [if_neg (by rw [branches]; exact Bool.false_ne_true)] at settles
  obtain ⟨assignable, -, -⟩ := storeResult_eq_ok inside given settles
  unfold Workspace.Assignable at assignable
  have first : firstGlobal = 0x10 := rfl
  omega

/-- If the result of a save has a place, a snapshot for it can be resumed from on every machine of
the story that has the same version, except when that result is the last byte of memory. -/
theorem checkResumePoint_snapshot (protects : machine.core.Protects data)
    (other : later.core.Protects data) (version : later.image.version = machine.image.version)
    {address : Int} {instruction : Instruction}
    (decoded : machine.instructionAt address = .ok instruction)
    (saves : instruction.opcode.operation = .save) {settled : Machine}
    (settles : settleSave instruction machine = .ok () settled) :
    later.checkResumePoint (machine.snapshot instruction.resultAddress).kept =
      if instruction.resultAddress + 1 < machine.image.size then .ok ()
      else .fault (.resumeOutside instruction.resultAddress) := by
  have guards : machine.work.memory.Guards data := protects.memory
  have guards' : later.work.memory.Guards data := other.memory
  have size : later.image.size = machine.image.size := guards'.size.trans guards.size.symm
  have within := Instruction.within_of_read decoded
  have start := within.start
  have result := within.result
  have pc : (machine.snapshot instruction.resultAddress).kept.pc = instruction.resultAddress := rfl
  unfold checkResumePoint
  rw [getLast?_frames_snapshot]
  dsimp only
  rw [pc, size, version]
  by_cases inside : instruction.resultAddress + 1 < machine.image.size
  · have first : machine.image.Holds instruction.resultAddress := by
      unfold Image.Holds
      omega
    have second : machine.image.Holds (instruction.resultAddress + 1) := by
      unfold Image.Holds
      omega
    rw [if_pos inside, if_neg (by omega), byteAfter_snapshot protects other first,
      byteAfter_snapshot protects other second]
    by_cases early : machine.image.version < 4
    · have called := two_le_frames_of_settleSave decoded saves early settles
      have frames : (machine.snapshot instruction.resultAddress).kept.frames.length =
          machine.work.calls.frames.length :=
        List.length_map _
      have passes (offset : Nat)
          (raw : machine.image.rawOffset instruction.resultAddress = offset) :
          (if 0x80 ≤ machine.image.peek instruction.resultAddress.toNat ∧
              (offset = 0 ∨ offset = 1) ∧
              (machine.snapshot instruction.resultAddress).kept.frames.length < 2 then
            .fault .resumeReturnsFromMain
          else pure () : Result Unit) = .ok () := by
        rw [if_neg]
        · rfl
        · rintro ⟨sense, returns, alone⟩
          have enough := called sense (raw ▸ returns)
          omega
      rw [Result.ok_bind, if_pos early]
      split
      · exact passes _ (if_pos ‹_›)
      · exact passes _ (if_neg ‹_›)
    · have held := le_locals_of_settleSave guards.dynamicEnd_le_size decoded saves
        (Nat.le_of_not_lt early) settles
      rw [Result.ok_bind, if_neg early, if_neg]
      · rfl
      · rintro ⟨positive, small, missing⟩
        exact absurd (held positive small) (Nat.not_le.mpr missing)
  · rw [if_neg inside, if_pos (by omega)]
    rfl

/-! ## Restorable saves -/

private theorem answer_loadSave (written : List UInt8) (machine : Machine) :
    (loadSave written).answer machine = machine.accept written := by
  obtain ⟨log, run⟩ := loadSave_eq written machine
  unfold Action.answer
  rw [run]
  cases machine.accept written <;> rfl

/-- What another machine of the same story makes of a snapshot that was written. -/
theorem accept_snapshot (protects : machine.core.Protects data)
    (other : later.core.Protects data) {written : List UInt8}
    (decoded : SaveFile.decode written machine.freshDynamic = .ok (machine.snapshot pc).kept)
    (release : later.image.releaseNumber = machine.image.releaseNumber)
    (serial : later.image.serial = machine.image.serial)
    (checksum : later.image.checksum = machine.image.checksum) :
    later.accept written = (do
      later.checkResumePoint (machine.snapshot pc).kept
      return (machine.snapshot pc).kept) := by
  have fresh : later.freshDynamic = machine.freshDynamic := by
    rw [freshDynamic_eq other, freshDynamic_eq protects]
  have length : ((machine.snapshot pc).kept.dynamic.length : Int) =
      later.work.memory.dynamicEnd := by
    have size := GameMemory.size_dynamicBytes protects.memory
    exact (congrArg Int.ofNat size).trans other.memory.dynamicEnd.symm
  have own : ¬ ((machine.snapshot pc).kept.release ≠ later.image.releaseNumber ∨
      (machine.snapshot pc).kept.serial ≠ later.image.serial ∨
        (machine.snapshot pc).kept.checksum ≠ later.image.checksum) := by
    rw [release, serial, checksum]
    rintro (differs | differs | differs) <;> exact differs rfl
  unfold accept
  rw [fresh, decoded, Result.ok_bind]
  dsimp only
  rw [if_neg own, if_neg (not_not.mpr length)]

/-- A story of less than eight megabytes has no address of more than three bytes. -/
theorem near_of_executes {fresh started : Machine} (unused : fresh.requests = #[])
    (accepted : reset fresh = .ok () started) (small : fresh.file.data.size < 0x800000)
    {events : List Event} {instruction : Instruction}
    (executes : Executes (started.after events) instruction machine) :
    (∀ frame ∈ machine.work.calls.frames, Near frame.returnTo) ∧
      Near instruction.resultAddress := by
  have sound := (closed_sound small).passes (sound_of_reset unused accepted) (.executing executes)
  have size : machine.image.size = fresh.file.data.size := sound.protects.memory.size
  have within := Instruction.within_of_read executes.instructionAt
  have next := within.next
  have stop := within.stop
  refine ⟨fun frame member => (sound.savable.frames.compact frame member).returnTo, ?_⟩
  unfold Near
  omega

/-- Whether a save of a run can be written depends on where its calls return to and on the size of
its stacks, as long as all addresses have three bytes. What was written is accepted at every point
of every run of the story, as long as the header says the same, unless the result of the save is the
last byte of memory. -/
theorem save_restorable {fresh started : Machine} (unused : fresh.requests = #[])
    (accepted : reset fresh = .ok () started) {events : List Event} {instruction : Instruction}
    (executes : Executes (started.after events) instruction machine)
    (saves : instruction.opcode.operation = .save) {settled : Machine}
    (settles : settleSave instruction machine = .ok () settled)
    (near : ∀ frame ∈ machine.work.calls.frames, Near frame.returnTo)
    (place : Near instruction.resultAddress) :
    ((∃ written, SaveFile.encode (machine.snapshot instruction.resultAddress)
        machine.freshDynamic = .ok written) ↔ machine.Writable instruction.resultAddress) ∧
    ∀ written, SaveFile.encode (machine.snapshot instruction.resultAddress)
        machine.freshDynamic = .ok written →
      ∀ another restarted later : Machine, another.requests = #[] →
        another.file.data = fresh.file.data → reset another = .ok () restarted →
        Passes restarted later → later.image.version = machine.image.version →
        later.image.releaseNumber = machine.image.releaseNumber →
        later.image.serial = machine.image.serial →
        later.image.checksum = machine.image.checksum →
          (loadSave written).answer later =
            if instruction.resultAddress + 1 < machine.image.size then
              .ok (machine.snapshot instruction.resultAddress).kept
            else .fault (.resumeOutside instruction.resultAddress) := by
  have protects := protects_of_passes unused accepted (.executing executes)
  have arranged := arranged_of_passes unused accepted (.executing executes)
  have decoded := executes.instructionAt
  have within := Instruction.within_of_read decoded
  have start : 0 ≤ instruction.resultAddress :=
    Int.le_trans within.start (Int.le_of_lt within.result)
  refine ⟨encodes_iff_writable protects arranged start place near, ?_⟩
  intro written encoded another restarted later fresh' file reset' passes version release serial
    checksum
  have other := protects_of_passes fresh' reset' passes
  rw [file] at other
  have fits := encodable_snapshot protects (arranged.frames.nested near) place encoded
  have read := SaveFile.decode_of_encode fits encoded
  rw [answer_loadSave, accept_snapshot protects other read release serial checksum,
    checkResumePoint_snapshot protects other version decoded saves settles]
  split <;> rfl

/-- A saved game of the story that stores is read back. -/
theorem save_restorable_storing :
    ∃ written, SaveFile.encode (storingSaving.snapshot 81) storingSaving.freshDynamic =
        .ok written ∧
      (loadSave written).answer (storing.after [.step, .step]) =
        .ok (storingSaving.snapshot 81).kept := by
  have settles : settleSave storingSave storingSaving = .ok () _ :=
    Action.eq_ok_finalState (by decide +kernel)
  obtain ⟨near, place⟩ := near_of_executes rfl reset_storing (by decide +kernel) executes_storing
  obtain ⟨⟨-, writes⟩, accepts⟩ := save_restorable rfl reset_storing executes_storing rfl settles
    near place
  obtain ⟨written, encoded⟩ := writes ⟨by decide +kernel, by decide +kernel, by decide +kernel⟩
  have header : let image := (storing.after [.step, .step]).image
      image.version = storingSaving.image.version ∧
        image.releaseNumber = storingSaving.image.releaseNumber ∧
        image.serial = storingSaving.image.serial ∧
        image.checksum = storingSaving.image.checksum ∧
        storingSave.resultAddress + 1 < storingSaving.image.size := by
    decide +kernel
  obtain ⟨version, release, serial, checksum, inside⟩ := header
  have answer := accepts written encoded { sample with file.data := storingStory } storing
    (storing.after [.step, .step]) rfl rfl reset_storing (.between _) version release serial
    checksum
  rw [if_pos inside] at answer
  exact ⟨written, encoded, answer⟩

/-- The sample story in version four, with a save in its last two bytes. -/
def edgeStory : Array UInt8 :=
  ((((sampleStory.toList.take 80).set 0 4).set 9 72).set 73 7 ++ [0xb5, 0x10]).toArray

/-- The sample machine with that story, started. -/
def edge : Machine :=
  reset.finalState { sample with file.data := edgeStory }

/-- The machine on the point of executing the save. -/
def edgeSaving : Machine :=
  edge.poised.taking storingSave

/-- What that save writes. -/
def edgeFile : List UInt8 :=
  match SaveFile.encode (edgeSaving.snapshot 81) edgeSaving.freshDynamic with
  | .ok written => written
  | .error _ => []

/-- Not every saved game can be restored: one is refused whose result goes where the last byte of
the story says. -/
theorem not_forall_save_restorable :
    ¬ ∀ (fresh started machine settled later : Machine) (events : List Event)
      (instruction : Instruction) (written : List UInt8), fresh.requests = #[] →
      reset fresh = .ok () started → Executes (started.after events) instruction machine →
      instruction.opcode.operation = .save → instruction.operands = [] →
      settleSave instruction machine = .ok () settled →
      SaveFile.encode (machine.snapshot instruction.resultAddress) machine.freshDynamic =
        .ok written →
      Passes started later → later.image.version = machine.image.version →
      later.image.releaseNumber = machine.image.releaseNumber →
      later.image.serial = machine.image.serial →
      later.image.checksum = machine.image.checksum →
        ∃ game, (loadSave written).answer later = .ok game := by
  intro restorable
  have started : reset { sample with file.data := edgeStory } = .ok () edge :=
    Action.eq_ok_finalState (by decide +kernel)
  have executes : Executes (edge.after []) storingSave edgeSaving :=
    executes_poised (by decide +kernel) (by decide +kernel) (by decide +kernel) (by decide +kernel)
  have header : let image := (edge.after [.step]).image
      image.version = edgeSaving.image.version ∧
        image.releaseNumber = edgeSaving.image.releaseNumber ∧
        image.serial = edgeSaving.image.serial ∧ image.checksum = edgeSaving.image.checksum := by
    decide +kernel
  obtain ⟨version, release, serial, checksum⟩ := header
  obtain ⟨game, accepted⟩ := restorable _ _ _ _ (edge.after [.step]) _ _ edgeFile rfl started
    executes rfl rfl (Action.eq_ok_finalState (by decide +kernel)) (by decide +kernel)
    (.between _) version release serial checksum
  have refused : (loadSave edgeFile).answer (edge.after [.step]) = .fault (.resumeOutside 81) := by
    decide +kernel
  rw [refused] at accepted
  cases accepted

end Machine

end StoryMachine
