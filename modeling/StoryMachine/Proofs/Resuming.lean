import StoryMachine.Proofs.Matching
import StoryMachine.Proofs.SaveInstructions

/-!
# Saved games are resumed where they were saved

Whatever a story does after a save, a later restore of what was saved brings back
the program counter and the calls that the save left behind, and memory with
them, but for the bits of the header that belong to the machine. From version
four on the result of the save reads two instead of one.
-/

namespace StoryMachine

/-! ## Memory in place of other memory -/

namespace GameMemory

variable {memory source : GameMemory} {data : Array UInt8}

/-- Dynamic memory is what stands before static memory. -/
theorem dynamicBytes_eq (guards : memory.Guards data) :
    memory.dynamicBytes = memory.bytes.extract 0 (Image.mk data).staticMemoryAddress := by
  have inside := guards.inside
  have size : memory.bytes.size = data.size := guards.size
  have start : Span.position memory.bytes.size 0 = 0 := by
    unfold Span.position
    rw [if_neg (by omega)]
    omega
  have stop : Span.position memory.bytes.size (Image.mk data).staticMemoryAddress =
      (Image.mk data).staticMemoryAddress := by
    unfold Span.position
    rw [if_neg (by omega), Int.toNat_natCast]
    omega
  unfold dynamicBytes Image.span Span.ofArray
  rw [guards.dynamicEnd, start, stop]

/-- Dynamic memory is as large as the header says. -/
theorem size_dynamicBytes (guards : memory.Guards data) :
    memory.dynamicBytes.size = (Image.mk data).staticMemoryAddress := by
  have inside := guards.inside
  have size : memory.bytes.size = data.size := guards.size
  rw [dynamicBytes_eq guards, Array.size_extract]
  omega

/-- With the dynamic memory of another, memory reads as the other does. -/
theorem peek_withDynamic_dynamicBytes (guards : memory.Guards data) (other : source.Guards data)
    (address : Nat) :
    (memory.withDynamic source.dynamicBytes).peek address = source.peek address := by
  have length := size_dynamicBytes other
  have inside := other.inside
  have size : source.bytes.size = data.size := other.size
  rcases Nat.lt_or_ge address (Image.mk data).staticMemoryAddress with dynamic | static
  · apply Image.peek_eq_of_getElem?
    unfold withDynamic
    rw [Array.getElem?_append_left (by omega), dynamicBytes_eq other, Array.getElem?_extract,
      if_pos (by omega), Nat.zero_add]
  · have replaced := guards.withDynamic source.dynamicBytes (by
      rw [length, guards.dynamicEnd])
    rw [replaced.above address static, other.above address static]

end GameMemory

/-- The lowest two bits of the second flags are flags of one byte. -/
theorem Image.testBit_flags2 (image : Image) {bit : Nat} (low : bit < 2) :
    image.flags2.testBit bit = image.peekFlag 0x11 bit := by
  have flags : image.flags2 = image.peek 0x10 * 256 + image.peek 0x11 := rfl
  unfold Image.peekFlag
  rw [flags]
  match bit with
  | 0 =>
      simp only [Nat.testBit_zero, decide_eq_decide]
      omega
  | 1 =>
      simp only [Nat.testBit_succ, Nat.testBit_zero, decide_eq_decide]
      omega
  | bit + 2 => omega

namespace Machine

/-- After a saved game, memory is that of the game, but for the flags that are kept and what the
story is told. -/
theorem image_withSnapshot (machine : Machine) (game : SavedGame) :
    (machine.withSnapshot game).image =
      ((machine.work.memory.withDynamic game.dynamic.toArray).toImage.keepFlags
        machine.image.flags2).announce machine.surroundings :=
  congrArg (fun core => core.work.memory.toImage) (core_withSnapshot machine game)

/-- With a snapshot in place, memory reads as it did when the snapshot was taken, but for the bits
that the machine owns and those that it keeps. -/
theorem peekFlag_withSnapshot {machine : Machine} {data : Array UInt8}
    (protects : machine.core.Protects data) {source : GameMemory} (guards : source.Guards data)
    {game : SavedGame} (dynamic : game.dynamic = source.dynamicBytes.toList) {address bit : Nat}
    (unowned : ¬ Header.Owned source.version machine.surroundings address bit) :
    (machine.withSnapshot game).image.peekFlag address bit =
      if address = 0x11 ∧ bit < 2 then machine.image.peekFlag address bit
      else source.peekFlag address bit := by
  have own : machine.work.memory.Guards data := protects.memory
  have reads (place : Nat) :
      (machine.work.memory.withDynamic game.dynamic.toArray).peek place = source.peek place := by
    rw [dynamic, Array.toArray_toList]
    exact GameMemory.peek_withDynamic_dynamicBytes own guards place
  have replaced := own.withDynamic source.dynamicBytes (by
    rw [GameMemory.size_dynamicBytes guards, own.dynamicEnd])
  have headed : Header.size ≤ (machine.work.memory.withDynamic game.dynamic.toArray).size := by
    rw [dynamic, Array.toArray_toList, replaced.size]
    exact guards.header.trans guards.inside
  have version : ((machine.work.memory.withDynamic game.dynamic.toArray).toImage.keepFlags
      machine.image.flags2).version = source.version := by
    unfold Image.version
    rw [Image.keepFlags_eq, Image.peek_poke_of_ne (by decide), Image.peek_poke_of_ne (by decide)]
    exact reads 0
  rw [image_withSnapshot, Image.peekFlag_announce _ _ (by rwa [version]),
    Image.peekFlag_keepFlags _ headed]
  split
  · rename_i preserved
    rw [preserved.1]
    exact Image.testBit_flags2 _ preserved.2
  · unfold Image.peekFlag
    rw [reads address]

end Machine

/-! ## Going on from matching workspaces -/

/-- Calls are made again from their frames. -/
theorem CallStack.ofFrames?_frames (calls : CallStack) : ofFrames? calls.frames = some calls := by
  unfold ofFrames?
  rw [frames_eq, List.reverse_reverse]
  rfl

namespace Workspace

variable {workspace work : Workspace} {address : Nat} {pc : Int}

private theorem peek_branch?_of_lt (below : address < workspace.globals) {offset next : Int}
    (leads : workspace.branch? offset next = some (work, pc)) :
    work.memory.peek address = workspace.memory.peek address := by
  unfold branch? at leads
  split at leads
  · split at leads
    · dsimp only at leads
      split at leads
      · cases leads
        refine (peek_stored_of_lt ?_ _ _).trans rfl
        exact below
      · cases leads
    · cases leads
  · cases leads
    rfl

/-- A resumption leaves what lies below the globals alone. -/
theorem peek_resume?_of_lt (below : address < workspace.globals) {result : Int}
    (leads : workspace.resume? result = some (work, pc)) :
    work.memory.peek address = workspace.memory.peek address := by
  unfold resume? at leads
  dsimp only at leads
  split at leads
  · split at leads
    · unfold follow? at leads
      split at leads
      · exact peek_branch?_of_lt below leads
      · cases leads
        rfl
    · cases leads
  · split at leads
    · cases leads
      exact peek_assigned_of_lt below _ _
    · cases leads

end Workspace

namespace Machine

/-- With a snapshot of another machine of the same story in place, the workspace matches that of the
other, but for the bits that the machine owns and those that it keeps. -/
theorem matches_withSnapshot {machine source : Machine} {data : Array UInt8}
    (protects : machine.core.Protects data) (sound : source.core.Protects data)
    (globals : machine.work.globals = source.work.globals) (pc : Int) :
    Workspace.Matches
      (fun address bit => Header.Owned source.image.version machine.surroundings address bit ∨
        Header.Preserved address bit)
      (machine.withSnapshot (source.snapshot pc).kept).work source.work where
  calls := by
    have frames : (source.snapshot pc).kept.frames = source.work.calls.kept.frames :=
      (CallStack.frames_kept _).symm
    have core := congrArg (fun core => core.work.calls)
      (core_withSnapshot machine (source.snapshot pc).kept)
    dsimp only at core
    rw [frames, CallStack.ofFrames?_frames, Option.getD_some] at core
    exact (congrArg CallStack.kept core).trans (CallStack.kept_kept _)
  globals := by
    have core := congrArg (fun core => core.work.globals)
      (core_withSnapshot machine (source.snapshot pc).kept)
    exact core.trans globals
  size := by
    have length : ((source.snapshot pc).kept.dynamic.length : Int) =
        machine.work.memory.dynamicEnd := by
      have size := GameMemory.size_dynamicBytes sound.memory
      exact (congrArg Int.ofNat size).trans protects.memory.dynamicEnd.symm
    exact (protects.withSnapshot length).memory.size.trans sound.memory.size.symm
  bits := by
    intro address bit alike
    rw [not_or] at alike
    exact (peekFlag_withSnapshot protects sound.memory rfl alike.1).trans (if_neg alike.2)

end Machine

/-! ## Where a save is resumed -/

/-- What a restore makes of the workspace that a save has left: nothing else up to version three,
and from then on the variable that took the result reads two instead of one. -/
inductive Workspace.Amended (version : Nat) (instruction : Instruction) (saved : Workspace) :
    Workspace → Prop where
  | branching (early : version < 4) : Amended version instruction saved saved
  | storing {target : Int} {amended : Workspace} (late : 4 ≤ version)
      (given : instruction.storeTo = some target)
      (before : getVariable target true saved = .ok 1 saved)
      (after : setVariable target 2 true saved = .ok () amended) :
      Amended version instruction saved amended

namespace Machine

variable {machine : Machine}

/-- A save that succeeds is resumed where it led, from every workspace that matches its own in the
version and beyond the header. -/
theorem resume?_of_save {apart : Nat → Nat → Prop} {left work : Workspace} {pc : Int}
    (alike : Workspace.Matches apart left machine.work)
    (close : ∀ address bit, apart address bit → 0 < address ∧ address < Header.size)
    {address : Int} {instruction : Instruction}
    (decoded : machine.instructionAt address = .ok instruction)
    (saves : instruction.opcode.operation = .save) (bare : instruction.operands = [])
    (beyond : Header.size ≤ instruction.address)
    (inside : machine.work.memory.dynamicEnd ≤ machine.work.memory.size)
    (plain : machine.work.calls.current.interrupt = none) {stored saved : Machine}
    (succeeds : save instruction machine = .ok true stored)
    (executed : executeInstruction instruction machine = .ok () saved)
    (leads : left.resume? instruction.resultAddress = some (work, pc)) :
    ∃ amended, Workspace.Amended machine.image.version instruction saved.work amended ∧
      Workspace.Matches apart work amended ∧ pc = saved.pc := by
  have settled := settle_of_save (Instruction.opcode_mem_all_of_read decoded) saves bare succeeds
    executed
  have same : stored.work = machine.work := congrArg Core.work (save_eq_ok succeeds).2
  have result := (Instruction.within_of_read decoded).result
  have reads (place : Nat) (far : place = 0 ∨ Header.size ≤ place) :
      left.memory.peek place = machine.image.peek place := by
    apply Image.peek_eq_of_peekFlag
    intro bit
    refine alike.bits place bit fun unlike => ?_
    have bounds := close place bit unlike
    omega
  have version : left.memory.toImage.version = machine.image.version := reads 0 (.inl rfl)
  have first := reads instruction.resultAddress.toNat (.inr (by omega))
  have second := reads (instruction.resultAddress + 1).toNat (.inr (by omega))
  unfold Workspace.resume? at leads
  dsimp only at leads
  rw [version] at leads
  by_cases early : machine.image.version < 4
  · obtain ⟨branches, branch, given, read⟩ :=
      Instruction.branch_of_save decoded saves (by exact_mod_cast early)
    rw [if_pos branches] at settled
    have led := followBranch_eq_ok (same ▸ inside) (same ▸ plain) given settled
    rw [same] at led
    have branching := Instruction.readBranch_congr alike.size first second
    rw [if_pos early, branching.trans read] at leads
    exact ⟨saved.work, .branching early, alike.follow? leads led⟩
  · have late : 4 ≤ machine.image.version := Nat.le_of_not_lt early
    obtain ⟨branches, given, next⟩ :=
      Instruction.target_of_save decoded saves (by exact_mod_cast late)
    rw [if_neg (by rw [branches]; exact Bool.false_ne_true)] at settled
    obtain ⟨assignable, assigned, moved⟩ := storeResult_eq_ok (same ▸ inside) given settled
    rw [same] at assignable assigned
    rw [if_neg early, first] at leads
    split at leads
    · cases leads
      refine ⟨machine.work.assigned (machine.image.peek instruction.resultAddress.toNat) 2, ?_,
        alike.assigned _ 2, ?_⟩
      · rw [assigned]
        exact .storing late given (Workspace.getVariable_assigned inside assignable 1)
          (Workspace.setVariable_assigned inside assignable 1 2)
      · rw [moved, next]
    · cases leads

/-! ## Snapshots that were written -/

private theorem length_serial {image : Image} (headed : Header.size ≤ image.size) :
    image.serial.length = 6 := by
  unfold Header.size Image.size at headed
  unfold Image.serial
  rw [Array.length_toList, Array.size_extract]
  omega

/-- The fresh dynamic memory is that of the story file. -/
theorem freshDynamic_eq {data : Array UInt8} (protects : machine.core.Protects data) :
    machine.freshDynamic = (data.extract 0 (Image.mk data).staticMemoryAddress).toList := by
  have extent : machine.work.memory.dynamicEnd = (Image.mk data).staticMemoryAddress :=
    protects.memory.dynamicEnd
  have story : machine.story.data = data := protects.story
  unfold freshDynamic Story.freshDynamic
  rw [extent, story, Int.toNat_natCast]

/-- The serial number of a snapshot has six characters. -/
theorem length_serial_snapshot {data : Array UInt8} (protects : machine.core.Protects data)
    (pc : Int) : (machine.snapshot pc).serial.length = 6 := by
  have guards : machine.work.memory.Guards data := protects.memory
  refine length_serial ((guards.header.trans guards.inside).trans ?_)
  exact Nat.le_of_eq guards.size.symm

/-- The dynamic memory of a snapshot is as long as the fresh one. -/
theorem length_dynamic_snapshot {data : Array UInt8} (protects : machine.core.Protects data)
    (pc : Int) : (machine.snapshot pc).dynamic.length = machine.freshDynamic.length := by
  have guards : machine.work.memory.Guards data := protects.memory
  have length := GameMemory.size_dynamicBytes guards
  have inside := guards.inside
  rw [freshDynamic_eq protects, Array.length_toList, Array.size_extract]
  refine (Array.length_toList.trans length).trans ?_
  omega

/-- A snapshot that was written fits its fields. -/
theorem encodable_snapshot {data : Array UInt8} (protects : machine.core.Protects data)
    (nested : Frame.Nested machine.work.calls.frames) {pc : Int} (near : Near pc)
    {written : List UInt8}
    (encoded : SaveFile.encode (machine.snapshot pc) machine.freshDynamic = .ok written) :
    (machine.snapshot pc).Encodable machine.freshDynamic :=
  SaveFile.encodable_of_encode (length_serial_snapshot protects pc) near
    (length_dynamic_snapshot protects pc) nested encoded

/-- A restore of a snapshot that was written resumes just that snapshot. -/
theorem resume?_of_restore {data : Array UInt8} {later fetched resumed : Machine}
    (saving : Sound data machine) (restoring : Sound data later) {pc : Int} (near : Near pc)
    {written : List UInt8}
    (encoded : SaveFile.encode (machine.snapshot pc) machine.freshDynamic = .ok written)
    (handed : retrieve later = .ok (some written) fetched)
    (restored : restore later = .ok true resumed) :
    (fetched.withSnapshot (machine.snapshot pc).kept).work.resume? pc =
      some (resumed.work, resumed.pc) := by
  obtain ⟨-, -, -, outcome⟩ := restore_of_protects restoring.protects
  obtain ⟨game, swapped, work, place, offers, leads, core⟩ := outcome resumed restored
  obtain ⟨found, fetched', handed', accepted, rfl⟩ := offers
  rw [handed] at handed'
  cases handed'
  have decoded := (accept_eq_ok accepted).1
  have fits := encodable_snapshot saving.protects saving.savable.frames near encoded
  rw [freshDynamic_eq restoring.protects, ← freshDynamic_eq saving.protects,
    SaveFile.decode_of_encode fits encoded] at decoded
  cases decoded
  have work : resumed.work = work := congrArg Core.work core
  have pc : resumed.pc = place := congrArg Core.pc core
  rw [work, pc]
  exact leads

/-! ## Save and restore -/

/-- The two preserved bits come through a resumption as they were before the restore. -/
theorem peekFlag_of_preserved {data : Array UInt8} {source : GameMemory} {work : Workspace}
    (protects : machine.core.Protects data) (guards : source.Guards data)
    (headed : Header.size ≤ machine.work.globals) {game : SavedGame}
    (dynamic : game.dynamic = source.dynamicBytes.toList) {result pc : Int}
    (leads : (machine.withSnapshot game).work.resume? result = some (work, pc)) {address bit : Nat}
    (preserved : Header.Preserved address bit) :
    work.memory.peekFlag address bit = machine.image.peekFlag address bit := by
  have place := preserved
  unfold Header.Preserved at place
  unfold Header.size at headed
  have globals : (machine.withSnapshot game).work.globals = machine.work.globals :=
    congrArg (fun core => core.work.globals) (core_withSnapshot machine game)
  have untouched : work.memory.peek address = (machine.withSnapshot game).image.peek address :=
    Workspace.peek_resume?_of_lt (by omega) leads
  have unowned : ¬ Header.Owned source.version machine.surroundings address bit := by
    simp only [Header.Owned, List.mem_cons, List.not_mem_nil, or_false]
    omega
  have kept := (peekFlag_withSnapshot protects guards dynamic unowned).trans (if_pos preserved)
  unfold Image.peekFlag at kept ⊢
  rw [untouched, kept]

/-- A restored save goes on where the save led, whatever has happened in between: with the program
counter and the calls that the save left, and with its memory but for the bits that the machine owns
and the two that a restore preserves. From version four on the result of the save reads two. -/
theorem restore_resumes_save {fresh started stored saved : Machine} (unused : fresh.requests = #[])
    (accepted : reset fresh = .ok () started) (small : fresh.file.data.size < 0x800000)
    (apart : Header.size ≤ (Image.mk fresh.file.data).globalsAddress) {events : List Event}
    {instruction : Instruction} (executes : Executes (started.after events) instruction machine)
    (saves : instruction.opcode.operation = .save) (bare : instruction.operands = [])
    (beyond : Header.size ≤ instruction.address)
    (plain : ∀ frame ∈ machine.work.calls.frames, frame.interrupt = none)
    (succeeds : save instruction machine = .ok true stored)
    (executed : executeInstruction instruction machine = .ok () saved) :
    ∃ data handed,
      SaveFile.encode (machine.snapshot instruction.resultAddress) machine.freshDynamic = .ok data ∧
      store data machine = .ok true handed ∧
      ∀ later fetched resumed, Passes saved later → retrieve later = .ok (some data) fetched →
        restore later = .ok true resumed →
          ∃ amended, Workspace.Amended machine.image.version instruction saved.work amended ∧
            resumed.pc = saved.pc ∧ resumed.work.calls.Agrees amended.calls ∧
            resumed.image.size = amended.memory.size ∧
            (∀ address bit,
              ¬ Header.Owned machine.image.version fetched.surroundings address bit →
                ¬ Header.Preserved address bit →
                  resumed.image.peekFlag address bit = amended.memory.peekFlag address bit) ∧
            ∀ address bit, Header.Preserved address bit →
              resumed.image.peekFlag address bit = later.image.peekFlag address bit := by
  have closed := closed_sound small
  have saving := closed.passes (sound_of_reset unused accepted) (.executing executes)
  have guards : machine.work.memory.Guards fresh.file.data := saving.protects.memory
  have decoded := executes.instructionAt
  have within := Instruction.within_of_read decoded
  have settling : Sound fresh.file.data saved := by
    have listed := Instruction.opcode_mem_all_of_read decoded
    have fits : instruction.Fits Near := within.fits fun _ => closed.near saving
    exact ((keeps_executeInstruction closed fits within.operands listed).of_ok saving executed).1
  have near : Near instruction.resultAddress := by
    have size : machine.image.size = fresh.file.data.size := guards.size
    have next := within.next
    have stop := within.stop
    unfold Near
    omega
  obtain ⟨⟨data, handed, encoded, given⟩, -⟩ := save_eq_ok succeeds
  refine ⟨data, handed, encoded, given, ?_⟩
  intro later fetched resumed passes found restored
  -- Whatever the run in between was, it has kept the extent of memory and the place of the globals;
  -- nothing else of the later game enters what is resumed.
  have restoring := closed.passes settling passes
  have fetching := core_of_retrieve found
  have protects : fetched.core.Protects fresh.file.data := fetching ▸ restoring.protects
  have leads := resume?_of_restore saving restoring near encoded found restored
  have globals : fetched.work.globals = (Image.mk fresh.file.data).globalsAddress :=
    (congrArg (fun core => core.work.globals) fetching).trans restoring.savable.globals
  have alike := matches_withSnapshot protects saving.protects
    (globals.trans saving.savable.globals.symm) instruction.resultAddress
  have current := plain _ (CallStack.mem_frames.mpr List.mem_cons_self)
  have close (address bit : Nat)
      (exempt : Header.Owned machine.image.version fetched.surroundings address bit ∨
        Header.Preserved address bit) : 0 < address ∧ address < Header.size := by
    simp only [Header.Owned, Header.Preserved, List.mem_cons, List.not_mem_nil, or_false] at exempt
    unfold Header.size
    omega
  obtain ⟨amended, amends, same, moved⟩ := resume?_of_save alike close decoded saves bare beyond
    guards.dynamicEnd_le_size current succeeds executed leads
  refine ⟨amended, amends, moved, CallStack.agrees_of_kept_eq same.calls, same.size, ?_, ?_⟩
  · intro address bit unowned unpreserved
    exact same.bits address bit (not_or.mpr ⟨unowned, unpreserved⟩)
  · intro address bit preserved
    have headed : (Header.size : Int) ≤ fetched.work.globals := by omega
    have image : fetched.image = later.image :=
      congrArg (fun core => core.work.memory.toImage) fetching
    rw [← image]
    exact peekFlag_of_preserved protects guards headed rfl leads preserved

/-- The sample story in version four: it saves, changes a global, restores and quits. -/
def storingStory : Array UInt8 :=
  ((sampleStory.toList.take 80).set 0 4 ++ [0xb5, 0x10, 0x0d, 0x11, 5, 0xb6, 0x12, 0xba] ++
    sampleStory.toList.drop 88).toArray

/-- The sample machine with that story, started. -/
def storing : Machine :=
  reset.finalState { sample with file.data := storingStory }

/-- The first instruction of that story. -/
def storingSave : Instruction where
  address := 80
  form := .short
  opcode :=
    { group := .zeroOperands, number := 5, name := "save", operation := .save, stores := true,
      firstVersion := 4, lastVersion := some 8 }
  operands := []
  storeTo := some 16
  resultAddress := 81
  nextAddress := 82

/-- The machine on the point of executing it. -/
def storingSaving : Machine :=
  (pollSounds.finalState ((do requireStory .notInitialized; acceptInput :
    Play Unit).finalState storing)).taking storingSave

/-- The machine that it leaves. -/
def storingSaved : Machine :=
  (executeInstruction storingSave).finalState storingSaving

/-- The machine with that story is started. -/
theorem reset_storing : reset { sample with file.data := storingStory } = .ok () storing :=
  Action.eq_ok_finalState (by decide +kernel)

/-- The first instruction of that story saves. -/
theorem executes_storing : Executes (storing.after []) storingSave storingSaving := by
  change Executes storing storingSave storingSaving
  refine ⟨_, _, Action.eq_ok_finalState ?_, ?_, Action.eq_ok_finalState ?_, ?_, rfl⟩
  · decide +kernel
  · decide +kernel
  · decide +kernel
  · decide +kernel

/-- The restore goes on behind the save, with memory as it was then. -/
theorem restore_resumes_save_storing :
    ∃ resumed amended, restore (storingSaved.after [.step]) = .ok true resumed ∧
      Workspace.Amended 4 storingSave storingSaved.work amended ∧
      resumed.pc = storingSaved.pc ∧ resumed.work.calls.Agrees amended.calls ∧
      (storingSaved.after [.step]).image.peek 67 = 5 ∧ amended.memory.peek 67 = 0 := by
  have version : storingSaving.image.version = 4 := by decide +kernel
  obtain ⟨data, -, encoded, -, resumes⟩ := restore_resumes_save rfl reset_storing
    (by decide +kernel) (by decide +kernel) executes_storing rfl rfl (by decide) (by decide +kernel)
    (Action.eq_ok_finalState (by decide +kernel)) (Action.eq_ok_finalState (by decide +kernel))
  have handed : retrieve.answer (storingSaved.after [.step]) =
      (SaveFile.encode (storingSaving.snapshot storingSave.resultAddress)
        storingSaving.freshDynamic).map some := by
    decide +kernel
  rw [encoded] at handed
  have restored : restore (storingSaved.after [.step]) = .ok true _ :=
    Action.eq_ok_finalState (by decide +kernel)
  obtain ⟨amended, amends, pc, calls, -, bits, -⟩ := resumes _ _ _ (.between [.step])
    (Action.eq_ok_finalState handed) restored
  rw [version] at amends
  refine ⟨_, amended, restored, amends, pc, calls, by decide +kernel, ?_⟩
  refine Eq.trans (Image.peek_eq_of_peekFlag fun bit => (bits 67 bit ?_ ?_).symm) ?_
  · intro owned
    exact absurd owned.lt_size (by decide)
  · intro preserved
    exact absurd preserved.1 (by decide)
  · decide +kernel

end Machine

end StoryMachine
