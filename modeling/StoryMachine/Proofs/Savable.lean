import StoryMachine.Proofs.Protection
import StoryMachine.Proofs.WrittenGames

/-!
# Games in progress can be saved

A machine with a story of less than eight megabytes keeps its addresses within
three bytes, whatever it runs: the program counter, where its calls return to,
and likewise in the snapshots that it can go back to. No frame gets more locals
than a saved game can hold, the outermost frame never takes a result, and the
globals stay where the story file has them.
-/

namespace StoryMachine

namespace CallStack

variable {calls after : CallStack} {frame : Frame}

/-- The frames are listed from the outermost. -/
theorem frames_eq (calls : CallStack) : calls.frames = calls.innermostFirst.reverse := by
  unfold frames innermostFirst
  rw [List.reverse_cons]

/-- Calls that are made from frames have these frames. -/
theorem frames_of_ofFrames? {frames : List Frame} (made : ofFrames? frames = some calls) :
    calls.frames = frames := by
  unfold ofFrames? at made
  cases reversed : frames.reverse with
  | nil =>
      rw [reversed] at made
      cases made
  | cons current callers =>
      rw [reversed] at made
      cases made
      rw [frames_eq, innermostFirst, ← reversed, List.reverse_reverse]

private theorem ofFrames?_of_ne_nil {frames : List Frame} (some_frame : frames ≠ []) :
    ∃ calls, ofFrames? frames = some calls := by
  unfold ofFrames?
  cases reversed : frames.reverse with
  | nil => exact absurd (List.reverse_eq_nil_iff.mp reversed) some_frame
  | cons current callers => exact ⟨_, rfl⟩

/-- The frame that is taken off is the current one. -/
theorem frame_of_pop (popped : calls.pop = .ok (frame, after)) : frame = calls.current := by
  unfold pop at popped
  cases callers : calls.callers with
  | nil =>
      rw [callers] at popped
      cases popped
  | cons caller rest =>
      rw [callers] at popped
      cases popped
      rfl

/-- The order of the frames does not matter for which they are. -/
theorem mem_frames : frame ∈ calls.frames ↔ frame ∈ calls.innermostFirst := by
  rw [frames_eq, List.mem_reverse]

end CallStack

/-! ## Frames stay nested -/

namespace CallStack

variable {calls after : CallStack} {frame other : Frame}

/-- Another current frame leaves the other frames. -/
theorem mem_frames_revised (member : other ∈ { calls with current := frame }.frames) :
    other = frame ∨ other ∈ calls.frames := by
  rcases List.mem_cons.mp (mem_frames.mp member) with rfl | member
  · exact .inl rfl
  · exact .inr (mem_frames.mpr (List.mem_cons_of_mem _ member))

/-- The frames that are left are the outer ones. -/
theorem frames_of_left (left : after.LeftFrom calls) : after.frames <+: calls.frames := by
  rw [frames_eq, frames_eq, List.reverse_prefix]
  exact left

/-- A frame that is entered is the last. -/
theorem frames_of_push (entered : calls.push frame = .ok after) :
    after.frames = calls.frames ++ [frame] := by
  unfold push at entered
  split at entered
  · cases entered
  · cases entered
    unfold frames
    rw [List.reverse_cons]

end CallStack

namespace Frame

variable {calls after : CallStack} {frame : Frame}

/-- The outermost frame takes no result. -/
def Rooted (frames : List Frame) : Prop :=
  ∃ first, frames.head? = some first ∧ first.storeTo = none

namespace Rooted

/-- Frames stay rooted when the current one is revised. -/
theorem revise (rooted : Rooted calls.frames) (revises : calls.current.Revises frame) :
    Rooted { calls with current := frame }.frames := by
  obtain ⟨current, callers⟩ := calls
  obtain ⟨first, head, stored⟩ := rooted
  unfold CallStack.frames at head ⊢
  dsimp only at revises head ⊢
  cases reversed : callers.reverse with
  | nil =>
      rw [reversed] at head
      cases head
      refine ⟨frame, rfl, ?_⟩
      rw [revises.linkage]
      exact stored
  | cons outermost rest =>
      rw [reversed] at head
      exact ⟨first, head, stored⟩

/-- Frames stay rooted when routines are left. -/
theorem left (rooted : Rooted calls.frames) (left : after.LeftFrom calls) :
    Rooted after.frames := by
  obtain ⟨first, head, stored⟩ := rooted
  obtain ⟨rest, whole⟩ := CallStack.frames_of_left left
  rw [← whole, List.head?_append] at head
  refine ⟨first, ?_, stored⟩
  cases listed : after.frames with
  | nil => exact absurd listed (List.append_ne_nil_of_right_ne_nil _ (List.cons_ne_nil _ _))
  | cons outermost others =>
      rw [listed] at head
      exact head

/-- Frames stay rooted when another is entered. -/
theorem push (rooted : Rooted calls.frames) (entered : calls.push frame = .ok after) :
    Rooted after.frames := by
  obtain ⟨first, head, stored⟩ := rooted
  rw [CallStack.frames_of_push entered]
  exact ⟨first, by rw [List.head?_append, head, Option.some_or], stored⟩

/-- Frames with an outermost one are those of calls. -/
theorem exists_calls {frames : List Frame} (rooted : Rooted frames) :
    ∃ calls, CallStack.ofFrames? frames = some calls ∧ calls.frames = frames := by
  obtain ⟨first, head, -⟩ := rooted
  have some_frame : frames ≠ [] := by
    intro empty
    rw [empty] at head
    cases head
  obtain ⟨calls, made⟩ := CallStack.ofFrames?_of_ne_nil some_frame
  exact ⟨calls, made, CallStack.frames_of_ofFrames? made⟩

end Rooted

private theorem Compact.revise (compact : frame.Compact) {revised : Frame}
    (revises : frame.Revises revised) : revised.Compact := by
  refine ⟨?_, ?_⟩
  · rw [revises.linkage]
    exact compact.returnTo
  · rw [revises.locals_length]
    exact compact.locals

namespace Nested

private theorem rooted {frames : List Frame} (nested : Nested frames) : Rooted frames :=
  nested.outermost

/-- Nested frames are those of calls. -/
theorem exists_calls {frames : List Frame} (nested : Nested frames) :
    ∃ calls, CallStack.ofFrames? frames = some calls ∧ calls.frames = frames :=
  nested.rooted.exists_calls

private theorem current (nested : Nested calls.frames) : calls.current.Compact :=
  nested.compact _ (CallStack.mem_frames.mpr List.mem_cons_self)

private theorem revise (nested : Nested calls.frames) (revises : calls.current.Revises frame) :
    Nested { calls with current := frame }.frames := by
  refine ⟨fun other member => ?_, nested.rooted.revise revises⟩
  rcases CallStack.mem_frames_revised member with rfl | member
  · exact nested.current.revise revises
  · exact nested.compact other member

private theorem left (nested : Nested calls.frames) (left : after.LeftFrom calls) :
    Nested after.frames :=
  ⟨fun frame member => nested.compact frame ((CallStack.frames_of_left left).subset member),
    nested.rooted.left left⟩

private theorem push (nested : Nested calls.frames) (compact : frame.Compact)
    (entered : calls.push frame = .ok after) : Nested after.frames := by
  refine ⟨fun other member => ?_, nested.rooted.push entered⟩
  rw [CallStack.frames_of_push entered] at member
  rcases List.mem_append.mp member with member | member
  · exact nested.compact other member
  · cases List.mem_singleton.mp member
    exact compact

end Nested

private theorem length_initialValues {image : Image} (count : Nat) :
    ∀ {address : Int} {values : List Int}, initialValues image address count = .ok values →
      values.length = count := by
  induction count with
  | zero =>
      intro address values read
      cases read
      rfl
  | succ count ih =>
      intro address values read
      rw [initialValues] at read
      obtain ⟨value, -, read⟩ := Result.bind_eq_ok read
      obtain ⟨rest, others, read⟩ := Result.bind_eq_ok read
      cases read
      rw [List.length_cons, ih others]

/-- The frame of a call stands in the image, returns to where the call says, and has no more locals
than a routine can have. -/
theorem ofRoutine_eq_ok {image : Image} {version : Version} {start returnTo : Int}
    {storeTo : Option Int} {arguments : List Int} {interrupt : Option Nat}
    (opened : ofRoutine image version start returnTo storeTo arguments interrupt = .ok frame) :
    frame.returnTo = returnTo ∧ frame.locals.length ≤ maxLocals ∧
      frame.codeStart ≤ image.size + 31 := by
  unfold ofRoutine at opened
  obtain ⟨count, byte, opened⟩ := Result.bind_eq_ok opened
  obtain ⟨inside, -⟩ := Image.byte_eq_ok byte
  unfold Image.Holds at inside
  dsimp only at opened
  split at opened
  · cases opened
  · rename_i few
    have filled (given initial : List Int) (length : initial.length = count)
        (short : given.length ≤ count) :
        (given ++ initial.drop given.length).length ≤ maxLocals := by
      rw [List.length_append, List.length_drop, length]
      omega
    have short : ((arguments.take count).map fun value => (Word.ofInt value : Int)).length ≤
        count := by
      rw [List.length_map]
      exact List.length_take_le _ _
    unfold maxLocals at few
    split at opened
    · obtain ⟨initial, values, opened⟩ := Result.bind_eq_ok opened
      cases opened
      refine ⟨rfl, filled _ _ (length_initialValues count values) short, ?_⟩
      dsimp only
      omega
    · obtain ⟨initial, values, opened⟩ := Result.bind_eq_ok opened
      cases values
      cases opened
      refine ⟨rfl, filled _ _ List.length_replicate short, ?_⟩
      dsimp only
      omega

end Frame

/-! ## The invariant -/

namespace Machine

variable {kind : MoveKind} {machine after : Machine} {data : Array UInt8}

/-- An address of three bytes. -/
def Near (address : Int) : Prop :=
  address < 0x1000000

/-- The game of the machine, and every snapshot of it, can be saved, and the globals are those of
the story file. -/
structure Core.Savable (core : Core) (data : Array UInt8) : Prop where
  pc : Near core.pc
  frames : Frame.Nested core.work.calls.frames
  undo : ∀ game ∈ core.undo, Frame.Nested game.frames
  globals : core.work.globals = (Image.mk data).globalsAddress

/-- Telling a story about its surroundings leaves where its globals are. -/
theorem globalsAddress_announce (image : Image) (about : Surroundings) :
    (image.announce about).globalsAddress = image.globalsAddress := by
  have unowned (address : Nat) (field : address = 0x0c ∨ address = 0x0d) :
      (image.announce about).peek address = image.peek address := by
    apply Image.peek_eq_of_peekFlag
    intro bit
    apply Image.peekFlag_announce
    simp only [Header.Owned, List.mem_cons, List.not_mem_nil, or_false]
    omega
  unfold Image.globalsAddress Image.peekWord
  rw [unowned 0x0c (.inl rfl), unowned 0x0d (.inr rfl)]

/-- Keeping the flags leaves where the globals are. -/
theorem globalsAddress_keepFlags (image : Image) (earlier : Nat) :
    (image.keepFlags earlier).globalsAddress = image.globalsAddress := by
  unfold Image.globalsAddress Image.peekWord
  rw [Image.keepFlags_eq, Image.peek_poke_of_ne (by decide), Image.peek_poke_of_ne (by decide),
    Image.peek_poke_of_ne (by decide), Image.peek_poke_of_ne (by decide)]

private theorem near_peekWord (image : Image) (address : Nat) : Near (image.peekWord address) := by
  have fits := image.peekWord_lt address
  unfold Near
  omega

private theorem Core.Savable.withSnapshot (savable : machine.core.Savable data) {game : SavedGame}
    (nested : Frame.Nested game.frames) : (machine.withSnapshot game).core.Savable data := by
  rw [core_withSnapshot]
  refine ⟨savable.pc, ?_, savable.undo, savable.globals⟩
  dsimp only
  obtain ⟨calls, made, listed⟩ := nested.exists_calls
  rw [made, Option.getD_some, listed]
  exact nested

private theorem Core.Savable.begun (undo : ∀ game ∈ machine.undo, Frame.Nested game.frames)
    (globals : machine.image.globalsAddress = (Image.mk data).globalsAddress) :
    machine.begun.core.Savable data := by
  rw [core_begun]
  refine ⟨near_peekWord _ _, ?_, undo, ?_⟩
  · dsimp only
    refine ⟨?_, {}, rfl, rfl⟩
    intro frame member
    cases List.mem_singleton.mp member
    exact ⟨by decide, by decide⟩
  · dsimp only
    rw [globalsAddress_announce, globals]

private theorem Core.Savable.move (small : data.size < 0x800000) (protects : machine.core.Protects data)
    (ledger : machine.core.Ledger Near) (savable : machine.core.Savable data)
    (move : Move Near kind machine after) : after.core.Savable data := by
  have ⟨pc, frames, _, globals⟩ := savable
  have undo : ∀ game ∈ machine.undo, Frame.Nested game.frames := savable.undo
  cases move with
  | aside apart =>
      rw [apart.core]
      exact savable
  | revise revises => exact ⟨pc, frames.revise revises, undo, globals⟩
  | leave left => exact ⟨pc, frames.left left, undo, globals⟩
  | goBack popped =>
      refine ⟨?_, frames.left (CallStack.leftFrom_pop popped), undo, globals⟩
      rw [CallStack.frame_of_pop popped]
      exact frames.current.returnTo
  | @call _ frame calls start returnTo storeTo arguments interrupt opened returns target few
      entered =>
      obtain ⟨back, locals, inside⟩ := Frame.ofRoutine_eq_ok opened
      have size : machine.image.size = data.size := protects.memory.size
      have code : Near frame.codeStart := by
        unfold Near
        omega
      refine ⟨code, frames.push ⟨?_, locals⟩ entered, undo, globals⟩
      rw [back]
      rcases returns with near | here
      · exact near
      · rw [here]
        exact pc
  | goTo near => exact ⟨near, frames, undo, globals⟩
  | @suspend _ token request found =>
      obtain ⟨instruction, asked, fits⟩ := ledger.found found
      have here : Near ((request.instruction.map Instruction.address).getD machine.pc) := by
        rw [asked]
        exact fits.address
      exact ⟨here, frames, undo, globals⟩
  | @finish _ request fits =>
      obtain ⟨instruction, asked, fits⟩ := fits
      have next : Near ((request.instruction.map Instruction.nextAddress).getD machine.pc) := by
        rw [asked]
        exact fits.nextAddress
      exact ⟨next, frames, undo, globals⟩
  | keepUndo near =>
      refine ⟨pc, frames, ?_, globals⟩
      intro game member
      rcases List.mem_cons.mp (List.mem_of_mem_take member) with rfl | member
      · exact frames
      · exact undo game member
  | @dropUndo _ game rest newest =>
      refine ⟨pc, frames, ?_, globals⟩
      intro older member
      exact undo older (newest ▸ List.mem_cons_of_mem game member)
  | @undo _ game rest newest size =>
      have older : { machine with undo := rest }.core.Savable data := by
        refine ⟨pc, frames, ?_, globals⟩
        intro older member
        exact undo older (newest ▸ List.mem_cons_of_mem game member)
      exact older.withSnapshot (undo game (newest ▸ List.mem_cons_self))
  | restore decoded size => exact savable.withSnapshot (SaveFile.decode_eq_ok decoded).1.nested
  | restart loaded =>
      have file : machine.file.data = data := protects.file
      rw [file] at loaded
      obtain ⟨-, fresh, -⟩ := Story.load_eq_ok loaded
      rw [core_restarted]
      refine Core.Savable.begun undo ?_
      refine (globalsAddress_keepFlags _ _).trans ?_
      rw [fresh]
  | _ => exact ⟨pc, frames, undo, globals⟩

/-- What a run keeps so that its game can be saved and restored. -/
structure Sound (data : Array UInt8) (machine : Machine) : Prop where
  protects : machine.core.Protects data
  ledger : machine.core.Ledger Near
  savable : machine.core.Savable data

/-- That a machine is sound, so that its game can be saved, survives every move. -/
theorem closed_sound (small : data.size < 0x800000) : Closed Near (Sound data) where
  move := fun _ holds move =>
    ⟨holds.protects.move move, holds.ledger.move move,
      holds.savable.move small holds.protects holds.ledger move⟩
  near := by
    intro machine address holds near
    have size : machine.image.size = data.size := holds.protects.memory.size
    unfold Near
    omega
  ledger := fun holds found => holds.ledger.found found

/-- A machine that has just been started is sound. -/
theorem sound_of_reset {fresh started : Machine} (unused : fresh.requests = #[])
    (accepted : reset fresh = .ok () started) : Sound fresh.file.data started := by
  refine ⟨protects_of_reset accepted, ledger_of_reset accepted unused, ?_⟩
  obtain ⟨story, memory, loaded, rfl⟩ := reset_eq_ok accepted
  obtain ⟨-, image, -⟩ := Story.load_eq_ok loaded
  unfold opened
  refine Core.Savable.begun ?_ ?_
  · intro game member
    cases member
  · exact congrArg Image.globalsAddress image

end Machine

end StoryMachine
