import StoryMachine.Proofs.Images
import StoryMachine.Proofs.Runs

/-!
# Memory protection

Whatever a story does, and whatever is restored into it, the memory image keeps
its size, and from the start of static memory on it keeps the bytes of the story
file.
-/

namespace StoryMachine

namespace Image

/-- A change of the header: the size and everything after the header stay. -/
structure HeaderOnly (change : Image → Image) : Prop where
  size : ∀ image, (change image).size = image.size
  beyond : ∀ image address, Header.size ≤ address → (change image).peek address = image.peek address

private theorem headerOnly_announce (about : Surroundings) : HeaderOnly (·.announce about) where
  size := fun image => image.size_announce about
  beyond := fun image _ beyond => image.peek_announce_of_size_le about beyond

private theorem headerOnly_keepFlags (earlier : Nat) : HeaderOnly (·.keepFlags earlier) where
  size := fun image => image.size_keepFlags earlier
  beyond := fun image _ beyond => image.peek_keepFlags_of_size_le beyond earlier

private theorem headerOnly_setTranscriptOn (on : Bool) : HeaderOnly (·.setTranscriptOn on) where
  size := fun image => image.size_setTranscriptOn on
  beyond := fun image _ beyond => image.peek_setTranscriptOn_of_size_le beyond on

end Image

namespace GameMemory

/-- Memory that has the bytes of the story file except in dynamic memory, which has the extent that
the file gives it. -/
structure Guards (memory : GameMemory) (data : Array UInt8) : Prop where
  header : Header.size ≤ (Image.mk data).staticMemoryAddress
  inside : (Image.mk data).staticMemoryAddress ≤ data.size
  dynamicEnd : memory.dynamicEnd = (Image.mk data).staticMemoryAddress
  size : memory.size = data.size
  above : ∀ address, (Image.mk data).staticMemoryAddress ≤ address →
    memory.peek address = (Image.mk data).peek address

namespace Guards

variable {memory : GameMemory} {data : Array UInt8}

/-- Dynamic memory lies inside the image. -/
theorem dynamicEnd_le_size (guards : memory.Guards data) : memory.dynamicEnd ≤ memory.size := by
  rw [guards.dynamicEnd, guards.size]
  exact Int.ofNat_le.mpr guards.inside

private theorem overImage (guards : memory.Guards data) {change : Image → Image}
    (only : Image.HeaderOnly change) : (memory.overImage change).Guards data where
  header := guards.header
  inside := guards.inside
  dynamicEnd := guards.dynamicEnd
  size := (only.size memory.toImage).trans guards.size
  above := by
    intro address static
    have beyond := only.beyond memory.toImage address (guards.header.trans static)
    exact beyond.trans (guards.above address static)

private theorem withByte (guards : memory.Guards data) {address : Nat} {byte : UInt8}
    (dynamic : (address : Int) < memory.dynamicEnd) :
    (memory.withByte address byte).Guards data where
  header := guards.header
  inside := guards.inside
  dynamicEnd := guards.dynamicEnd
  size := (memory.size_withByte address byte).trans guards.size
  above := by
    intro other static
    have apart : address ≠ other := by
      have extent := guards.dynamicEnd
      omega
    have kept : (memory.withByte address byte).peek other = memory.peek other :=
      Image.peek_eq_of_getElem? (Array.getElem?_setIfInBounds_ne apart)
    exact kept.trans (guards.above other static)

/-- All of dynamic memory is replaced. -/
theorem withDynamic (guards : memory.Guards data) (dynamic : Array UInt8)
    (length : (dynamic.size : Int) = memory.dynamicEnd) :
    (memory.withDynamic dynamic).Guards data := by
  have extent : dynamic.size = (Image.mk data).staticMemoryAddress := by
    have extent := guards.dynamicEnd
    omega
  have enough : dynamic.size ≤ memory.bytes.size := by
    have size := guards.size
    have inside := guards.inside
    unfold Image.size at size
    omega
  refine ⟨guards.header, guards.inside, guards.dynamicEnd, ?_, ?_⟩
  · have size := guards.size
    unfold GameMemory.withDynamic
    unfold Image.size at size ⊢
    rw [Array.size_append, Array.size_extract]
    omega
  · intro address static
    refine Eq.trans (Image.peek_eq_of_getElem? ?_) (guards.above address static)
    unfold GameMemory.withDynamic
    rw [Array.getElem?_append_right (by omega), Array.getElem?_extract]
    split
    · congr 1
      omega
    · rw [Array.getElem?_eq_none (by omega)]

end Guards

end GameMemory

namespace Story

/-- A loaded story is that of the file, and its memory has the bytes of the file. -/
theorem load_eq_ok {data : Array UInt8} {story : Story} {memory : GameMemory}
    (loaded : load data = .ok (story, memory)) :
    story.data = data ∧ memory.toImage = ⟨data⟩ ∧ memory.Guards data := by
  unfold load at loaded
  obtain ⟨image, headed, loaded⟩ := Result.bind_eq_ok loaded
  have same : image = ⟨data⟩ := by
    unfold Image.withHeader at headed
    split at headed
    · cases headed
    · cases headed
      rfl
  subst same
  obtain ⟨version, -, loaded⟩ := Result.bind_eq_ok loaded
  dsimp only at loaded
  split at loaded
  · cases loaded
  · rename_i valid
    obtain ⟨table, -, loaded⟩ := Result.bind_eq_ok loaded
    obtain ⟨codec, -, loaded⟩ := Result.bind_eq_ok loaded
    obtain ⟨dictionary, -, loaded⟩ := Result.bind_eq_ok loaded
    cases loaded
    refine ⟨rfl, rfl, by omega, by omega, rfl, rfl, ?_⟩
    intro address _
    rfl

end Story

namespace Machine

variable {reach : Int → Prop} {kind : MoveKind} {machine after : Machine} {data : Array UInt8}

/-- Every request in the ledger has a property. -/
def Core.EveryRequest (P : InputRequest → Prop) (core : Core) : Prop :=
  ∀ (index : Nat) (request : InputRequest), core.requests[index]? = some request → P request

namespace Core.EveryRequest

variable {P : InputRequest → Prop}

/-- What every request has, one that is found has. -/
theorem found (every : machine.core.EveryRequest P) {token : Nat} {request : InputRequest}
    (found : machine.request? token = some request) : P request := by
  unfold request? at found
  split at found
  · cases found
  · exact every _ _ found

/-- A property that requests are entered with stays if it is not about what is typed for them. -/
theorem move {least : Nat} (every : machine.core.EveryRequest P)
    (typed : ∀ request initial typed, P request → P { request with initial, typed })
    (entered : ∀ request : InputRequest, request.Fits reach → 0 ≤ request.textBuffer →
      request.maxLength ≤ 255 → P request)
    (move : MoveFrom least reach kind machine after) : after.core.EveryRequest P := by
  intro index request found
  cases move with
  | aside apart =>
      rw [apart.core] at found
      exact every index request found
  | request fits token buffer short =>
      replace found := Array.getElem?_push.symm.trans found
      split at found
      · cases found
        exact entered request fits buffer short
      · exact every index request found
  | retype same =>
      replace found := Array.getElem?_modify.symm.trans found
      split at found
      · obtain ⟨before, listed, rfl⟩ := Option.map_eq_some_iff.mp found
        rw [same before]
        exact typed before _ _ (every index before listed)
      · exact every index request found
  | undo =>
      rw [core_withSnapshot] at found
      exact every index request found
  | restore =>
      rw [core_withSnapshot] at found
      exact every index request found
  | restart =>
      rw [core_restarted, core_begun] at found
      exact every index request found
  | _ => exact every index request found

/-- Without requests, every one has any property. -/
theorem of_empty (unused : machine.requests = #[]) : machine.core.EveryRequest P := by
  intro index request found
  have empty : machine.requests[index]? = some request := found
  rw [unused] at empty
  cases empty

/-- A machine that has entered no request enters none when it is started. -/
theorem of_reset {fresh started : Machine} (accepted : reset fresh = .ok () started)
    (unused : fresh.requests = #[]) : started.core.EveryRequest P := by
  obtain ⟨story, memory, -, rfl⟩ := reset_eq_ok accepted
  have same : (fresh.opened story memory).requests = fresh.requests := by
    unfold opened
    exact congrArg Core.requests (core_begun _)
  exact of_empty (same.trans unused)

end Core.EveryRequest

/-- Every request in the ledger fits. -/
def Core.Ledger (reach : Int → Prop) (core : Core) : Prop :=
  ∀ (index : Nat) (request : InputRequest), core.requests[index]? = some request →
    request.Fits reach

/-- A request that is found fits. -/
theorem Core.Ledger.found (ledger : machine.core.Ledger reach) {token : Nat}
    {request : InputRequest} (found : machine.request? token = some request) :
    request.Fits reach :=
  Core.EveryRequest.found (P := InputRequest.Fits reach) ledger found

/-- The requests of a machine fit after a move if they did before. -/
theorem Core.Ledger.move (ledger : machine.core.Ledger reach)
    (move : Move reach kind machine after) : after.core.Ledger reach :=
  Core.EveryRequest.move (P := InputRequest.Fits reach) ledger (fun _ _ _ fits => fits)
    (fun _ fits _ _ => fits) move

/-- The machine runs the story of a file, in memory that guards it. -/
structure Core.Protects (core : Core) (data : Array UInt8) : Prop where
  file : core.file.data = data
  story : core.story.data = data
  memory : core.work.memory.Guards data

/-- A saved game with dynamic memory of the right size leaves what is protected. -/
theorem Core.Protects.withSnapshot (protects : machine.core.Protects data) {game : SavedGame}
    (size : (game.dynamic.length : Int) = machine.work.memory.dynamicEnd) :
    (machine.withSnapshot game).core.Protects data := by
  rw [core_withSnapshot]
  refine ⟨protects.file, protects.story, ?_⟩
  dsimp only
  have replaced := protects.memory.withDynamic game.dynamic.toArray size
  have kept := replaced.overImage (Image.headerOnly_keepFlags machine.image.flags2)
  exact kept.overImage (Image.headerOnly_announce machine.surroundings)

private theorem Core.Protects.begun (file : machine.file.data = data) (story : machine.story.data = data)
    (memory : machine.work.memory.Guards data) : machine.begun.core.Protects data := by
  rw [core_begun]
  refine ⟨file, story, ?_⟩
  dsimp only
  exact memory.overImage (Image.headerOnly_announce machine.surroundings)

/-- What is protected stays through every move. -/
theorem Core.Protects.move (protects : machine.core.Protects data)
    (move : Move reach kind machine after) : after.core.Protects data := by
  obtain ⟨file, story, memory⟩ := protects
  cases move with
  | aside apart =>
      rw [apart.core]
      exact ⟨file, story, memory⟩
  | write dynamic => exact ⟨file, story, memory.withByte dynamic⟩
  | transcript on =>
      exact ⟨file, story, memory.overImage (Image.headerOnly_setTranscriptOn on)⟩
  | undo newest size =>
      refine Core.Protects.withSnapshot ?_ size
      exact ⟨file, story, memory⟩
  | restore decoded size =>
      refine Core.Protects.withSnapshot ?_ size
      exact ⟨file, story, memory⟩
  | restart loaded =>
      have fromFile : machine.file.data = data := file
      rw [fromFile] at loaded
      obtain ⟨sameData, -, guards⟩ := Story.load_eq_ok loaded
      rw [core_restarted]
      refine Core.Protects.begun fromFile sameData ?_
      exact guards.overImage (Image.headerOnly_keepFlags machine.image.flags2)
  | _ => exact ⟨file, story, memory⟩

/-- No move changes the terms that the machine runs on. -/
theorem MoveFrom.terms (move : Move reach kind machine after) :
    after.terms = machine.terms := by
  cases move with
  | aside apart => exact apart.terms
  | undo => exact terms_withSnapshot _ _
  | restore => exact terms_withSnapshot _ _
  | restart => exact terms_restarted _ _ _
  | _ => rfl

/-- What is protected, and that requests fit, survives every move. -/
theorem closed_protects (data : Array UInt8) :
    Closed (fun _ => True)
      (fun machine => machine.core.Protects data ∧ machine.core.Ledger fun _ => True) where
  move := fun _ holds move => ⟨holds.1.move move, holds.2.move move⟩
  near := fun _ _ => trivial
  ledger := fun holds found => holds.2.found found

/-- The terms hold through every run. -/
theorem closed_terms {I : Machine → Prop} (closed : Closed reach I) (terms : Terms) :
    Closed reach (fun machine => I machine ∧ machine.terms = terms) where
  move := fun allowed holds move => ⟨closed.move allowed holds.1 move, move.terms.trans holds.2⟩
  near := fun holds => closed.near holds.1
  ledger := fun holds => closed.ledger holds.1

/-- A machine that has just been started protects the story of its file. -/
theorem protects_of_reset {fresh started : Machine} (accepted : reset fresh = .ok () started) :
    started.core.Protects fresh.file.data := by
  obtain ⟨story, memory, loaded, rfl⟩ := reset_eq_ok accepted
  obtain ⟨sameData, -, guards⟩ := Story.load_eq_ok loaded
  unfold opened
  exact Core.Protects.begun rfl sameData guards

/-- A machine that is started anew has no requests, and so they fit. -/
theorem ledger_of_reset {fresh started : Machine} (accepted : reset fresh = .ok () started)
    (unused : fresh.requests = #[]) : started.core.Ledger reach :=
  Core.EveryRequest.of_reset (P := InputRequest.Fits reach) accepted unused

/-- A start leaves the terms that the machine runs on. -/
theorem terms_of_reset {fresh start : Machine} (accepted : reset fresh = .ok () start) :
    start.terms = fresh.terms := by
  obtain ⟨story, memory, -, rfl⟩ := reset_eq_ok accepted
  unfold opened
  rw [terms_begun]
  unfold Machine.terms
  rfl

/-- A started machine protects the story of its file at every point of a run. -/
theorem protects_of_passes {fresh started : Machine} (unused : fresh.requests = #[])
    (accepted : reset fresh = .ok () started) (passes : Passes started machine) :
    machine.core.Protects fresh.file.data := by
  have start : started.core.Protects fresh.file.data ∧ started.core.Ledger fun _ => True :=
    ⟨protects_of_reset accepted, ledger_of_reset accepted unused⟩
  exact ((closed_protects fresh.file.data).passes start passes).1

/-- After every run of a started machine, the memory image has the size of the story file, and from
the static memory address of the file on it has the bytes of the file. -/
theorem static_memory_unchanged {fresh started : Machine} (unused : fresh.requests = #[])
    (accepted : reset fresh = .ok () started) (events : List Event) :
    (started.after events).image.size = fresh.file.data.size ∧
      ∀ address, (Image.mk fresh.file.data).staticMemoryAddress ≤ address →
        (started.after events).image.bytes[address]? = fresh.file.data[address]? := by
  have protects := protects_of_passes unused accepted (.between events)
  refine ⟨protects.memory.size, ?_⟩
  intro address static
  exact Image.getElem?_eq_of_peek protects.memory.size (protects.memory.above address static)

/-- A story of version three that saves, restores and quits. Its static memory starts at 80. -/
def sampleStory : Array UInt8 :=
  #[3, 0, 0, 1, 0, 80, 0, 80, 0, 92, 0, 64, 0, 64, 0, 80,
    0, 0, 50, 54, 48, 49, 48, 49, 0, 0, 0, 0, 0, 0, 0, 0,
    0, 0, 0, 0, 0, 0, 0, 0, 0, 0, 0, 0, 0, 0, 0, 0,
    0, 0, 0, 0, 0, 0, 0, 0, 0, 0, 0, 0, 0, 0, 0, 0,
    0, 0, 0, 0, 0, 0, 0, 0, 0, 0, 0, 0, 0, 0, 0, 0,
    0xb5, 0xc2, 0xb6, 0xc2, 0xba, 0, 0, 0, 0, 0, 0, 0, 0, 7, 0, 0]

/-- A machine with the sample story and a slot for saved games. -/
def sample : Machine :=
  { (default : Machine) with
    file := { data := sampleStory }
    storage := .slot .accepting none }

/-- The sample saves and restores, and its static memory stays. -/
theorem static_memory_unchanged_sample :
    sample.requests = #[] ∧ reset sample = .ok () (reset.finalState sample) ∧
      ((reset.finalState sample).after [.step, .step]).image.size = 96 ∧
      ∀ address, 80 ≤ address →
        ((reset.finalState sample).after [.step, .step]).image.bytes[address]? =
          sampleStory[address]? := by
  have accepted : reset sample = .ok () (reset.finalState sample) :=
    Action.eq_ok_finalState (by decide +kernel)
  have unchanged := static_memory_unchanged rfl accepted [.step, .step]
  exact ⟨rfl, accepted, unchanged⟩

end Machine

end StoryMachine
