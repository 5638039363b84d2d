import StoryMachine.Proofs.PackedText
import StoryMachine.Proofs.Restarts
import StoryMachine.Proofs.Undoing

/-!
# The byte of the version

The version of a story is resolved when the story is loaded, and it stands in the first byte of
dynamic memory. The fields of the header that the machine owns lie behind that byte, and so do the
objects of a loaded story and its text buffers. A move that leaves the byte alone therefore keeps
what is read there the same as what was resolved.
-/

namespace StoryMachine

open StoryMachine.Action (Ensures Keeps EndsIn)

namespace Image

private theorem version_announce (image : Image) (about : Surroundings) :
    (image.announce about).version = image.version := by
  apply peek_eq_of_peekFlag
  intro bit
  apply peekFlag_announce
  simp only [Header.Owned, List.mem_cons, List.not_mem_nil, or_false]
  omega

private theorem version_keepFlags (image : Image) (earlier : Nat) :
    (image.keepFlags earlier).version = image.version :=
  peek_keepFlags_of_ne (by decide) (by decide)

private theorem version_setTranscriptOn (image : Image) (on : Bool) :
    (image.setTranscriptOn on).version = image.version :=
  peek_poke_of_ne (by decide) _

end Image

namespace GameMemory

/-- Memory that was replaced has the version of what took its place. -/
theorem version_withDynamic {memory : GameMemory} {dynamic : Array UInt8} {image : Image}
    (nonempty : 0 < dynamic.size) (first : dynamic[0]? = image.bytes[0]?) :
    (memory.withDynamic dynamic).version = image.version := by
  apply Image.peek_eq_of_getElem?
  unfold withDynamic
  rw [Array.getElem?_append_left nonempty, first]

/-- A copy of dynamic memory has the first byte of memory. -/
theorem getElem?_dynamicBytes_zero {memory : GameMemory} {data : Array UInt8}
    (guards : memory.Guards data) : memory.dynamicBytes[0]? = memory.bytes[0]? := by
  have header := guards.header
  have inside := guards.inside
  have size : memory.bytes.size = data.size := guards.size
  unfold Header.size at header
  rw [dynamicBytes_eq guards, Array.getElem?_extract, if_pos (by omega)]

end GameMemory

private theorem Version.number_of_ofNumber {number : Nat} {routinesOffset stringsOffset : Int}
    {version : Version} (made : ofNumber number routinesOffset stringsOffset = .ok version) :
    version.number = number := by
  unfold ofNumber at made
  split at made
  · cases made
    exact Int.toNat_natCast number
  · cases made

private theorem Image.number_of_versionInfo {image : Image} {version : Version}
    (made : image.versionInfo = .ok version) : version.number = image.version := by
  unfold versionInfo at made
  split at made
  · exact Version.number_of_ofNumber made
  · exact Version.number_of_ofNumber made

namespace Story

/-- All parts of the story have the version in the first byte of its file. -/
structure OfVersion (story : Story) (version : Nat) : Prop where
  number : story.version.number = version
  codec : story.codec.version = version
  dictionary : story.dictionary.codec = story.codec
  objects : story.objects.version = story.version

/-- A loaded story is of the version in its file, and the records of its objects lie behind the
first byte. -/
theorem ofVersion_of_load {data : Array UInt8} {story : Story} {memory : GameMemory}
    (loaded : load data = .ok (story, memory)) :
    story.OfVersion (Image.mk data).version ∧ 1 ≤ story.objects.recordsStart := by
  have dictionary := (codec_of_load loaded).2
  unfold load at loaded
  obtain ⟨image, headed, loaded⟩ := Result.bind_eq_ok loaded
  obtain rfl : image = ⟨data⟩ := by
    unfold Image.withHeader at headed
    split at headed <;> cases headed
    rfl
  obtain ⟨version, made, loaded⟩ := Result.bind_eq_ok loaded
  dsimp only at loaded
  split at loaded
  · cases loaded
  obtain ⟨table, -, loaded⟩ := Result.bind_eq_ok loaded
  obtain ⟨codec, found, loaded⟩ := Result.bind_eq_ok loaded
  obtain ⟨words, -, loaded⟩ := Result.bind_eq_ok loaded
  cases loaded
  refine ⟨⟨Image.number_of_versionInfo made, Codec.version_of_load found, dictionary, rfl⟩, ?_⟩
  unfold ObjectTable.recordsStart Version.propertyDefaultCount
  dsimp only
  split <;> omega

end Story

namespace Machine

variable {story : Story} {fresh : GameMemory} {machine after : Machine} {kind : MoveKind}

/-- What is read in the first byte of memory is the byte that the file has there; so it is in the
snapshots to go back to, and text buffers do not start in front of memory. -/
structure Versioned (story : Story) (machine : Machine) : Prop where
  attentive : Attentive story machine
  globals : machine.work.globals = (Image.mk story.data).globalsAddress
  version : machine.image.version = (Image.mk story.data).version
  undo : ∀ game ∈ machine.undo, game.dynamic[0]? = story.data[0]?
  buffers : ∀ (index : Nat) (request : InputRequest), machine.requests[index]? = some request →
    0 ≤ request.textBuffer

namespace Versioned

private theorem getElem?_zero (versioned : Versioned story machine) :
    machine.image.bytes[0]? = story.data[0]? := by
  have size : machine.image.size = (Image.mk story.data).size :=
    versioned.attentive.protects.memory.size
  exact Image.getElem?_eq_of_peek size versioned.version

private theorem version_withSnapshot (guards : machine.work.memory.Guards story.data) {game : SavedGame}
    (size : (game.dynamic.length : Int) = machine.work.memory.dynamicEnd)
    (first : game.dynamic[0]? = story.data[0]?) :
    (machine.withSnapshot game).image.version = (Image.mk story.data).version := by
  have header := guards.header
  have dynamicEnd : machine.work.memory.dynamicEnd =
      (Image.mk story.data).staticMemoryAddress := guards.dynamicEnd
  unfold Header.size at header
  rw [image_withSnapshot, Image.version_announce, Image.version_keepFlags]
  have nonempty : 0 < game.dynamic.toArray.size := by
    rw [List.size_toArray]
    omega
  have same : game.dynamic.toArray[0]? = (Image.mk story.data).bytes[0]? := by
    rw [List.getElem?_toArray, first]
  exact GameMemory.version_withDynamic nonempty same

private theorem version_restarted {again : Story} {memory : GameMemory}
    (loaded : Story.load story.data = .ok (again, memory)) :
    (machine.restarted again memory).image.version = (Image.mk story.data).version := by
  obtain ⟨-, image, -⟩ := Story.load_eq_ok loaded
  have restarted : (machine.restarted again memory).image =
      (memory.toImage.keepFlags machine.image.flags2).announce
        { machine with screen := machine.screen.reset }.surroundings := by
    refine (congrArg (fun core => core.work.memory.toImage)
      (core_restarted machine again memory)).trans ?_
    rw [core_begun]
    rfl
  rw [restarted, Image.version_announce, Image.version_keepFlags, image]

private theorem version_move {reach : Int → Prop} (versioned : Versioned story machine)
    (move : MoveFrom 1 reach kind machine after) :
    after.image.version = (Image.mk story.data).version := by
  have protects := versioned.attentive.protects
  cases move with
  | aside apart =>
      have same : after.image = machine.image :=
        congrArg (fun core => core.work.memory.toImage) apart.core
      rw [same]
      exact versioned.version
  | @write _ address byte _ _ above =>
      have apart : 0 ≠ address := by omega
      exact (GameMemory.peek_withByte_of_ne apart byte).trans versioned.version
  | transcript on =>
      exact (Image.version_setTranscriptOn machine.image on).trans versioned.version
  | @undo _ game rest newest size =>
      have first := versioned.undo game (newest ▸ List.mem_cons_self)
      have guards : ({ machine with undo := rest } : Machine).work.memory.Guards story.data :=
        protects.memory
      exact version_withSnapshot guards size first
  | restore decoded size below =>
      have first := (below 0 Nat.one_pos).trans versioned.getElem?_zero
      exact version_withSnapshot protects.memory size first
  | restart loaded =>
      have file : machine.file.data = story.data := protects.file
      rw [file] at loaded
      exact version_restarted loaded
  | _ => exact versioned.version

private theorem undo_move {reach : Int → Prop} (versioned : Versioned story machine)
    (move : MoveFrom 1 reach kind machine after) :
    ∀ game ∈ after.undo, game.dynamic[0]? = story.data[0]? := by
  have undo := versioned.undo
  cases move with
  | aside apart =>
      have same : after.undo = machine.undo := congrArg Core.undo apart.core
      rwa [same]
  | @keepUndo _ address near =>
      intro game held
      rcases List.mem_cons.mp (List.mem_of_mem_take held) with rfl | older
      · have guards := versioned.attentive.protects.memory
        have copied := GameMemory.getElem?_dynamicBytes_zero guards
        refine (Array.getElem?_toList).trans (copied.trans ?_)
        exact versioned.getElem?_zero
      · exact undo game older
  | dropUndo newest =>
      exact fun game held => undo game (newest ▸ List.mem_cons_of_mem _ held)
  | @undo _ other rest newest size =>
      have kept : ({ machine with undo := rest }.withSnapshot other).undo = rest :=
        congrArg Core.undo (core_withSnapshot _ other)
      rw [kept]
      exact fun game held => undo game (newest ▸ List.mem_cons_of_mem _ held)
  | @restore _ other data decoded size =>
      have kept : (machine.withSnapshot other).undo = machine.undo :=
        congrArg Core.undo (core_withSnapshot machine other)
      rwa [kept]
  | @restart _ again memory loaded =>
      have kept : (machine.restarted again memory).undo = machine.undo := by
        refine (congrArg Core.undo (core_restarted machine again memory)).trans ?_
        rw [core_begun]
        rfl
      rwa [kept]
  | _ => exact undo

private theorem buffers_move {reach : Int → Prop} (versioned : Versioned story machine)
    (move : MoveFrom 1 reach kind machine after) :
    after.core.EveryRequest (0 ≤ ·.textBuffer) :=
  Core.EveryRequest.move versioned.buffers (fun _ _ _ buffer => buffer)
    (fun _ _ buffer _ => buffer) move

private theorem request (versioned : Versioned story machine) {token : Nat} {request : InputRequest}
    (found : machine.request? token = some request) : 0 ≤ request.textBuffer :=
  Core.EveryRequest.found (P := (0 ≤ ·.textBuffer)) versioned.buffers found

end Versioned

/-- The version survives what is done behind its byte, if that is where the globals are. -/
theorem survivesFrom_versioned (loaded : Story.load story.data = .ok (story, fresh))
    (globals : (Image.mk story.data).globalsAddress ≠ 0) :
    SurvivesFrom 1 (fun _ => True) (fun _ => True) (Versioned story) where
  move := by
    intro kind machine after _ versioned move
    exact {
      attentive := (closed_attentive loaded).move (.inr trivial) versioned.attentive move.weaken
      globals := globals_move versioned.attentive.protects move.weaken versioned.globals
      version := versioned.version_move move
      undo := versioned.undo_move move
      buffers := versioned.buffers_move move }
  near := fun _ _ => trivial
  ledger := fun versioned found => versioned.attentive.ledger.found found
  globals := by
    intro machine versioned
    have place := versioned.globals
    omega
  objects := by
    intro machine versioned
    have same : machine.story = story := versioned.attentive.attends.story
    rw [same]
    exact .inr (Story.ofVersion_of_load loaded).2
  buffers := fun versioned found => .inr (versioned.request found)

/-- A machine that has just been started reads the version of its file. -/
theorem versioned_of_reset {unstarted started : Machine} (unused : unstarted.requests = #[])
    (accepted : reset unstarted = .ok () started) :
    ∃ story memory, Story.load story.data = .ok (story, memory) ∧
      story.data = unstarted.file.data ∧ Versioned story started := by
  have rooted := rooted_of_reset unused accepted
  obtain ⟨story, memory, loaded, attentive⟩ := attentive_of_reset unused accepted
  have file : story.data = unstarted.file.data :=
    attentive.protects.file.symm.trans rooted.protects.file
  refine ⟨story, memory, loaded, file, ?_⟩
  obtain ⟨again, fresh, read, rfl⟩ := reset_eq_ok accepted
  obtain ⟨-, image, -⟩ := Story.load_eq_ok read
  have empty : (unstarted.opened again fresh).undo = [] := by
    unfold opened
    exact congrArg Core.undo (core_begun _)
  exact {
    attentive
    globals := file ▸ rooted.globals
    version := by
      rw [file, ← image]
      unfold opened
      refine (congrArg (fun core => core.work.memory.version) (core_begun _)).trans ?_
      exact Image.version_announce _ _
    undo := by
      rw [empty]
      exact fun game held => absurd held List.not_mem_nil
    buffers := Core.EveryRequest.of_reset accepted unused }

end Machine

end StoryMachine
