import StoryMachine.Proofs.HeldSnapshots
import StoryMachine.Proofs.VersionByte

/-!
# Fixed versions

What is resolved from a story when it is loaded has one version for good, whatever happens in a
run. The version that is read from memory again and again, to decode instructions, to lay out text
buffers and to resume a saved game, is the same one only as long as the story leaves the first byte
of its memory alone. All that can overwrite this byte is listed here.
-/

namespace StoryMachine

open StoryMachine.Action (Ensures Keeps EndsIn)

/-- With the values of its operands, an instruction overwrites the first byte of memory. -/
inductive Instruction.Overwrites (instruction : Instruction) (values : List Int)
    (machine : Machine) : Prop where
  /-- It writes to the byte. -/
  | writes (aims : instruction.target? values = some 0)
  /-- It prints to a memory stream, or closes one, whose table does not lie behind the byte. -/
  | streams {stream : MemoryStream}
      (routes : instruction.opcode.operation.prints = true ∨
        instruction.opcode.operation = .outputStream)
      (used : machine.memoryStreams.head? = some stream) (low : stream.table ≤ 0)
  /-- It restores a saved game with another byte. -/
  | restores {game : SavedGame} {swapped : Machine}
      (restores : instruction.opcode.operation = .restore)
      (offers : machine.Offers game swapped)
      (other : game.dynamic[0]? ≠ machine.image.bytes[0]?)

namespace Machine

variable {story : Story} {fresh : GameMemory} {machine : Machine}
  {instruction : Instruction} {values : List Int}

/-- What a restore has found is on offer. -/
theorem offers_of_found {game : SavedGame} {fetched : Machine}
    (found : orLogged "Restore" none fetch machine = .ok (some game) fetched) :
    ∃ swapped, machine.Offers game swapped := by
  have fetches : fetch machine = .ok (some game) fetched := by
    cases outcome : fetch machine with
    | ok game? after =>
        rw [orLogged_of_ok outcome] at found
        exact found
    | error failure after =>
        obtain ⟨log, logged⟩ := orLogged_of_error outcome (failsWith_fetch _ _ _ outcome)
        rw [logged] at found
        cases found
  unfold fetch at fetches
  obtain ⟨data?, handed, retrieved, loads⟩ := Action.bind_eq_ok fetches
  cases data? with
  | none => cases loads
  | some data =>
      obtain ⟨loaded, after, loads, answered⟩ := Action.bind_eq_ok loads
      cases answered
      obtain ⟨log, outcome⟩ := loadSave_eq data handed
      rw [loads, accept_congr (core_of_retrieve retrieved)] at outcome
      cases accepted : machine.accept data with
      | error failure =>
          rw [accepted] at outcome
          cases outcome
      | ok other =>
          rw [accepted] at outcome
          cases outcome
          exact ⟨_, data, handed, retrieved, accepted, rfl⟩

/-! ## Memory streams -/

/-- The version is as in the file, and the memory stream in use writes behind its byte. -/
structure Aloof (story : Story) (machine : Machine) : Prop where
  versioned : Versioned story machine
  tables : ∀ stream, machine.memoryStreams.head? = some stream → 0 < stream.table

section Loaded

variable (loaded : Story.load story.data = .ok (story, fresh))
  (globals : (Image.mk story.data).globalsAddress ≠ 0)

include loaded globals

private theorem changes_aloof (machine : Machine) :
    Workspace.SurvivesChangesFrom 1 fun work => Aloof story { machine with work } := by
  have changes := (survivesFrom_versioned loaded globals).changes machine
  refine ⟨?_, ?_, fun work held => changes.globals work held.versioned⟩
  · intro work address byte above dynamic inside held
    exact ⟨changes.write work address byte above dynamic inside held.versioned, held.tables⟩
  · intro work frame revises held
    exact ⟨changes.revise work frame revises held.versioned, held.tables⟩

private theorem keeps_writeToStream (code : Int) : Keeps (Aloof story) (writeToStream code) := by
  have aside := (survivesFrom_versioned loaded globals).survivesAside
  unfold writeToStream
  refine .get fun machine aloof => ?_
  split
  · exact .pure trivial
  · rename_i stream streams used
    have above : 0 < stream.table := aloof.tables stream (by rw [used]; rfl)
    have written : Keeps (Aloof story)
        (onMemory (GameMemory.write (stream.table + 2 + stream.count) code)) :=
      ensures_onWork (changes_aloof loaded globals) fun changes =>
        Workspace.ensures_onMemory changes fun edit => GameMemory.keeps_write edit _ _ (by omega)
    refine .seq written fun _ => .modify fun machine held => ?_
    refine ⟨aside _ _ held.versioned ⟨rfl, rfl⟩, ?_⟩
    rintro _ ⟨⟩
    exact above

private theorem survivesPrinting_aloof : SurvivesPrinting (Aloof story) := by
  have aside := (survivesFrom_versioned loaded globals).survivesAside
  refine ⟨fun change => .modify ?_, fun text => .modify ?_, keeps_writeToStream loaded globals⟩
  · exact fun machine aloof => ⟨aside _ _ aloof.versioned ⟨rfl, rfl⟩, aloof.tables⟩
  · intro machine aloof
    exact ⟨aside _ _ aloof.versioned (.transcript machine fun _ => rfl), aloof.tables⟩

/-! ## Instructions -/

/-- An order to the output streams keeps the version if the memory stream in use writes behind its
byte. -/
theorem endsIn_perform_outputStream (routes : instruction.opcode.operation = .outputStream)
    (aloof : Aloof story machine) (values : List Int) :
    EndsIn (Versioned story) (Next.Fits instruction) (perform instruction values) machine := by
  have survives := survivesFrom_versioned loaded globals
  unfold perform
  refine EndsIn.get ?_
  simp only [routes]
  split
  · exact (keeps_selectOutput survives _ _).seq (fun _ => .pure trivial) _ aloof.versioned
  split
  · refine EndsIn.bind (endsIn_deselectOutput survives aloof.versioned ?_ _)
      (fun _ held => held) fun _ done held _ => .of_ok rfl held trivial
    exact fun stream used => .inr (by have above := aloof.tables stream used; omega)
  · exact .of_ok rfl aloof.versioned trivial

/-- A restore keeps the version if the saved game has it. -/
theorem endsIn_perform_restore (restores : instruction.opcode.operation = .restore)
    (versioned : Versioned story machine)
    (same : ∀ game swapped, machine.Offers game swapped →
      game.dynamic[0]? = machine.image.bytes[0]?) (values : List Int) :
    EndsIn (Versioned story) (Next.Fits instruction) (perform instruction values) machine := by
  have survives := survivesFrom_versioned loaded globals
  have noted : Keeps (Versioned story) (note .warning "zmachine.instructions"
      "restore of a memory table is not supported") :=
    keeps_note survives.survivesAside _ _ _
  have restored : EndsIn (Versioned story) (fun _ => True) restore machine := by
    refine endsIn_restore_of_below survives trivial trivial trivial versioned ?_
    intro fetched game found address below
    obtain rfl : address = 0 := by omega
    obtain ⟨swapped, offers⟩ := offers_of_found found
    exact same game swapped offers
  unfold perform
  refine EndsIn.get ?_
  simp only [restores]
  split
  · exact noted.seq (fun _ => .pure trivial) _ versioned
  · refine restored.bind (fun _ held => held) fun answer done held _ => ?_
    split
    · exact .of_ok rfl held trivial
    split
    · exact .of_ok rfl held trivial
    · exact .of_ok rfl held trivial

/-- An instruction that does not overwrite the byte of the version keeps the version. -/
theorem endsIn_perform (fits : instruction.Fits fun _ => True) (few : values.length ≤ 8)
    (signed : instruction.opcode.operation = .jump → values.getD 0 0 ≤ 0x7fff)
    (versioned : Versioned story machine) (regular : ¬ instruction.Overwrites values machine) :
    EndsIn (Versioned story) (Next.Fits instruction) (perform instruction values) machine := by
  have survives := survivesFrom_versioned loaded globals
  have aloof (routes : instruction.opcode.operation.prints = true ∨
      instruction.opcode.operation = .outputStream) : Aloof story machine :=
    ⟨versioned, fun stream used => Int.not_le.mp fun low => regular (.streams routes used low)⟩
  by_cases prints : instruction.opcode.operation.prints = true
  · have survivesPrinting := survivesPrinting_aloof loaded globals
    have printed := ensures_perform_of_prints survivesPrinting prints values machine
      (aloof (.inl prints))
    exact printed.mono (fun _ held => held.versioned) fun _ asked => asked
  by_cases routes : instruction.opcode.operation = .outputStream
  · exact endsIn_perform_outputStream loaded globals routes (aloof (.inr routes)) values
  by_cases restores : instruction.opcode.operation = .restore
  · refine endsIn_perform_restore loaded globals restores versioned ?_ values
    intro game swapped offers
    by_contra other
    exact regular (.restores restores offers other)
  have spares : instruction.Spares values :=
    ⟨fun aims => regular (.writes aims), Bool.eq_false_of_not_eq_true prints, routes, restores⟩
  have performs := ensures_perform_of_spares survives fits few signed (fun _ _ => trivial)
    (.inr spares)
  exact performs machine versioned

private theorem endsIn_executeInstruction_versioned (fits : instruction.Fits fun _ => True)
    (few : instruction.operands.length ≤ 8) (listed : instruction.opcode ∈ Opcode.all)
    (versioned : Versioned story machine)
    (regular : ∀ values read, operandValues instruction machine = .ok values read →
      ¬ instruction.Overwrites values read) :
    EndsIn (Versioned story) (fun _ => True) (executeInstruction instruction) machine := by
  have survives := survivesFrom_versioned loaded globals
  have reads := ensures_operandValues survives few listed
  cases given : operandValues instruction machine with
  | error failure read =>
      have kept := reads.finalState versioned
      rw [Action.finalState_of_error given] at kept
      exact .afterError given kept
  | ok values read =>
      obtain ⟨held, short, signed⟩ := reads.of_ok versioned given
      have performed := endsIn_perform loaded globals fits short signed held
        (regular values read given)
      refine .after given (performed.bind (fun _ kept => kept) fun next done kept asked => ?_)
      exact keeps_settle survives fits asked (fun _ _ => trivial) done kept

end Loaded

/-! ## Runs -/

/-- A step that executes an instruction which overwrites the first byte of memory. -/
inductive Event.Overwrites (machine : Machine) : Event → Prop where
  | step {instruction : Instruction} {point read : Machine} {values : List Int}
      (executes : Executes machine instruction point)
      (given : operandValues instruction point = .ok values read)
      (overwrites : instruction.Overwrites values read) : Overwrites machine .step

/-- A run with a step that overwrites the first byte of memory. -/
def Overwrites : Machine → List Event → Prop
  | _, [] => False
  | machine, event :: rest => event.Overwrites machine ∨ Overwrites (event.apply machine) rest

section Loaded

variable (loaded : Story.load story.data = .ok (story, fresh))
  (globals : (Image.mk story.data).globalsAddress ≠ 0)

include loaded globals

/-- An event that does not overwrite the byte of the version keeps the version. -/
theorem Versioned.event (versioned : Versioned story machine) {event : Event}
    (regular : ¬ event.Overwrites machine) : Versioned story (event.apply machine) := by
  have survives := survivesFrom_versioned loaded globals
  cases event with
  | step =>
      refine EndsIn.finalState (survives.endsIn_step trivial versioned ?_)
      intro instruction point executes held
      have within := Instruction.within_of_read executes.instructionAt
      have listed := Instruction.opcode_mem_all_of_read executes.instructionAt
      refine endsIn_executeInstruction_versioned loaded globals (within.fits fun _ _ => trivial)
        within.operands listed held ?_
      exact fun values read given overwrites => regular (.step executes given overwrites)
  | answer token entry terminator timedOut =>
      have answers := keeps_completeInput survives token entry terminator timedOut fun _ => trivial
      exact answers.finalState versioned
  | quit => exact (keeps_quit survives).finalState versioned
  | outside storage disk input sound screen =>
      exact survives.survivesAside _ _ versioned ⟨rfl, rfl⟩

/-- So does a run. -/
theorem Versioned.after (versioned : Versioned story machine) {events : List Event}
    (regular : ¬ machine.Overwrites events) : Versioned story (machine.after events) := by
  induction events generalizing machine with
  | nil => exact versioned
  | cons event rest ih =>
      obtain ⟨first, later⟩ := not_or.mp regular
      exact ih (versioned.event loaded globals first) later

end Loaded

/-- In every run of a started machine, the story is of the version that its file gives: its
routines and packed addresses, its texts, its dictionary and its objects. The version that is read
from memory is the same one, unless the globals of the story start at the first byte of memory or a
step of the run overwrites this byte. -/
theorem version_fixed {fresh started : Machine} (unused : fresh.requests = #[])
    (accepted : reset fresh = .ok () started) (events : List Event) :
    (started.after events).story.OfVersion (Image.mk fresh.file.data).version ∧
      ((started.after events).image.version = (started.after events).story.version.number ∨
        (Image.mk fresh.file.data).globalsAddress = 0 ∨ started.Overwrites events) := by
  obtain ⟨story, memory, loaded, file, versioned⟩ := versioned_of_reset unused accepted
  have attentive := (closed_attentive loaded).after versioned.attentive events
  have same : (started.after events).story = story := attentive.attends.story
  have fixed := (Story.ofVersion_of_load loaded).1
  rw [same, ← file]
  refine ⟨fixed, or_iff_not_imp_left.mpr fun changed => ?_⟩
  by_contra regular
  obtain ⟨globals, spared⟩ := not_or.mp regular
  have kept := versioned.after loaded globals spared
  exact changed (kept.version.trans fixed.number.symm)

/-- The sample story, which stores a five in a byte of its memory. -/
def pokingStory (place : UInt8) : Array UInt8 :=
  (sampleStory.toList.take 80 ++ [0xe2, 0x57, 0, place, 5, 0xba] ++
    sampleStory.toList.drop 86).toArray

/-- The sample machine with that story, started. -/
def poking (place : UInt8) : Machine :=
  reset.finalState { sample with file.data := pokingStory place }

private theorem reset_poking :
    reset { sample with file.data := pokingStory 64 } = .ok () (poking 64) :=
  Action.eq_ok_finalState (by decide +kernel)

/-- A byte behind the header is changed, and the version stays. -/
theorem version_fixed_poking :
    ((poking 64).after [.step]).image.peek 64 = 5 ∧
      ((poking 64).after [.step]).story.version.number = 3 ∧
      ((poking 64).after [.step]).image.version = 3 := by
  obtain ⟨fixed, kept⟩ := version_fixed rfl reset_poking [.step]
  have number : ((poking 64).after [.step]).story.version.number = 3 := fixed.number
  have regular : ¬ (poking 64).Overwrites [.step] := by
    rintro (overwrites | none)
    · cases overwrites with
      | @step instruction point read values executes given overwrites =>
          have pokes : (poking 64).executing?.all fun found =>
              found.1.opcode.operation = .storeByte ∧
                (operandValues found.1).answer found.2 = .ok [0, 64, 5] := by
            decide +kernel
          rw [executing?_of_executes executes] at pokes
          obtain ⟨operation, answer⟩ := of_decide_eq_true pokes
          unfold Action.answer at answer
          rw [given] at answer
          cases answer
          rcases overwrites with aims | ⟨prints | routes, -, -⟩ | ⟨restores, -, -⟩
          · unfold Instruction.target? at aims
            rw [operation] at aims
            exact absurd aims (by decide)
          · rw [operation] at prints
            cases prints
          · rw [operation] at routes
            cases routes
          · rw [operation] at restores
            cases restores
    · exact none
  rw [number] at kept
  exact ⟨by decide +kernel, number, (kept.resolve_right (not_or.mpr ⟨by decide +kernel, regular⟩))⟩

/-- A story can change the version that is read from memory. -/
theorem not_forall_version_fixed :
    ¬ ∀ (fresh started : Machine) (events : List Event), fresh.requests = #[] →
        reset fresh = .ok () started →
        (started.after events).image.version = (started.after events).story.version.number := by
  intro fixed
  have accepted : reset { sample with file.data := pokingStory 0 } = .ok () (poking 0) :=
    Action.eq_ok_finalState (by decide +kernel)
  have same := fixed _ _ [.step] rfl accepted
  exact absurd same (by decide +kernel)

end Machine

end StoryMachine
