import StoryMachine.Machine.Run
import StoryMachine.Proofs.Decoding
import StoryMachine.Proofs.Variables

/-!
# Moves of a machine

Everything that a machine does is put together from the moves listed here. A move
says where an address comes from: the program counter goes to an address that the
instruction in hand may reach, to one near the image, or back to where a call
came from. The invariants of a run are those that survive every move.
-/

namespace StoryMachine

open StoryMachine.Action (Ensures Keeps)

/-- The addresses that an instruction sends the machine to are among those that can be reached, and
its branch and its store are as a decoded instruction has them. -/
structure Instruction.Fits (reach : Int → Prop) (instruction : Instruction) : Prop where
  address : reach instruction.address
  result : reach instruction.resultAddress
  next : ∀ offset : Int, offset ≤ 0x7fff → reach (instruction.nextAddress + offset - 2)
  branch : ∀ branch, instruction.branch = some branch → branch.offset ≤ 0x7fff
  target : ∀ target, instruction.storeTo = some target → 0 ≤ target ∧ target < 256

/-- A request was entered by an instruction that fits. -/
def InputRequest.Fits (reach : Int → Prop) (request : InputRequest) : Prop :=
  ∃ instruction, request.instruction = some instruction ∧ instruction.Fits reach

/-- A request that fits was entered by an instruction that fits. -/
theorem InputRequest.Fits.instruction {reach : Int → Prop} {request : InputRequest}
    (fits : request.Fits reach) (found : Instruction) (asked : request.instruction = some found) :
    found.Fits reach := by
  obtain ⟨instruction, same, fits⟩ := fits
  rw [asked] at same
  cases same
  exact fits

/-- The address behind an instruction that fits can be reached. -/
theorem Instruction.Fits.nextAddress {reach : Int → Prop} {instruction : Instruction}
    (fits : instruction.Fits reach) : reach instruction.nextAddress := by
  have near := fits.next 2 (by omega)
  rwa [Int.add_sub_cancel] at near

/-- Flushing does not change what a sink refuses. -/
theorem Sink.refusal_of_flush {sink flushed : Sink} (written : sink.flush = .ok flushed) :
    flushed.refusal = sink.refusal := by
  unfold Sink.flush at written
  split at written
  · cases written
    rfl
  · split at written
    · cases written
    · rename_i quiet
      cases written
      exact quiet.symm ▸ rfl

namespace Machine

/-- The part of a machine that moves are about: all but what it shows, types, logs and counts. -/
structure Core where
  file : StoryFile
  ready : Bool
  story : Story
  work : Workspace
  pc : Int
  phase : Phase
  pending : Option Nat
  requests : Array InputRequest
  undo : List SavedGame

/-- The part of a machine that moves are about. -/
def core (machine : Machine) : Core where
  file := machine.file
  ready := machine.ready
  story := machine.story
  work := machine.work
  pc := machine.pc
  phase := machine.phase
  pending := machine.pending
  requests := machine.requests
  undo := machine.undo

/-- The machine with a snapshot in place of its game. -/
@[irreducible] def withSnapshot (machine : Machine) (game : SavedGame) : Machine :=
  { machine with
    work.memory :=
      ((machine.work.memory.withDynamic game.dynamic.toArray).overImage
        (·.keepFlags machine.image.flags2)).overImage (·.announce machine.surroundings)
    work.calls := (CallStack.ofFrames? game.frames).getD machine.work.calls }

/-- The machine at the first instruction of the story in its memory. -/
@[irreducible] def begun (machine : Machine) : Machine :=
  let memory := machine.work.memory.overImage (·.announce machine.surroundings)
  { machine with
    work := { memory, calls := {}, globals := memory.globalsAddress }
    pc := memory.mainRoutine
    phase := .running
    pending := none
    lastInstruction := none
    fault := none
    memoryStreams := []
    screen := { machine.screen with active := true }
    script := machine.script.map fun sink => { sink with active := false }
    input := machine.input.select 0 }

/-- The machine after a restart that loaded the story into fresh memory. -/
@[irreducible] def restarted (machine : Machine) (story : Story) (memory : GameMemory) : Machine :=
  { machine with
    ready := true
    story
    work.memory := memory.overImage (·.keepFlags machine.image.flags2)
    screen := machine.screen.reset }.begun

section Replacements

variable (machine : Machine) (game : SavedGame) (story : Story) (memory : GameMemory)

/-- Of the core, a saved game replaces dynamic memory and the calls in progress. -/
theorem core_withSnapshot :
    (machine.withSnapshot game).core =
      { machine.core with
        work :=
          { memory := ((machine.work.memory.withDynamic game.dynamic.toArray).overImage
              (·.keepFlags machine.image.flags2)).overImage (·.announce machine.surroundings)
            calls := (CallStack.ofFrames? game.frames).getD machine.work.calls
            globals := machine.work.globals } } := by
  unfold withSnapshot
  rfl

/-- Of the core, a start of the story makes new the calls in progress, the globals, the program
counter and what is waited for. -/
theorem core_begun :
    machine.begun.core =
      { machine.core with
        work :=
          { memory := machine.work.memory.overImage (·.announce machine.surroundings)
            calls := {}
            globals := (machine.image.announce machine.surroundings).globalsAddress }
        pc := (machine.image.announce machine.surroundings).mainRoutine
        phase := .running
        pending := none } := by
  unfold begun
  rfl

/-- Of the core, a restart makes a start in fresh memory. -/
theorem core_restarted :
    (machine.restarted story memory).core =
      ({ machine with
        ready := true
        story
        work.memory := memory.overImage (·.keepFlags machine.image.flags2)
        screen := machine.screen.reset }.begun).core := by
  unfold restarted
  rfl

end Replacements

/-- What is settled before a start: why the streams to files refuse, and how faults are treated. -/
structure Terms where
  transcript : Option Breach
  script : Option Breach
  policy : Policy

/-- The terms that a machine runs on. -/
def terms (machine : Machine) : Terms where
  transcript := machine.transcript.bind Sink.refusal
  script := machine.script.bind Sink.refusal
  policy := machine.classifier.policy

/-- A saved game leaves the terms that the machine runs on. -/
theorem terms_withSnapshot (machine : Machine) (game : SavedGame) :
    (machine.withSnapshot game).terms = machine.terms := by
  unfold withSnapshot terms
  rfl

/-- A start of the story leaves the terms that the machine runs on. -/
theorem terms_begun (machine : Machine) : machine.begun.terms = machine.terms := by
  unfold begun terms
  dsimp only
  cases machine.script <;> rfl

/-- A restart leaves the terms that the machine runs on. -/
theorem terms_restarted (machine : Machine) (story : Story) (memory : GameMemory) :
    (machine.restarted story memory).terms = machine.terms := by
  unfold restarted
  rw [terms_begun]
  unfold terms
  rfl

/-- Only what the machine shows, types, logs or counts differs. -/
structure Aside (before after : Machine) : Prop where
  core : after.core = before.core
  terms : after.terms = before.terms

/-- To change nothing is beside the game. -/
theorem Aside.refl (machine : Machine) : Aside machine machine :=
  ⟨rfl, rfl⟩

/-- Changes beside the game are so one after the other. -/
theorem Aside.trans {first second third : Machine} (left : Aside first second)
    (right : Aside second third) : Aside first third :=
  ⟨right.core.trans left.core, right.terms.trans left.terms⟩

/-- A stream that does not learn to refuse is of no account. -/
theorem Aside.transcript (machine : Machine) {change : Sink → Sink}
    (same : ∀ sink, (change sink).refusal = sink.refusal) :
    Aside machine { machine with transcript := machine.transcript.map change } := by
  refine ⟨rfl, ?_⟩
  unfold Machine.terms
  cases machine.transcript <;> simp [same]

/-- A change of the script that keeps its refusal is beside the game. -/
theorem Aside.script (machine : Machine) {change : Sink → Sink}
    (same : ∀ sink, (change sink).refusal = sink.refusal) :
    Aside machine { machine with script := machine.script.map change } := by
  refine ⟨rfl, ?_⟩
  unfold Machine.terms
  cases machine.script <;> simp [same]

/-- What a move does to the calls in progress. -/
inductive MoveKind where
  /-- It stays in the current call. -/
  | inner
  /-- It enters a call. -/
  | call
  /-- It leaves calls. -/
  | leave
  /-- It puts another game in place of this one, or gives up to do so. -/
  | replace
  /-- It has the machine wait for a request, or turn to one. -/
  | wait

/-- What the actions of a machine are put together from, given the addresses that the instruction in
hand may reach. Nothing is written below an address, but an undo or a restart may replace what is
there. -/
inductive MoveFrom (least : Nat) (reach : Int → Prop) : MoveKind → Machine → Machine → Prop where
  /-- Only what the machine shows, types, logs or counts changes. -/
  | aside {machine after : Machine} (apart : Aside machine after) :
      MoveFrom least reach .inner machine after
  /-- A byte of dynamic memory is written. -/
  | write {machine : Machine} {address : Nat} {byte : UInt8}
      (dynamic : (address : Int) < machine.work.memory.dynamicEnd)
      (inside : address < machine.image.size) (above : least ≤ address) :
      MoveFrom least reach .inner machine
        { machine with work.memory := machine.work.memory.withByte address byte }
  /-- The transcript is turned on or off in the header. -/
  | transcript {machine : Machine} (on : Bool) :
      MoveFrom least reach .inner machine
        { machine with
          work.memory := machine.work.memory.overImage (·.setTranscriptOn on) }
  /-- Locals or the stack of the current frame change. -/
  | revise {machine : Machine} {frame : Frame}
      (revises : machine.work.calls.current.Revises frame) :
      MoveFrom least reach .inner machine { machine with work.calls.current := frame }
  /-- Calls are left. -/
  | leave {machine : Machine} {calls : CallStack} (left : calls.LeftFrom machine.work.calls) :
      MoveFrom least reach .leave machine { machine with work.calls := calls }
  /-- A call returns to where it came from. -/
  | goBack {machine : Machine} {frame : Frame} {calls : CallStack}
      (popped : machine.work.calls.pop = .ok (frame, calls)) :
      MoveFrom least reach .leave machine { machine with work.calls := calls, pc := frame.returnTo }
  /-- A routine is called. -/
  | call {machine : Machine} {frame : Frame} {calls : CallStack} {start returnTo : Int}
      {storeTo : Option Int} {arguments : List Int} {interrupt : Option Nat}
      (opened : Frame.ofRoutine machine.image machine.story.version start returnTo storeTo
        arguments interrupt = .ok frame)
      (returns : reach returnTo ∨ returnTo = machine.pc)
      (target : ∀ target, storeTo = some target → 0 ≤ target ∧ target < 256)
      (few : arguments.length ≤ 7)
      (entered : machine.work.calls.push frame = .ok calls) :
      MoveFrom least reach .call machine { machine with work.calls := calls, pc := frame.codeStart }
  /-- The program counter moves. -/
  | goTo {machine : Machine} {address : Int} (near : reach address) :
      MoveFrom least reach .inner machine { machine with pc := address }
  /-- A request is entered in the ledger. -/
  | request {machine : Machine} {request : InputRequest} (fits : request.Fits reach)
      (token : request.token = machine.requests.size + 1) (buffer : 0 ≤ request.textBuffer)
      (short : request.maxLength ≤ 255) :
      MoveFrom least reach .inner machine { machine with requests := machine.requests.push request }
  /-- What the player has typed for a request changes. -/
  | retype {machine : Machine} {token : Nat} {change : InputRequest → InputRequest}
      (same : ∀ request, change request =
        { request with initial := (change request).initial, typed := (change request).typed }) :
      MoveFrom least reach .inner machine
        { machine with requests := machine.requests.modify (token - 1) change }
  /-- The machine waits for a request, on its instruction. -/
  | suspend {machine : Machine} {token : Nat} {request : InputRequest}
      (found : machine.request? token = some request) :
      MoveFrom least reach .wait machine
        { machine with
          pending := some token
          pc := (request.instruction.map Instruction.address).getD machine.pc
          phase := if request.kind = .line then .waitingForLine else .waitingForKey }
  /-- The instruction of a request is finished. -/
  | finish {machine : Machine} {request : InputRequest} (fits : request.Fits reach) :
      MoveFrom least reach .inner machine
        { machine with
          pending := none
          phase := .running
          pc := (request.instruction.map Instruction.nextAddress).getD machine.pc }
  /-- The time of the pending request ran out. -/
  | interrupt {machine : Machine} :
      MoveFrom least reach .inner machine { machine with phase := .running }
  /-- A read is given up after a fault. -/
  | abandon {machine : Machine} :
      MoveFrom least reach .inner machine { machine with pending := none, phase := .running }
  /-- The request of an interrupt routine is pending again. -/
  | recall {machine : Machine} {token : Nat} {request : InputRequest}
      (found : machine.request? token = some request) :
      MoveFrom least reach .wait machine { machine with pending := some token }
  /-- The machine halts. -/
  | halt {machine : Machine} :
      MoveFrom least reach .inner machine { machine with phase := .halted }
  /-- A snapshot is kept. -/
  | keepUndo {machine : Machine} {address : Int} (near : reach address) :
      MoveFrom least reach .inner machine
        { machine with undo := (machine.snapshot address :: machine.undo).take maxUndo }
  /-- A snapshot that does not fit is dropped. -/
  | dropUndo {machine : Machine} {game : SavedGame} {rest : List SavedGame}
      (newest : machine.undo = game :: rest) :
      MoveFrom least reach .replace machine { machine with undo := rest }
  /-- The newest snapshot replaces the game. -/
  | undo {machine : Machine} {game : SavedGame} {rest : List SavedGame}
      (newest : machine.undo = game :: rest)
      (size : (game.dynamic.length : Int) = machine.work.memory.dynamicEnd) :
      MoveFrom least reach .replace machine ({ machine with undo := rest }.withSnapshot game)
  /-- A saved game replaces the game. -/
  | restore {machine : Machine} {game : SavedGame} {data : List UInt8}
      (decoded : SaveFile.decode data machine.freshDynamic = .ok game)
      (size : (game.dynamic.length : Int) = machine.work.memory.dynamicEnd)
      (below : ∀ address < least, game.dynamic[address]? = machine.image.bytes[address]?) :
      MoveFrom least reach .replace machine (machine.withSnapshot game)
  /-- The story starts again. -/
  | restart {machine : Machine} {story : Story} {memory : GameMemory}
      (loaded : Story.load machine.file.data = .ok (story, memory)) :
      MoveFrom least reach .replace machine (machine.restarted story memory)

/-- Moves that may write all of dynamic memory. -/
abbrev Move : (Int → Prop) → MoveKind → Machine → Machine → Prop :=
  MoveFrom 0

/-- A move that leaves the first bytes of memory alone is a move. -/
theorem MoveFrom.weaken {least : Nat} {reach : Int → Prop} {kind : MoveKind}
    {machine after : Machine} (move : MoveFrom least reach kind machine after) :
    Move reach kind machine after := by
  cases move with
  | aside apart => exact .aside apart
  | write dynamic inside => exact .write dynamic inside (Nat.zero_le _)
  | transcript on => exact .transcript on
  | revise revises => exact .revise revises
  | leave left => exact .leave left
  | goBack popped => exact .goBack popped
  | call opened returns target few entered => exact .call opened returns target few entered
  | goTo near => exact .goTo near
  | request fits token buffer short => exact .request fits token buffer short
  | retype same => exact .retype same
  | suspend found => exact .suspend found
  | finish fits => exact .finish fits
  | interrupt => exact .interrupt
  | abandon => exact .abandon
  | «recall» found => exact .recall found
  | halt => exact .halt
  | keepUndo near => exact .keepUndo near
  | dropUndo newest => exact .dropUndo newest
  | undo newest size => exact .undo newest size
  | restore decoded size =>
      exact .restore decoded size fun _ none => absurd none (Nat.not_lt_zero _)
  | restart loaded => exact .restart loaded

/-- An invariant that survives the moves within a call and those of the allowed kinds, and knows
which addresses are near the image and what stands in the ledger of requests. Where writes must stay
behind the first bytes of memory, it also knows that the tables of the story do. -/
structure SurvivesFrom (least : Nat) (reach : Int → Prop) (allowed : MoveKind → Prop)
    (I : Machine → Prop) : Prop where
  move : ∀ {kind : MoveKind} {machine after : Machine}, kind = .inner ∨ allowed kind →
    I machine → MoveFrom least reach kind machine after → I after
  near : ∀ {machine : Machine} {address : Int}, I machine →
    address ≤ machine.image.size + 0x7fff → reach address
  ledger : ∀ {machine : Machine} {token : Nat} {request : InputRequest}, I machine →
    machine.request? token = some request → request.Fits reach
  low : least ≤ 1 := by decide
  globals : ∀ {machine : Machine}, I machine → least = 0 ∨ least ≤ machine.work.globals := by
    exact fun _ => .inl rfl
  objects : ∀ {machine : Machine}, I machine →
    least = 0 ∨ least ≤ machine.story.objects.recordsStart := by
    exact fun _ => .inl rfl
  buffers : ∀ {machine : Machine} {token : Nat} {request : InputRequest}, I machine →
    machine.request? token = some request → least = 0 ∨ 0 ≤ request.textBuffer := by
    exact fun _ _ => .inl rfl

/-- An invariant that survives such moves wherever they write. -/
abbrev Survives : (Int → Prop) → (MoveKind → Prop) → (Machine → Prop) → Prop :=
  SurvivesFrom 0

/-- An invariant that survives every move. -/
abbrev Closed (reach : Int → Prop) (I : Machine → Prop) : Prop :=
  Survives reach (fun _ => True) I

namespace SurvivesFrom

variable {least : Nat} {reach : Int → Prop} {allowed : MoveKind → Prop} {I : Machine → Prop}
  {machine after : Machine}

/-- An invariant that survives moves survives the inner ones. -/
theorem inner (survives : SurvivesFrom least reach allowed I) (holds : I machine)
    (move : MoveFrom least reach .inner machine after) : I after :=
  survives.move (.inl rfl) holds move

/-- An invariant that survives moves survives those of an allowed kind. -/
theorem of_allowed {kind : MoveKind} (survives : SurvivesFrom least reach allowed I)
    (may : allowed kind) (holds : I machine) (move : MoveFrom least reach kind machine after) :
    I after :=
  survives.move (.inr may) holds move

/-- Wherever may be written, any saved game may replace the game. -/
theorem restored {game : SavedGame} {data : List UInt8} (survives : Survives reach allowed I)
    (replaces : allowed .replace) (holds : I machine)
    (decoded : SaveFile.decode data machine.freshDynamic = .ok game)
    (size : (game.dynamic.length : Int) = machine.work.memory.dynamicEnd) :
    I (machine.withSnapshot game) :=
  survives.of_allowed replaces holds
    (.restore decoded size fun _ none => absurd none (Nat.not_lt_zero _))

end SurvivesFrom

end Machine

end StoryMachine
