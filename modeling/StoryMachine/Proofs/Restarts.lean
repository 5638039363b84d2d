import StoryMachine.Proofs.Backgrounds
import StoryMachine.Proofs.Resuming

/-!
# Restarts

A restart forgets the game but for two bits of its header. Announcing the
surroundings to a story writes beside these bits, so it makes no difference
whether they are put back before or after; and what is announced does not change
in a game, because no step changes the screen and the devices that it is about.
-/

namespace StoryMachine

/-! ## Announcing beside the kept flags -/

namespace Image

variable {image other : Image} {earlier : Nat}

private theorem poke_comm {address place : Nat} (apart : address ≠ place) (value byte : Int) :
    (image.poke address value).poke place byte = (image.poke place byte).poke address value :=
  congrArg Image.mk (Array.setIfInBounds_comm _ _ apart)

/-- Images are the same where all their bits are. -/
theorem eq_of_peekFlag (size : image.size = other.size)
    (bits : ∀ address bit, image.peekFlag address bit = other.peekFlag address bit) :
    image = other := by
  refine congrArg Image.mk (Array.ext_getElem? fun address => ?_)
  exact getElem?_eq_of_peek size (peek_eq_of_peekFlag (bits address))

/-- A flag that has been changed is as it was said to be. -/
theorem peekFlag_pokeFlag_self {address bit : Nat} (inside : address < image.size)
    (small : bit < 8) (on : Bool) : (image.pokeFlag address bit on).peekFlag address bit = on := by
  have byte := image.peek_lt address
  unfold peekFlag pokeFlag
  rw [peek_poke_self inside, toNat_byte_ofInt (withBit_lt byte on)]
  exact testBit_withBit_self bit small _ byte on

/-- Keeping the flags leaves all but two bytes. -/
theorem peek_keepFlags_of_ne {address : Nat} (high : address ≠ 0x10) (low : address ≠ 0x11) :
    (image.keepFlags earlier).peek address = image.peek address := by
  rw [keepFlags_eq, peek_poke_of_ne low, peek_poke_of_ne high]

private theorem keepFlags_poke {address : Nat} (high : address ≠ 0x10) (low : address ≠ 0x11)
    (value : Int) :
    (image.keepFlags earlier).poke address value =
      (image.poke address value).keepFlags earlier := by
  rw [keepFlags_eq, keepFlags_eq, peek_poke_of_ne (Ne.symm high), peek_poke_of_ne (Ne.symm low),
    poke_comm (Ne.symm low), poke_comm (Ne.symm high)]

private theorem keepFlags_pokeFlag {address : Nat} (high : address ≠ 0x10) (low : address ≠ 0x11)
    (bit : Nat) (on : Bool) :
    (image.keepFlags earlier).pokeFlag address bit on =
      (image.pokeFlag address bit on).keepFlags earlier := by
  unfold pokeFlag
  rw [peek_keepFlags_of_ne high low, keepFlags_poke high low]

/-- The other flags of the byte are written beside those that are kept. -/
theorem keepFlags_pokeFlag_low (headed : Header.size ≤ image.size) {bit : Nat}
    (beside : 2 ≤ bit) (small : bit < 8) (on : Bool) :
    (image.keepFlags earlier).pokeFlag 0x11 bit on =
      (image.pokeFlag 0x11 bit on).keepFlags earlier := by
  apply eq_of_peekFlag
  · rw [size_pokeFlag, size_keepFlags, size_keepFlags, size_pokeFlag]
  intro place number
  have inside : 0x11 < image.size := by
    unfold Header.size at headed
    omega
  rw [peekFlag_keepFlags _ (by rw [size_pokeFlag]; exact headed)]
  by_cases here : place = 0x11 ∧ number = bit
  · obtain ⟨rfl, rfl⟩ := here
    rw [peekFlag_pokeFlag_self (by rw [size_keepFlags]; exact inside) small, if_neg (by omega),
      peekFlag_pokeFlag_self inside small]
  · rw [peekFlag_pokeFlag_of_ne (by omega), peekFlag_pokeFlag_of_ne (by omega),
      peekFlag_keepFlags _ headed]

private theorem keepFlags_announceEarly (about : Surroundings) :
    (image.keepFlags earlier).announceEarly about =
      (image.announceEarly about).keepFlags earlier := by
  unfold announceEarly
  rw [keepFlags_pokeFlag (by decide) (by decide), keepFlags_pokeFlag (by decide) (by decide),
    keepFlags_pokeFlag (by decide) (by decide)]

private theorem keepFlags_announceScreen (about : Surroundings) :
    (image.keepFlags earlier).announceScreen about =
      (image.announceScreen about).keepFlags earlier := by
  have version : (image.keepFlags earlier).version = image.version :=
    peek_keepFlags_of_ne (by decide) (by decide)
  unfold announceScreen
  dsimp only
  rw [version]
  simp only [keepFlags_pokeFlag, keepFlags_poke, ne_eq, Nat.reduceEqDiff, not_false_eq_true]

private theorem keepFlags_announceUnits (headed : Header.size ≤ image.size) (about : Surroundings) :
    (image.keepFlags earlier).announceUnits about =
      (image.announceUnits about).keepFlags earlier := by
  unfold announceUnits
  dsimp only
  simp only [pokeWord, keepFlags_poke, ne_eq, Nat.reduceAdd, Nat.reduceEqDiff, not_false_eq_true]
  split
  · exact keepFlags_pokeFlag_low (by simpa only [size_poke] using headed) (by decide) (by decide) _
  · rw [keepFlags_pokeFlag_low (by simpa only [size_poke] using headed) (by decide) (by decide),
      keepFlags_pokeFlag_low (by simpa only [size_pokeFlag, size_poke] using headed) (by decide)
        (by decide)]

private theorem keepFlags_announceInterpreter :
    (image.keepFlags earlier).announceInterpreter =
      image.announceInterpreter.keepFlags earlier := by
  unfold announceInterpreter
  simp only [keepFlags_poke, ne_eq, Nat.reduceEqDiff, not_false_eq_true]

/-- It makes no difference whether the flags are put back before the surroundings are announced or
after. -/
theorem keepFlags_announce (headed : Header.size ≤ image.size) (about : Surroundings) :
    (image.keepFlags earlier).announce about = (image.announce about).keepFlags earlier := by
  have version : (image.keepFlags earlier).version = image.version :=
    peek_keepFlags_of_ne (by decide) (by decide)
  have flags : (if image.version < 4 then (image.keepFlags earlier).announceEarly about
      else (image.keepFlags earlier).announceScreen about) =
        (if image.version < 4 then image.announceEarly about
          else image.announceScreen about).keepFlags earlier := by
    split
    · exact keepFlags_announceEarly about
    · exact keepFlags_announceScreen about
  have size : (if image.version < 4 then image.announceEarly about
      else image.announceScreen about).size = image.size := by
    split
    · simp only [announceEarly, size_pokeFlag]
    · simp only [announceScreen, size_poke, size_pokeFlag]
  unfold announce
  dsimp only
  rw [version, flags]
  split
  · rw [keepFlags_announceUnits (size ▸ headed), keepFlags_announceInterpreter]
  · rw [keepFlags_announceInterpreter]

/-- Only the flags themselves are kept. -/
theorem keepFlags_congr {later : Nat} (headed : Header.size ≤ image.size)
    (same : ∀ bit < 2, earlier.testBit bit = later.testBit bit) :
    image.keepFlags earlier = image.keepFlags later := by
  apply eq_of_peekFlag
  · rw [size_keepFlags, size_keepFlags]
  intro address bit
  rw [peekFlag_keepFlags _ headed, peekFlag_keepFlags _ headed]
  split
  · rename_i kept
    exact same bit kept.2
  · rfl

end Image

private theorem GameMemory.overImage_keepFlags_congr {memory : GameMemory} {earlier later : Nat}
    (headed : Header.size ≤ memory.size)
    (same : ∀ bit < 2, earlier.testBit bit = later.testBit bit) :
    memory.overImage (·.keepFlags earlier) = memory.overImage (·.keepFlags later) :=
  congrArg (fun image => { memory with toImage := image }) (Image.keepFlags_congr headed same)

private theorem Story.size_of_load {data : Array UInt8} {story : Story} {memory : GameMemory}
    (loaded : load data = .ok (story, memory)) : Header.size ≤ memory.size := by
  have guards := (load_eq_ok loaded).2.2
  exact (guards.header.trans guards.inside).trans (Nat.le_of_eq guards.size.symm)

/-! ## Decoded restarts -/

private theorem Opcode.restart_form :
    ∀ opcode ∈ Opcode.all, opcode.operation = .restart →
      opcode.group = .zeroOperands ∧ opcode.least = 0 := by
  decide

private theorem InstructionHead.kinds_of_zeroOperands {image : Image} {address version : Int}
    {head : InstructionHead} (decoded : read image address version = .ok head)
    (group : head.group = .zeroOperands) : head.kinds = [] := by
  have typed {form : InstructionForm} {others : OpcodeGroup} {number : Nat} {address : Int}
      (apart : others ≠ .zeroOperands) :
      withTypes image form others number address ≠ .ok head := by
    intro typed
    unfold withTypes at typed
    obtain ⟨bytes, -, typed⟩ := Result.bind_eq_ok typed
    cases typed
    exact apart group
  unfold read at decoded
  obtain ⟨first, -, decoded⟩ := Result.bind_eq_ok decoded
  dsimp only at decoded
  split at decoded
  · obtain ⟨number, -, decoded⟩ := Result.bind_eq_ok decoded
    exact absurd decoded (typed nofun)
  split at decoded
  · refine absurd decoded (typed ?_)
    split <;> nofun
  split at decoded
  · cases decoded
    dsimp only at group ⊢
    split at group
    · rename_i omitted
      exact if_pos omitted
    · cases group
  · cases decoded
    cases group

private theorem Instruction.operands_of_restart {codec : Codec} {tables : Option Image} {image : Image}
    {address version : Int} {instruction : Instruction}
    (decoded : read codec tables image address version = .ok instruction)
    (restarts : instruction.opcode.operation = .restart) : instruction.operands = [] := by
  obtain ⟨-, head, operandsEnd, branchAddress, parts⟩ := read_eq_ok decoded
  have fits := List.find?_some parts.opcode
  simp only [Opcode.isIn, Bool.and_eq_true, decide_eq_true_eq] at fits
  have form := (Opcode.restart_form _ (opcode_mem_all_of_read decoded) restarts).1
  have kinds := InstructionHead.kinds_of_zeroOperands parts.headed (fits.1.2.symm.trans form)
  have operands := parts.operands
  rw [kinds] at operands
  exact (congrArg Prod.fst (Except.ok.inj operands)).symm

namespace Machine

variable {machine other : Machine}

/-- What an instruction that restarts does is to restart. -/
theorem step_of_restart {before : Machine} {instruction : Instruction}
    (executes : Executes before instruction machine)
    (restarts : instruction.opcode.operation = .restart) {again : Machine}
    (outcome : restart machine = .ok () again) : step before = .ok () again := by
  have decoded := executes.instructionAt
  have least := (Opcode.restart_form _ (Instruction.opcode_mem_all_of_read decoded) restarts).2
  have values : operandValues instruction machine = .ok [] machine :=
    operandValues_of_bare least (Instruction.operands_of_restart decoded restarts)
  have performed : perform instruction [] machine = .ok .restart machine := by
    unfold perform
    rw [Action.get_bind]
    simp only [restarts]
    rfl
  rw [step_of_executes executes]
  apply Action.onFault_of_ok
  unfold executeInstruction
  rw [Action.bind_of_ok values, Action.bind_of_ok performed]
  exact outcome

/-! ## Where a game stands -/

/-- Where a game stands: its memory and the calls in progress, where it goes on, what it waits for,
and which memory streams are open. -/
structure Standing where
  work : Workspace
  pc : Int
  phase : Phase
  pending : Option Nat
  memoryStreams : List MemoryStream

/-- Where the game of a machine stands. -/
def standing (machine : Machine) : Standing where
  work := machine.work
  pc := machine.pc
  phase := machine.phase
  pending := machine.pending
  memoryStreams := machine.memoryStreams

/-- Where a game stands that begins in a memory: in one empty call, with nothing to wait for. -/
def Standing.atStart (memory : GameMemory) : Standing where
  work := { memory, calls := {}, globals := memory.globalsAddress }
  pc := memory.mainRoutine
  phase := .running
  pending := none
  memoryStreams := []

private theorem standing_begun (machine : Machine) :
    machine.begun.standing =
      .atStart (machine.work.memory.overImage (·.announce machine.surroundings)) := by
  unfold begun
  rfl

private theorem standing_opened (machine : Machine) (story : Story) (memory : GameMemory) :
    (machine.opened story memory).standing =
      .atStart (memory.overImage (·.announce machine.surroundings)) := by
  unfold opened
  exact standing_begun _

private theorem standing_restarted {memory : GameMemory} (headed : Header.size ≤ memory.size)
    (machine : Machine) (story : Story) :
    (machine.restarted story memory).standing =
      .atStart ((memory.overImage (·.announce machine.surroundings)).overImage
        (·.keepFlags machine.image.flags2)) := by
  unfold restarted
  rw [standing_begun]
  unfold GameMemory.overImage
  dsimp only
  exact congrArg (fun image => Standing.atStart { memory with toImage := image })
    (Image.keepFlags_announce headed machine.surroundings)

/-! ## Games on one machine -/

/-- The event leaves what the story is told about the surroundings. -/
def Event.Settled (machine : Machine) (event : Event) : Prop :=
  match event with
  | .outside .. => (event.apply machine).surroundings = machine.surroundings
  | _ => True

/-- The machines that games on a fresh one come to between two calls from outside, with the same
surroundings throughout. A game may be started anew at any time. -/
inductive Attained (fresh : Machine) : Machine → Prop where
  | started {started : Machine} (accepted : reset fresh = .ok () started) : Attained fresh started
  | event {machine : Machine} (attained : Attained fresh machine) (event : Event)
      (settled : event.Settled machine) : Attained fresh (event.apply machine)
  | anew {machine started : Machine} (attained : Attained fresh machine)
      (accepted : reset machine = .ok () started) : Attained fresh started

/-- The machines that games on a fresh one come to, also on the point of executing an
instruction. -/
inductive Reached (fresh : Machine) : Machine → Prop where
  | between {machine : Machine} (attained : Attained fresh machine) : Reached fresh machine
  | executing {before machine : Machine} {instruction : Instruction}
      (attained : Attained fresh before) (executes : Executes before instruction machine) :
      Reached fresh machine

/-- What stays in all games on a machine with a story file and with surroundings. -/
structure Settled (data : Array UInt8) (about : Surroundings) (machine : Machine) : Prop where
  protects : machine.core.Protects data
  ledger : machine.core.Ledger fun _ => True
  told : machine.surroundings = about

variable {fresh started : Machine} {data : Array UInt8} {about : Surroundings}

private theorem settled_of_reset (ledger : fresh.core.Ledger fun _ => True) (file : fresh.file.data = data)
    (told : fresh.surroundings = about) (accepted : reset fresh = .ok () started) :
    Settled data about started := by
  refine ⟨file ▸ protects_of_reset accepted, ?_, ?_⟩
  · obtain ⟨story, memory, -, rfl⟩ := reset_eq_ok accepted
    unfold opened
    rw [core_begun]
    exact fun index request found => ledger index request found
  · obtain ⟨story, memory, -, rfl⟩ := reset_eq_ok accepted
    unfold opened begun
    exact told

private theorem Settled.event (settled : Settled data about machine) (event : Event)
    (quiet : event.Settled machine) : Settled data about (event.apply machine) := by
  have moved := (closed_protects data).event ⟨settled.protects, settled.ledger⟩ event
  have background := background_surroundings about
  refine ⟨moved.1, moved.2, ?_⟩
  cases event with
  | step =>
      have instructions := background.keeps_executeInstruction fun _ _ told => told
      exact (background.keeps_step instructions).finalState settled.told
  | answer token entry terminator timedOut =>
      exact (background.keeps_completeInput _ _ _ _).finalState settled.told
  | quit => exact (background.ignoresMargin ignoresMargin_quit).finalState settled.told
  | outside storage disk input sound screen => exact quiet.trans settled.told

/-- The story and the surroundings of a fresh machine stay in all games on it. -/
theorem Attained.settled (unused : fresh.requests = #[]) (attained : Attained fresh machine) :
    Settled fresh.file.data fresh.surroundings machine := by
  induction attained with
  | started accepted => exact settled_of_reset (Core.EveryRequest.of_empty unused) rfl rfl accepted
  | event _ event quiet ih => exact ih.event event quiet
  | anew _ accepted ih => exact settled_of_reset ih.ledger ih.protects.file ih.told accepted

private theorem Reached.settled (unused : fresh.requests = #[]) (reached : Reached fresh machine) :
    Settled fresh.file.data fresh.surroundings machine := by
  cases reached with
  | between attained => exact attained.settled unused
  | executing attained executes =>
      have before := attained.settled unused
      have moved := (closed_protects _).executes trivial ⟨before.protects, before.ledger⟩ executes
      exact ⟨moved.1, moved.2, (background_surroundings _).executes before.told executes⟩

/-! ## Restarts -/

/-- Where a start leads. -/
theorem standing_of_reset {story : Story} {memory : GameMemory}
    (loaded : Story.load machine.file.data = .ok (story, memory)) :
    ∃ anew, reset machine = .ok () anew ∧
      anew.standing = .atStart (memory.overImage (·.announce machine.surroundings)) := by
  refine ⟨machine.opened story memory, ?_, standing_opened _ _ _⟩
  rw [reset_eq, loaded]

/-- A restart of a machine leads to another, whether it is asked for from outside or by an
instruction that the machine is on the point of executing. -/
structure RestartsTo (machine again : Machine) : Prop where
  asked : restart machine = .ok () again
  executed : ∀ before instruction, Executes before instruction machine →
    instruction.opcode.operation = .restart → step before = .ok () again

/-- Where a restart leads. -/
theorem standing_of_restart {story : Story} {memory : GameMemory}
    (loaded : Story.load machine.file.data = .ok (story, memory)) :
    ∃ again, machine.RestartsTo again ∧
      again.standing = .atStart ((memory.overImage (·.announce machine.surroundings)).overImage
        (·.keepFlags machine.image.flags2)) := by
  have headed := Story.size_of_load loaded
  obtain ⟨again, outcome⟩ : ∃ again, restart machine = .ok () again := by
    rw [restart_eq, loaded]
    exact ⟨_, rfl⟩
  refine ⟨again, ⟨outcome, ?_⟩, ?_⟩
  · intro before instruction executes restarts
    exact step_of_restart executes restarts outcome
  · rw [restart_eq, loaded] at outcome
    cases outcome
    exact standing_restarted headed _ story

/-- The game stands where another was started, in a memory that differs in the two flags that a
restart keeps, which are as a third game had them. -/
structure Renews (again started machine : Machine) : Prop where
  start : again.standing = .atStart again.work.memory
  standing : again.standing = { started.standing with work.memory := again.work.memory }
  extent : again.work.memory.dynamicEnd = started.work.memory.dynamicEnd ∧
    again.work.memory.highStart = started.work.memory.highStart ∧
    again.image.size = started.image.size
  kept : ∀ address bit, Header.Preserved address bit →
    again.image.peekFlag address bit = machine.image.peekFlag address bit
  others : ∀ address bit, ¬ Header.Preserved address bit →
    again.image.peekFlag address bit = started.image.peekFlag address bit

private theorem renews_of_standing {memory : GameMemory} (headed : Header.size ≤ memory.size)
    {again : Machine} (start : started.standing = .atStart memory)
    (restart : again.standing =
      .atStart (memory.overImage (·.keepFlags machine.image.flags2))) :
    again.Renews started machine := by
  have memory_eq : started.work.memory = memory :=
    congrArg (fun standing => standing.work.memory) start
  have memory_again : again.work.memory = memory.overImage (·.keepFlags machine.image.flags2) :=
    congrArg (fun standing => standing.work.memory) restart
  have image : again.image = memory.keepFlags machine.image.flags2 :=
    congrArg GameMemory.toImage memory_again
  have image_started : started.image = memory.toImage := congrArg GameMemory.toImage memory_eq
  have word {place : Nat} (low : place + 1 < 0x10) :
      (memory.keepFlags machine.image.flags2).peekWord place = memory.peekWord place := by
    unfold Image.peekWord
    rw [Image.peek_keepFlags_of_ne (by omega) (by omega),
      Image.peek_keepFlags_of_ne (by omega) (by omega)]
  refine ⟨by rw [restart, memory_again], ?_, ⟨?_, ?_, ?_⟩, ?_, ?_⟩
  · have globals : (memory.keepFlags machine.image.flags2).globalsAddress =
        memory.globalsAddress := word (by decide)
    have main : (memory.keepFlags machine.image.flags2).mainRoutine = memory.mainRoutine :=
      word (by decide)
    rw [restart, start, memory_again]
    unfold Standing.atStart GameMemory.overImage
    dsimp only
    rw [globals, main]
  · rw [memory_again, memory_eq]
    rfl
  · rw [memory_again, memory_eq]
    rfl
  · rw [image, image_started, Image.size_keepFlags]
  · intro address bit preserved
    rw [image, Image.peekFlag_keepFlags _ headed]
    obtain ⟨rfl, small⟩ := preserved
    rw [if_pos ⟨rfl, small⟩, Image.testBit_flags2 _ small]
  · intro address bit others
    rw [image, Image.peekFlag_keepFlags _ headed, image_started]
    exact if_neg others

/-- A restart forgets everything but two flags. From any two points of games on one machine at which
these flags agree it leads to the same place, where the story was started, with the flags as they
were; and a start leads to that place from everywhere, with the flags as they were at first. -/
theorem restart_forgets (unused : fresh.requests = #[]) (accepted : reset fresh = .ok () started)
    (reached : Reached fresh machine) (reachedOther : Reached fresh other)
    (agree : ∀ bit < 2, machine.image.flags2.testBit bit = other.image.flags2.testBit bit) :
    ∃ again otherAgain anew, machine.RestartsTo again ∧ other.RestartsTo otherAgain ∧
      otherAgain.standing = again.standing ∧ again.Renews started machine ∧
      reset machine = .ok () anew ∧ anew.standing = started.standing := by
  obtain ⟨story, memory, loaded, -⟩ := reset_eq_ok accepted
  have headed := Story.size_of_load loaded
  have settled := reached.settled unused
  have settledOther := reachedOther.settled unused
  have file : machine.file.data = fresh.file.data := settled.protects.file
  have fileOther : other.file.data = fresh.file.data := settledOther.protects.file
  obtain ⟨first, outcome, start⟩ := standing_of_reset loaded
  obtain ⟨anew, outcomeAnew, startAnew⟩ := standing_of_reset (file ▸ loaded)
  obtain ⟨again, restarts, standing⟩ := standing_of_restart (file ▸ loaded)
  obtain ⟨otherAgain, restartsOther, standingOther⟩ := standing_of_restart (fileOther ▸ loaded)
  rw [accepted] at outcome
  cases outcome
  rw [settled.told] at startAnew standing
  rw [settledOther.told] at standingOther
  have announced : Header.size ≤ (memory.overImage (·.announce fresh.surroundings)).size :=
    headed.trans (Nat.le_of_eq (memory.size_announce fresh.surroundings).symm)
  refine ⟨again, otherAgain, anew, restarts, restartsOther, ?_, ?_, outcomeAnew, ?_⟩
  · rw [standing, standingOther, GameMemory.overImage_keepFlags_congr announced agree]
  · exact renews_of_standing announced start standing
  · rw [startAnew, start]

/-- The sample story with a start that turns the transcript on and restarts. -/
def restartingStory : Array UInt8 :=
  (sampleStory.toList.take 80 ++ [0xf3, 0x7f, 2, 0xb7] ++ sampleStory.toList.drop 84).toArray

/-- The sample machine with that story, started. -/
def restarting : Machine :=
  reset.finalState { sample with file.data := restartingStory }

private theorem reset_restarting : reset { sample with file.data := restartingStory } = .ok () restarting :=
  Action.eq_ok_finalState (by decide +kernel)

/-- The restart of that story. -/
def restartInstruction : Instruction where
  address := 83
  form := .short
  opcode := { group := .zeroOperands, number := 7, name := "restart", operation := .restart }
  operands := []
  resultAddress := 84
  nextAddress := 84

/-- The restart and one that is asked for after the game was ended lead to the same place, with the
transcript turned on. -/
theorem restart_forgets_restarting :
    ∃ again otherAgain, step (restarting.after [.step]) = .ok () again ∧
      restart ((restarting.after [.step]).after [.quit]) = .ok () otherAgain ∧
      otherAgain.standing = again.standing ∧
      again.image.peekFlag 0x11 0 = true ∧ restarting.image.peekFlag 0x11 0 = false := by
  have executes : Executes (restarting.after [.step]) restartInstruction
      ((restarting.after [.step]).poised.taking restartInstruction) :=
    executes_poised (by decide +kernel) (by decide +kernel) (by decide +kernel) (by decide +kernel)
  have once : Attained { sample with file.data := restartingStory } (restarting.after [.step]) :=
    .event (.started reset_restarting) .step trivial
  have ended : Attained { sample with file.data := restartingStory }
      ((restarting.after [.step]).after [.quit]) :=
    once.event .quit trivial
  have flags : ∀ bit < 2,
      ((restarting.after [.step]).poised.taking restartInstruction).image.flags2.testBit bit =
        ((restarting.after [.step]).after [.quit]).image.flags2.testBit bit := by
    decide +kernel
  obtain ⟨again, otherAgain, -, restarts, restartsOther, same, renews, -⟩ :=
    restart_forgets rfl reset_restarting (.executing once executes) (.between ended)
      flags
  have stepped := restarts.executed _ _ executes rfl
  refine ⟨again, otherAgain, stepped, restartsOther.asked, same, ?_, by decide +kernel⟩
  rw [renews.kept 0x11 0 ⟨rfl, by decide⟩]
  decide +kernel

end Machine

end StoryMachine
