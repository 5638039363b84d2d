import StoryMachine.Proofs.OrderlyOperations

/-!
# Mishaps

What gets past the handler of faults. A step of a started machine returns, with
every fault dealt with, except in the cases listed here: text meets an alphabet
with too few characters, a key was typed for a line, an operation that takes its
operands as two is given more, or a game does not fit the form of a saved one.
-/

namespace StoryMachine

open StoryMachine.Action (Ensures Keeps FailsOnly FailsWith)

namespace Machine

variable {machine before after : Machine} {story : Story} {fresh : GameMemory}
  {instruction : Instruction} {failure : Failure} {values : List Int}

/-! ## Instructions -/

/-- How an operation can fail without a broken rule. -/
inductive Mishap (instruction : Instruction) (machine : Machine) : Failure → Machine → Prop where
  /-- It takes its operands as two, and there are more. -/
  | surplus (two : instruction.opcode.operation.takesTwo = true)
      (many : 2 < instruction.operands.length) :
      Mishap instruction machine (.breach .valueOutOfRange) machine
  /-- It saves a game with a number that does not fit its field. -/
  | unsaved {failure : Failure} (saves : instruction.opcode.operation = .save)
      (misfit : SaveFile.encode (machine.snapshot instruction.resultAddress) machine.freshDynamic =
        .error failure) :
      Mishap instruction machine failure machine
  /-- It saves a game that the storage cannot take. -/
  | untaken {failure : Failure} {after : Machine} {data : List UInt8}
      (saves : instruction.opcode.operation = .save)
      (encoded : SaveFile.encode (machine.snapshot instruction.resultAddress) machine.freshDynamic =
        .ok data)
      (refused : store data machine = .error failure after) :
      Mishap instruction machine failure after

private theorem orLogged_eq_error {α : Type} {what : String} {default : α} {action : Play α}
    (failed : orLogged what default action machine = .error failure after) :
    action machine = .error failure after := by
  unfold orLogged at failed
  split at failed
  · cases failed
  · cases failed
  · cases failed
  · rename_i outcome
    rw [outcome, failed]

private theorem mishap_of_save (saves : instruction.opcode.operation = .save)
    (failed : save instruction machine = .error failure after) :
    Mishap instruction machine failure after := by
  unfold save at failed
  rcases Action.bind_eq_error failed with failed | ⟨result, handed, -, failed⟩
  · have broke := orLogged_eq_error failed
    rw [Action.get_bind] at broke
    cases encoded : SaveFile.encode (machine.snapshot instruction.resultAddress)
        machine.freshDynamic with
    | error reason =>
        rw [encoded] at broke
        cases broke
        exact .unsaved saves encoded
    | ok data =>
        rw [encoded, Action.lift_bind] at broke
        rcases Action.bind_eq_error broke with broke | ⟨stored, handed, -, broke⟩
        · exact .untaken saves encoded broke
        · cases broke
  · split at failed
    · cases failed
    · cases failed

/-- An operation that takes two operands and has another number of them is a breach, unless it
divides by zero. -/
theorem perform_surplus (two : instruction.opcode.operation.takesTwo = true)
    (many : values.length ≠ 2)
    (divides : instruction.opcode.operation = .divide ∨ instruction.opcode.operation = .remainder →
      values.getD 1 0 ≠ 0) :
    perform instruction values machine = .error (.breach .valueOutOfRange) machine := by
  unfold perform
  rw [Action.get_bind]
  dsimp only
  rw [if_neg many]
  cases operation : instruction.opcode.operation with
  | loadWord => rfl
  | loadByte => rfl
  | divide =>
      rw [if_neg (divides (.inl operation))]
      rfl
  | remainder =>
      rw [if_neg (divides (.inr operation))]
      rfl
  | bitTest => rfl
  | logicalShift => rfl
  | arithmeticShift => rfl
  | _ => simp [operation, Operation.takesTwo] at two

/-- A division by zero is a fault that leaves the machine as it was. -/
theorem perform_divide_zero
    (divides : instruction.opcode.operation = .divide ∨ instruction.opcode.operation = .remainder)
    (zero : values.getD 1 0 = 0) :
    perform instruction values machine =
      .error (.ofCause (.divisionByZero instruction.name (values.getD 0 0))) machine := by
  unfold perform
  rw [Action.get_bind]
  rcases divides with divides | divides
  · simp only [divides]
    rw [if_pos zero]
    rfl
  · simp only [divides]
    rw [if_pos zero]
    rfl

private theorem orderly_operandValue (sense : Sense) (operand : Operand) :
    Orderly story (operandValue sense operand) := by
  unfold operandValue
  dsimp only
  split
  · exact .answered (orderly_getVariable _ _) _
  · exact .pure _

section Instructions

variable (loaded : Story.load story.data = .ok (story, fresh))

include loaded

/-- An operation that fails is orderly or meets with a mishap. -/
theorem perform_eq_error (steady : Steady story machine) (given : instruction.Given values)
    (failed : perform instruction values machine = .error failure after) :
    Tolerates story failure after ∨ Mishap instruction machine failure after := by
  by_cases saves : instruction.opcode.operation = .save
  · unfold perform at failed
    rw [Action.get_bind] at failed
    simp only [saves] at failed
    split at failed
    · cases failed
    · rcases Action.bind_eq_error failed with failed | ⟨saved, between, -, failed⟩
      · exact .inr (mishap_of_save saves failed)
      · split at failed
        · cases failed
        · cases failed
  by_cases pair : instruction.opcode.operation.takesTwo = true → values.length = 2
  · exact .inl (orderly_perform loaded given pair saves _ _ _ steady failed)
  obtain ⟨two, other⟩ := Classical.not_imp.mp pair
  by_cases divides : (instruction.opcode.operation = .divide ∨
      instruction.opcode.operation = .remainder) ∧ values.getD 1 0 = 0
  · rw [perform_divide_zero divides.1 divides.2] at failed
    cases failed
    exact .inl (tolerates_ofCause _ _)
  · rw [perform_surplus two other fun divides' zero => divides ⟨divides', zero⟩] at failed
    cases failed
    refine .inr (.surplus two ?_)
    have least := Opcode.least_takesTwo _ given.listed two
    have enough := given.enough
    rw [given.length] at other
    omega

private theorem orderly_operandValuesFrom (opcode : Opcode) (operands : List Operand) (index : Nat) :
    Orderly story (operandValuesFrom opcode index operands) := by
  have closed := closed_steady loaded
  induction operands generalizing index with
  | nil => exact .pure _
  | cons operand rest ih =>
      refine .bind (orderly_operandValue _ operand) (ensures_operandValue closed _ operand) ?_
      exact fun value _ => .answered (ih _) _

private theorem orderly_operandValues (instruction : Instruction) :
    Orderly story (operandValues instruction) := by
  unfold operandValues
  exact .excluded (tolerates_ofCause _) (orderly_operandValuesFrom loaded _ _ _)

private theorem executeInstruction_eq_error (fits : instruction.Fits fun _ => True)
    (few : instruction.operands.length ≤ 8) (listed : instruction.opcode ∈ Opcode.all)
    (steady : Steady story machine)
    (failed : executeInstruction instruction machine = .error failure after) :
    Tolerates story failure after ∨ ∃ values read,
      operandValues instruction machine = .ok values read ∧
        Mishap instruction read failure after := by
  have closed := closed_steady loaded
  rcases Action.bind_eq_error failed with failed | ⟨values, read, given, failed⟩
  · exact .inl (orderly_operandValues loaded instruction _ _ _ steady failed)
  have operands := (ensures_given closed listed).of_ok steady given
  rcases Action.bind_eq_error failed with failed | ⟨next, performed, asked, failed⟩
  · rcases perform_eq_error loaded operands.1 operands.2 failed with tolerates | mishap
    · exact .inl tolerates
    · exact .inr ⟨values, read, given, mishap⟩
  · have performs := ensures_perform closed fits (operands.2.length.trans_le few) operands.2.signed
      fun _ _ => trivial
    have held := (performs.of_ok operands.1 asked).1
    exact .inl (orderly_settle loaded fits next _ _ _ held failed)

end Instructions

/-! ## Steps -/

private theorem failsWith_typed : FailsWith (fun _ => False) typed := by
  unfold typed
  refine .bind .get fun machine => ?_
  split
  · exact failsWith_readInput _ _
  · exact failsWith_readInput _ _
  · exact .pure none

/-- How a step can end in a breach. -/
inductive Hazard (before : Machine) : Breach → Machine → Prop where
  /-- Text meets an alphabet of the story with too few characters. -/
  | unreadable {after : Machine} (short : ¬ before.story.codec.Full) :
      Hazard before .indexOutOfRange after
  /-- A key was typed for a line. -/
  | typedKey {after : Machine} (typed : after.HasTypedKey) : Hazard before .keyForLine after
  /-- The instruction that the step executes meets with a mishap, once its operands are read. -/
  | mishap {instruction : Instruction} {machine read after : Machine} {values : List Int}
      {breach : Breach} (executes : Executes before instruction machine)
      (given : operandValues instruction machine = .ok values read)
      (mishap : Mishap instruction read (.breach breach) after) : Hazard before breach after

private theorem Steady.hazard (steady : Steady story before) {breach : Breach}
    (tolerates : Tolerates story (.breach breach) after) : Hazard before breach after := by
  rcases tolerates with (⟨fault, ⟨⟩⟩ | ⟨⟨⟩, short⟩) | ⟨⟨⟩, typed⟩
  · refine .unreadable ?_
    rw [show before.story = story from steady.attends.story]
    exact short
  · exact .typedKey typed

section Steps

variable (loaded : Story.load story.data = .ok (story, fresh))

include loaded

/-- Text that the player enters is taken. -/
theorem completeInput_eq_error (steady : Steady story machine)
    (waits : machine.phase.isWaiting = true) {text : Text} {terminator : Int}
    (failed : completeInput machine.pending (.text text) terminator false machine =
      .error failure after) : Tolerates story failure after ∧ failure.IsBreach := by
  have closed := closed_steady loaded
  obtain ⟨token, request, pending, found, named⟩ := steady.awaited waits
  have fits := steady.ledger.found found
  unfold completeInput at failed
  rw [Action.get_bind, pending, Option.bind_some, found] at failed
  simp only [named, ↓reduceIte] at failed
  have keeps := keeps_answerRequest closed fits (.text text) terminator false fun _ _ => trivial
  refine FailsOnly.onFault ?_ keeps (fun fault => ?_) _ _ _ steady failed
  · unfold answerRequest
    simp only [Bool.false_eq_true, ↓reduceIte]
    split
    · exact orderly_finishLine loaded fits text terminator
    · exact orderly_finishKey loaded fits _
  · exact .seq (.modify _) (.modify fun _ steady => closed.inner steady .abandon) fun _ =>
      unfailing_handleFault loaded fault _

private theorem acceptInput_eq_error (steady : Steady story machine)
    (failed : acceptInput machine = .error failure after) :
    Tolerates story failure after ∧ failure.IsBreach := by
  have closed := closed_steady loaded
  rw [acceptInput_eq] at failed
  rcases Action.bind_eq_error failed with failed | ⟨entry, awake, given, failed⟩
  · exact (failsWith_typed _ _ _ failed).elim
  have apart := ((keeps_typed (survivesAside_aside machine)).of_ok (.refl machine) given).1
  cases entry with
  | none => cases failed
  | some text =>
      refine completeInput_eq_error loaded (closed.survivesAside _ _ steady apart) ?_ failed
      have phase : awake.phase = machine.phase := congrArg Core.phase apart.core
      rw [phase]
      exact isWaiting_of_typed given

private theorem failsOnly_pollSounds :
    FailsOnly (Steady story) (fun failure after => Tolerates story failure after ∧ failure.IsBreach)
      pollSounds := by
  have closed := closed_steady loaded
  unfold pollSounds
  refine .get fun machine _ => ?_
  split
  · exact .pure _
  · refine .seq (.modify _) (closed.aside fun _ => ⟨rfl, rfl⟩) fun _ => ?_
    refine .seq (.modify _) (keeps_note closed.survivesAside _ _ _) fun _ => ?_
    refine .onFault (orderly_callRoutine _ _ _ _ _) ?_ fun fault => unfailing_handleFault loaded _ _
    intro machine steady
    refine endsIn_callRoutine closed trivial steady (.inl trivial) ?_ (Nat.zero_le 7)
    intro target none_eq
    cases none_eq

/-- An instruction that gets past the handler of faults cannot be read or meets with a mishap. -/
theorem execute_eq_error (steady : Steady story machine)
    (failed : execute machine = .error failure after) :
    ∃ breach, failure = .breach breach ∧
      (Tolerates story (.breach breach) after ∨ ∃ instruction values read,
        machine.instructionAt machine.pc = .ok instruction ∧
          operandValues instruction (machine.taking instruction) = .ok values read ∧
          Mishap instruction read (.breach breach) after) := by
  have closed := closed_steady loaded
  have handled {fault : Fault} {instruction : Option Instruction} {broken : Machine}
      (held : Steady story broken)
      (failed : handleFault fault instruction broken = .error failure after) : False :=
    unfailing_handleFault (P := fun _ _ => False) loaded fault instruction _ _ _ held failed
  cases decoded : machine.instructionAt machine.pc with
  | error reason =>
      unfold execute at failed
      rw [Action.get_bind, decoded] at failed
      cases reason with
      | fault fault => exact (handled steady failed).elim
      | breach breach =>
          cases failed
          have allows := Instruction.failsWith_read _ _ _ _ _ _ decoded
          rw [show machine.story = story from steady.attends.story] at allows
          exact ⟨breach, rfl, .inl (.inl allows)⟩
  | ok instruction =>
      rw [execute_eq decoded] at failed
      have within := Instruction.within_of_read decoded
      have listed := Instruction.opcode_mem_all_of_read decoded
      have fits : instruction.Fits fun _ => True := within.fits fun _ _ => trivial
      have taking : Steady story (machine.taking instruction) :=
        closed.survivesAside _ _ steady ⟨rfl, rfl⟩
      rcases Action.onFault_eq_error failed with
        ⟨breach, rfl, failed⟩ | ⟨fault, broken, broke, failed⟩
      · refine ⟨breach, rfl, ?_⟩
        rcases executeInstruction_eq_error loaded fits within.operands listed taking failed with
          tolerates | ⟨values, read, given, mishap⟩
        · exact .inl tolerates
        · exact .inr ⟨instruction, values, read, rfl, given, mishap⟩
      · -- The handler meets a machine that is still in good order, and so it does not fail.
        have held := (keeps_executeInstruction closed fits within.operands listed).finalState taking
        rw [Action.finalState_of_error broke] at held
        exact (handled held failed).elim

/-- A step of a machine in good order fails only if it meets one of the hazards. -/
theorem step_eq_error (steady : Steady story before)
    (failed : step before = .error failure after) :
    ∃ breach, failure = .breach breach ∧ Hazard before breach after := by
  have closed := closed_steady loaded
  have escape (escapes : Tolerates story failure after ∧ failure.IsBreach) :
      ∃ breach, failure = .breach breach ∧ Hazard before breach after := by
    obtain ⟨tolerates, breach, rfl⟩ := escapes
    exact ⟨breach, rfl, steady.hazard tolerates⟩
  rw [step_eq] at failed
  rcases Action.bind_eq_error failed with failed | ⟨u, awake, listened, failed⟩
  · rcases Action.bind_eq_error failed with failed | ⟨u, ready, required, failed⟩
    · exact (unfailing_requireStory (P := fun _ _ => False) _ _ _ _ steady failed).elim
    · have held := ((keeps_requireStory _).of_ok steady required).1
      exact escape (acceptInput_eq_error loaded held failed)
  have listens : Keeps (Steady story) (do requireStory .notInitialized; acceptInput : Play Unit) :=
    .seq (keeps_requireStory _) fun _ => keeps_acceptInput closed
  have woken := (listens.of_ok steady listened).1
  unfold continues at failed
  rw [Action.get_bind] at failed
  by_cases running : awake.phase = .running
  · rw [if_pos running] at failed
    rcases Action.bind_eq_error failed with failed | ⟨u, polled, sounded, failed⟩
    · exact escape (failsOnly_pollSounds loaded _ _ _ woken failed)
    have quiet := ((keeps_pollSounds closed trivial).of_ok woken sounded).1
    obtain ⟨breach, rfl, tolerates | ⟨instruction, values, read, decoded, given, mishap⟩⟩ :=
      execute_eq_error loaded quiet failed
    · exact ⟨breach, rfl, steady.hazard tolerates⟩
    · have executes : Executes before instruction (polled.taking instruction) :=
        ⟨awake, polled, listened, running, sounded, decoded, rfl⟩
      exact ⟨breach, rfl, .mishap executes given mishap⟩
  · rw [if_neg running] at failed
    cases failed

end Steps

/-- A machine that has just been started is in good order, if its streams do not refuse. -/
theorem steady_of_reset {fresh start : Machine} (unused : fresh.requests = #[])
    (accepted : reset fresh = .ok () start)
    (willing : fresh.terms.transcript = none ∧ fresh.terms.script = none) :
    ∃ story memory, Story.load story.data = .ok (story, memory) ∧ Steady story start := by
  obtain ⟨story, memory, loaded, attentive⟩ := attentive_of_reset unused accepted
  refine ⟨story, memory, loaded, attentive.protects, attentive.ledger, attentive.attends, ?_⟩
  rw [terms_of_reset accepted]
  exact willing

/-- A step of a started machine returns, whatever the story and the policy, unless it meets one of
the hazards; and an instruction with surplus operands, where two are taken, is always one. -/
theorem step_returns_or_hazard {fresh start : Machine} (unused : fresh.requests = #[])
    (accepted : reset fresh = .ok () start)
    (willing : fresh.terms.transcript = none ∧ fresh.terms.script = none) (events : List Event) :
    ((∃ after, step (start.after events) = .ok () after) ∨
      ∃ breach after, step (start.after events) = .error (.breach breach) after ∧
        Hazard (start.after events) breach after) ∧
      ∀ instruction machine values read, Executes (start.after events) instruction machine →
        operandValues instruction machine = .ok values read →
        instruction.opcode.operation.takesTwo = true → 2 < instruction.operands.length →
        (instruction.opcode.operation = .divide ∨ instruction.opcode.operation = .remainder →
          values.getD 1 0 ≠ 0) →
        step (start.after events) = .error (.breach .valueOutOfRange) read := by
  obtain ⟨story, memory, loaded, steady⟩ := steady_of_reset unused accepted willing
  have closed := closed_steady loaded
  have reached := closed.after steady events
  constructor
  · cases stepped : step (start.after events) with
    | ok u after => exact .inl ⟨after, rfl⟩
    | error failure after =>
        obtain ⟨breach, rfl, hazard⟩ := step_eq_error loaded reached stepped
        exact .inr ⟨breach, after, rfl, hazard⟩
  · intro instruction machine values read executes given two many divides
    have taking := closed.executes trivial reached executes
    have listed := Instruction.opcode_mem_all_of_read executes.instructionAt
    have length := ((ensures_given closed listed).of_ok taking given).2.length
    have performs : perform instruction values read = .error (.breach .valueOutOfRange) read :=
      perform_surplus two (by omega) divides
    have broke : executeInstruction instruction machine = .error (.breach .valueOutOfRange) read :=
      (Action.bind_of_ok given).trans (Action.bind_of_error performs)
    rw [step_of_executes executes, Action.onFault_of_breach broke]

/-- The sample story with a load of a word that has three operands. -/
def surplusStory : Array UInt8 :=
  (sampleStory.toList.take 80 ++ [0xcf, 0x57, 0x40, 0, 0, 0, 0xba] ++
    sampleStory.toList.drop 87).toArray

/-- The sample machine with that story, started. -/
def surplused : Machine :=
  reset.finalState { sample with file.data := surplusStory }

/-- The load of that story. -/
def surplusLoad : Instruction where
  address := 80
  form := .variable
  opcode :=
    { group := .twoOperands, number := 15, name := "loadw", operation := .loadWord, stores := true,
      senses := [.unsigned, .unsigned], least := 2 }
  operands := [⟨.small, 64⟩, ⟨.small, 0⟩, ⟨.small, 0⟩]
  storeTo := some 0
  resultAddress := 85
  nextAddress := 86

private theorem reset_surplused : reset { sample with file.data := surplusStory } = .ok () surplused :=
  Action.eq_ok_finalState (by decide +kernel)

/-- The load is a breach, though the two operands that it needs are there. -/
theorem step_returns_or_hazard_surplused :
    step surplused =
        .error (.breach .valueOutOfRange) (surplused.poised.taking surplusLoad) ∧
      Hazard surplused .valueOutOfRange (surplused.poised.taking surplusLoad) := by
  have executes : Executes surplused surplusLoad (surplused.poised.taking surplusLoad) :=
    executes_poised (by decide +kernel) (by decide +kernel) (by decide +kernel) (by decide +kernel)
  obtain ⟨outcome, surplus⟩ := step_returns_or_hazard rfl reset_surplused ⟨rfl, rfl⟩ []
  have broke := surplus surplusLoad _ [64, 0, 0] _ executes rfl rfl (by decide)
    (fun divides => by simp [surplusLoad] at divides)
  refine ⟨broke, ?_⟩
  rcases outcome with ⟨after, stepped⟩ | ⟨breach, after, stepped, hazard⟩
  · cases broke.symm.trans stepped
  · cases broke.symm.trans stepped
    exact hazard

/-- Not every step of a started machine returns. -/
theorem not_forall_step_returns :
    ¬ ∀ (fresh start : Machine) (events : List Event), fresh.requests = #[] →
      reset fresh = .ok () start → fresh.terms.transcript = none → fresh.terms.script = none →
        ∃ after, step (start.after events) = .ok () after := by
  intro returns
  obtain ⟨after, stepped⟩ := returns _ _ [] rfl reset_surplused rfl rfl
  have stops : step.answer surplused = .error (.breach .valueOutOfRange) := by decide +kernel
  rw [after_nil] at stepped
  rw [Action.answer, stepped] at stops
  cases stops

end Machine

end StoryMachine
