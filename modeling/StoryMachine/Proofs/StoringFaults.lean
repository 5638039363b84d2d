import StoryMachine.Proofs.Arithmetic
import StoryMachine.Proofs.FaultKinds
import StoryMachine.Proofs.Recovery

/-!
# Faults of instructions that store

An instruction stores its result last. A fault of an object or of a division comes before that, so
that the machine goes on as if the instruction had only read its operands. A shift by too many
places is different: it stores a result of its own before it is a fault.
-/

namespace StoryMachine

open StoryMachine.Action (FailsWith Neutral)

private theorem Cause.recoverable_of_kind {cause : Cause}
    (kind : cause.kind = .object ∨ cause.kind = .arithmetic) : cause.recoverable = true := by
  unfold recoverable
  split
  · rcases kind with kind | kind
    · cases kind
    · cases kind
  · rcases kind with kind | kind
    · rw [kind]
      rfl
    · rw [kind]
      rfl

namespace Operation

/-- The operations that store what they are told about an object. -/
def asksObject : Operation → Bool
  | .getSibling | .getChild | .getParent | .getProperty | .getPropertyAddress | .getNextProperty
  | .getPropertyLength => true
  | _ => false

/-- The operations that divide. -/
def Divides (operation : Operation) : Prop :=
  operation = .divide ∨ operation = .remainder

/-- The operations that shift. -/
def Shifts (operation : Operation) : Prop :=
  operation = .logicalShift ∨ operation = .arithmeticShift

instance (operation : Operation) : Decidable operation.Divides :=
  inferInstanceAs (Decidable (_ ∨ _))

instance (operation : Operation) : Decidable operation.Shifts :=
  inferInstanceAs (Decidable (_ ∨ _))

/-- The other operations that store a result. -/
def storesPlainly : Operation → Bool
  | .add | .subtract | .multiply | .random | .bitNot | .bitOr | .bitAnd | .loadVariable
  | .loadWord | .loadByte | .scanTable | .call | .catchFrame | .readLine | .readChar | .setFont
  | .checkUnicode | .save | .restore | .saveUndo | .restoreUndo => true
  | _ => false

/-- What a shift of a number by too many places stores: nothing is left of the number but, to the
right, its sign. -/
def beyond (operation : Operation) (number places : Int) : Int :=
  match operation with
  | .arithmeticShift => if number < 0 ∧ places < 0 then 0xffff else 0
  | _ => 0

variable {operation : Operation}

private theorem Shifts.takesTwo (shifts : operation.Shifts) : operation.takesTwo = true := by
  rcases shifts with rfl | rfl
  · rfl
  · rfl

private theorem Shifts.not_divides (shifts : operation.Shifts) : ¬ operation.Divides := by
  rcases shifts with rfl | rfl
  · decide
  · decide

private theorem beyond_emod (operation : Operation) (number places : Int) :
    operation.beyond number places % 65536 = operation.beyond number places := by
  unfold beyond
  split
  · split
    · rfl
    · rfl
  · rfl

end Operation

private theorem Opcode.sorts_of_stores : ∀ opcode ∈ all, opcode.stores = true →
    opcode.operation.storesPlainly = true ∨ opcode.operation.asksObject = true ∨
      opcode.operation.Divides ∨ opcode.operation.Shifts := by
  decide

private theorem Opcode.late_of_stores : ∀ opcode ∈ all, opcode.stores = true →
    opcode.operation = .readLine → 5 ≤ opcode.firstVersion := by
  decide

private theorem Opcode.not_restart_of_stores : ∀ opcode ∈ all, opcode.stores = true →
    opcode.operation ≠ .restart := by
  decide

namespace Instruction

variable {codec : Codec} {tables : Option Image} {image : Image} {address version : Int}
  {instruction : Instruction}

/-- The reading of a line has a result from version five on. -/
theorem late_of_read (decoded : read codec tables image address version = .ok instruction)
    (stores : instruction.opcode.stores = true)
    (reads : instruction.opcode.operation = .readLine) : 5 ≤ version := by
  have least := Opcode.late_of_stores _ (opcode_mem_all_of_read decoded) stores reads
  obtain ⟨-, head, operandsEnd, branchAddress, parts⟩ := read_eq_ok decoded
  have fits := List.find?_some parts.opcode
  simp only [Opcode.isIn, Bool.and_eq_true, decide_eq_true_eq] at fits
  exact least.trans fits.2.1

private theorem exists_target_of_read (decoded : read codec tables image address version = .ok instruction)
    (stores : instruction.opcode.stores = true) : ∃ target, instruction.storeTo = some target := by
  obtain ⟨-, head, operandsEnd, branchAddress, parts⟩ := read_eq_ok decoded
  rcases readTargetIf_eq_ok parts.target with ⟨none, -⟩ | ⟨-, -, byte, -, target⟩
  · rw [stores] at none
    cases none
  · exact ⟨byte, target⟩

end Instruction

namespace Machine

variable {machine after failed : Machine} {instruction : Instruction} {values : List Int}
  {failure : Failure} {data : Array UInt8}

/-! ## Operations -/

private theorem neutral_newRequest (request : Nat → InputRequest) : Neutral (newRequest request) :=
  .bind .get fun _ => .answered (.modify _) _

/-- From version five on no status line is shown for a read. -/
theorem beginLine_eq_error {textBuffer parseBuffer time routine : Int}
    (late : 5 ≤ machine.image.version)
    (broke : beginLine instruction textBuffer parseBuffer time routine machine =
      .error failure after) : failure.IsNeutral := by
  unfold beginLine at broke
  rw [Action.get_bind, if_neg (by omega)] at broke
  refine FailsWith.bind (neutral_ask
    fun image => image.failsWith_byte _) (fun size => ?_) _ _ _ broke
  refine .bind .get fun machine => ?_
  dsimp only
  split
  · exact .bind (.pure _) fun _ => .bind (.lift machine.image.failsWith_terminators) fun _ =>
      neutral_newRequest _
  · refine .bind (.lift (machine.image.failsWith_textBuffer _)) fun codes => .bind .get fun _ => ?_
    exact .bind (.pure _) fun _ => .bind (.lift machine.image.failsWith_terminators) fun _ =>
      neutral_newRequest _

private theorem neutral_performCall (dropResult : Bool) (values : List Int) :
    Neutral (performCall instruction dropResult values) := by
  cases values with
  | nil => exact .refused (by simp)
  | cons packed arguments =>
      unfold performCall
      dsimp only
      split
      · exact .pure _
      · exact .bind .get fun _ => .pure _

private theorem neutral_perform (plainly : instruction.opcode.operation.storesPlainly = true)
    (unread : instruction.opcode.operation ≠ .readLine) :
    Neutral (perform instruction values) := by
  have exactlyTwo : Neutral
      (if values.length = 2 then pure () else Action.refuse .valueOutOfRange : Play Unit) := by
    split
    · exact .pure _
    · exact .refused (by simp)
  unfold perform
  refine .bind .get fun machine => ?_
  dsimp only
  cases operation : instruction.opcode.operation with
  | add | subtract | multiply | bitNot | bitOr | bitAnd | checkUnicode => exact .pure _
  | random =>
      dsimp only
      split
      · exact .bind .get fun _ => .answered (.modify _) _
      · exact .answered (.bind (.modify _) fun _ => .modify _) _
  | loadVariable => exact .answered (neutral_onWork (Workspace.failsWith_getVariable _ _)) _
  | loadWord =>
      exact .bind exactlyTwo fun _ => .answered (neutral_ask fun image => image.failsWith_word _) _
  | loadByte =>
      exact .bind exactlyTwo fun _ => .answered (neutral_ask fun image => image.failsWith_byte _) _
  | scanTable =>
      refine .barred (Failure.isNeutral_ofCause rfl) ?_
      refine .bind (neutral_ask fun image => image.failsWith_scan _ _ _ _ _) fun found => ?_
      cases found with
      | some address => exact .pure _
      | none => exact .pure _
  | call => exact neutral_performCall false values
  | catchFrame => exact .bind .get fun _ => .pure _
  | readChar => exact .answered (neutral_newRequest _) _
  | setFont => exact .bind .get fun _ => .answered (.modify _) _
  | save =>
      dsimp only
      split
      · exact .answered (.modify _) _
      · refine .bind (neutral_save instruction) fun saved => ?_
        split
        · exact .pure _
        · exact .pure _
  | restore =>
      dsimp only
      split
      · exact .answered (.modify _) _
      · refine .bind neutral_restore fun restored => ?_
        split
        · exact .pure _
        split
        · exact .pure _
        · exact .pure _
  | saveUndo => exact .answered (.modify _) _
  | restoreUndo =>
      refine .bind neutral_restoreUndo fun restored => ?_
      split
      · exact .pure _
      · exact .pure _
  | readLine => exact absurd operation unread
  | _ =>
      rw [operation] at plainly
      cases plainly

private theorem ask_eq_error {α : Type} {question : Image → Result α}
    (broke : ask question machine = .error failure after) :
    after = machine ∧ question machine.image = .error failure := by
  unfold ask at broke
  rw [Action.get_bind] at broke
  cases answer : question machine.image with
  | ok a =>
      rw [answer] at broke
      cases broke
  | error reason =>
      rw [answer] at broke
      cases broke
      exact ⟨rfl, rfl⟩

/-- A question about an object changes nothing. -/
theorem perform_asksObject_eq_error (asks : instruction.opcode.operation.asksObject = true)
    (broke : perform instruction values machine = .error failure after) :
    after = machine ∧ failure.IsOfObjects := by
  have unanswered {α : Type} {question : Image → Result α} {answer : α → Next}
      (inquires : ∀ image, Result.FailsWith Failure.IsOfObjects (question image))
      (broke : (do return answer (← ask question) : Play Next) machine = .error failure after) :
      after = machine ∧ failure.IsOfObjects := by
    rcases Action.bind_eq_error broke with broke | ⟨a, between, -, broke⟩
    · obtain ⟨same, unknown⟩ := ask_eq_error broke
      exact ⟨same, inquires _ _ unknown⟩
    · cases broke
  unfold perform at broke
  rw [Action.get_bind] at broke
  generalize machine.story.objects = table at broke
  cases operation : instruction.opcode.operation with
  | getSibling | getChild | getParent =>
      rw [operation] at broke
      exact unanswered (fun image => table.failsWith_link image _ _) broke
  | getProperty =>
      rw [operation] at broke
      exact unanswered (fun image => table.failsWith_getProperty image _ _) broke
  | getPropertyAddress =>
      rw [operation] at broke
      exact unanswered (fun image => table.failsWith_propertyAddress image _ _) broke
  | getNextProperty =>
      rw [operation] at broke
      exact unanswered (fun image => table.failsWith_nextProperty image _ _) broke
  | getPropertyLength =>
      rw [operation] at broke
      exact unanswered (fun image => table.failsWith_propertyLength image _) broke
  | _ =>
      rw [operation] at asks
      cases asks

/-- A division that fails changes nothing. -/
theorem perform_divides_eq_error (divides : instruction.opcode.operation.Divides)
    (broke : perform instruction values machine = .error failure after) :
    after = machine ∧ (failure = .breach .valueOutOfRange ∨
      failure = .ofCause (.divisionByZero instruction.name (values.getD 0 0))) := by
  unfold perform at broke
  rw [Action.get_bind] at broke
  rcases divides with divides | divides
  all_goals
    simp only [divides] at broke
    split at broke
    · cases broke
      exact ⟨rfl, .inr rfl⟩
    split at broke
    · cases broke
    · cases broke
      exact ⟨rfl, .inl rfl⟩

/-- A shift by too many places is a fault once its result is stored. -/
theorem shift_eq_error {number places beyond target : Int} (whole : machine.work.memory.Whole)
    (named : instruction.storeTo = some target)
    (broke : shift instruction number places beyond machine = .error failure after)
    (concerns : ¬ failure.IsNeutral) :
    15 < |places| ∧ machine.work.Assignable target ∧
      failure = .ofCause (.shiftOutOfRange instruction.name places) ∧
      after = { machine with work := machine.work.assigned target beyond } := by
  unfold shift at broke
  dsimp only at broke
  split at broke
  · rename_i far
    have distance : 15 < |places| := by
      rw [lt_abs]
      omega
    rw [named] at broke
    dsimp only at broke
    by_cases assignable : machine.work.Assignable target
    · have stored := onWork_of_ok (Workspace.setVariable_of_assignable whole assignable beyond)
      rw [Action.bind_of_ok stored] at broke
      cases broke
      exact ⟨distance, assignable, rfl, rfl⟩
    · obtain ⟨fault, refused⟩ := Workspace.setVariable_of_not_assignable whole assignable beyond
      rw [Action.bind_of_error (onWork_of_error refused)] at broke
      cases broke
      exact absurd (Workspace.neutral_setVariable _ _ _ _ _ _ refused) concerns
  · split at broke
    · cases broke
    · cases broke

private theorem perform_of_shifts {number places : Int}
    (shifts : instruction.opcode.operation.Shifts) :
    perform instruction [number, places] machine =
      shift instruction number places (instruction.opcode.operation.beyond number places)
        machine := by
  unfold perform
  rw [Action.get_bind]
  rcases shifts with shifts | shifts
  · rw [shifts]
    rfl
  · rw [shifts]
    rfl

private theorem perform_shifts_eq_error {target : Int}
    (shifts : instruction.opcode.operation.Shifts) (whole : machine.work.memory.Whole)
    (named : instruction.storeTo = some target)
    (broke : perform instruction values machine = .error failure after)
    (concerns : ¬ failure.IsNeutral) :
    ∃ number places, values = [number, places] ∧ 15 < |places| ∧
      machine.work.Assignable target ∧
      failure = .ofCause (.shiftOutOfRange instruction.name places) ∧
      after = { machine with
        work :=
          machine.work.assigned target (instruction.opcode.operation.beyond number places) } := by
  by_cases two : values.length = 2
  · obtain ⟨number, places, rfl⟩ := List.length_eq_two.mp two
    rw [perform_of_shifts shifts] at broke
    exact ⟨number, places, rfl, shift_eq_error whole named broke concerns⟩
  · have undivided (divides : instruction.opcode.operation.Divides) : values.getD 1 0 ≠ 0 :=
      absurd divides shifts.not_divides
    rw [perform_surplus shifts.takesTwo two undivided] at broke
    cases broke
    exact absurd (Failure.isNeutral_breach _) concerns

/-! ## Instructions -/

/-- How an instruction that stores its result meets a fault of an object or of arithmetic: before
it has done anything, or in a shift, which stores a result of its own. -/
inductive StoringFault (instruction : Instruction) (machine : Machine) :
    Fault → Machine → Prop where
  | before {cause : Cause}
      (origin : cause.kind = .object ∧ instruction.opcode.operation.asksObject = true ∨
        cause.kind = .arithmetic ∧ instruction.opcode.operation.Divides) :
      StoringFault instruction machine { cause } (machine.dropTop instruction.popCount)
  | shifted {number places target : Int} (shifts : instruction.opcode.operation.Shifts)
      (given : operandValues instruction machine =
        .ok [number, places] (machine.dropTop instruction.popCount))
      (far : 15 < |places|) (named : instruction.storeTo = some target)
      (assignable : (machine.work.dropTop instruction.popCount).Assignable target) :
      StoringFault instruction machine { cause := .shiftOutOfRange instruction.name places }
        { machine with
          work := (machine.work.dropTop instruction.popCount).assigned target
            (instruction.opcode.operation.beyond number places) }

/-- A fault of an object or of arithmetic is one of the operation: reading the operands and storing
the result raise no such fault. -/
theorem perform_eq_error_of_stores (protects : machine.core.Protects data)
    (ledger : machine.core.Ledger fun _ => True)
    (decoded : machine.instructionAt machine.pc = .ok instruction)
    (stores : instruction.opcode.stores = true)
    (broke : executeInstruction instruction machine = .error failure failed)
    (concerns : ¬ failure.IsNeutral) :
    ∃ values, operandValues instruction machine =
        .ok values (machine.dropTop instruction.popCount) ∧
      perform instruction values (machine.dropTop instruction.popCount) =
        .error failure failed := by
  have closed := closed_protects data
  have listed := Instruction.opcode_mem_all_of_read decoded
  have within := Instruction.within_of_read decoded
  have fits : instruction.Fits fun _ => True := within.fits fun _ _ => trivial
  rcases Action.bind_eq_error broke with broke | ⟨values, read, given, broke⟩
  · exact absurd (neutral_operandValues instruction _ _ _ broke) concerns
  have operands := (ensures_given closed listed).of_ok ⟨protects, ledger⟩ given
  obtain rfl := operandValues_eq_ok given
  refine ⟨values, given, ?_⟩
  rcases Action.bind_eq_error broke with broke | ⟨next, performed, asked, broke⟩
  · exact broke
  have performs := ensures_perform closed fits (operands.2.length.trans_le within.operands)
    operands.2.signed fun _ _ => trivial
  have fitting := (performs.of_ok operands.1 asked).2
  refine absurd (neutral_settle ?_ _ _ _ broke) concerns
  rintro rfl
  exact Opcode.not_restart_of_stores _ listed stores fitting

private theorem storingFault_of_stores {fault : Fault} (protects : machine.core.Protects data)
    (ledger : machine.core.Ledger fun _ => True)
    (decoded : machine.instructionAt machine.pc = .ok instruction)
    (stores : instruction.opcode.stores = true)
    (broke : executeInstruction instruction machine = .error (.fault fault) failed)
    (kind : fault.kind = .object ∨ fault.kind = .arithmetic) :
    StoringFault instruction machine fault failed := by
  have concerns := Failure.not_isNeutral kind
  obtain ⟨values, given, performs⟩ :=
    perform_eq_error_of_stores protects ledger decoded stores broke concerns
  rcases Opcode.sorts_of_stores _ (Instruction.opcode_mem_all_of_read decoded) stores with
    plainly | asks | divides | shifts
  · by_cases reads : instruction.opcode.operation = .readLine
    · have late : 5 ≤ (machine.dropTop instruction.popCount).image.version := by
        exact_mod_cast Instruction.late_of_read decoded stores reads
      unfold perform at performs
      rw [Action.get_bind] at performs
      simp only [reads] at performs
      rcases Action.bind_eq_error performs with unread | ⟨token, after, -, done⟩
      · exact absurd (beginLine_eq_error late unread) concerns
      · cases done
    · exact absurd (neutral_perform plainly reads _ _ _ performs) concerns
  · obtain ⟨rfl, cause, raised, ofObjects⟩ := perform_asksObject_eq_error asks performs
    cases raised
    refine .before (.inl ⟨kind.resolve_right fun arithmetic => ?_, asks⟩)
    rw [show cause.kind = .arithmetic from arithmetic] at ofObjects
    cases ofObjects
  · obtain ⟨rfl, raised | raised⟩ := perform_divides_eq_error divides performs
    · cases raised
    · cases raised
      exact .before (.inr ⟨rfl, divides⟩)
  · obtain ⟨target, named⟩ := Instruction.exists_target_of_read decoded stores
    have whole : (machine.dropTop instruction.popCount).work.memory.Whole :=
      protects.memory.dynamicEnd_le_size
    obtain ⟨number, places, rfl, far, assignable, raised, rfl⟩ :=
      perform_shifts_eq_error shifts whole named performs concerns
    cases raised
    exact .shifted shifts given far named assignable

/-- The step of an instruction that meets a recoverable fault. -/
theorem step_of_recoverable {before : Machine} {fault : Fault}
    (executes : Executes before instruction machine)
    (broke : executeInstruction instruction machine = .error (.fault fault) failed)
    (recoverable : fault.recoverable = true) (goesOn : failed.classifier.policy ≠ .abort) :
    ∃ after, step before = .ok () after ∧ after.pc = instruction.nextAddress ∧
      after.work = failed.work := by
  obtain ⟨after, handled, goesBehind⟩ := handleFault_eq_ok recoverable goesOn
  refine ⟨after, ?_, goesBehind⟩
  rw [step_of_executes executes]
  exact (Action.onFault_of_fault broke).trans handled

/-- An instruction that stores a result and fails because of an object or of arithmetic leaves the
game as it was, but that its operands were read. Only a shift by more than fifteen places leaves a
result in its variable. A policy that goes on does so behind the instruction, with the game as the
instruction left it. -/
theorem storing_faults_skip {fresh start : Machine} {fault : Fault}
    (unused : fresh.requests = #[]) (accepted : reset fresh = .ok () start) (events : List Event)
    (executes : Executes (start.after events) instruction machine)
    (stores : instruction.opcode.stores = true)
    (broke : executeInstruction instruction machine = .error (.fault fault) failed)
    (kind : fault.kind = .object ∨ fault.kind = .arithmetic) :
    (fault.kind = .object ∨ instruction.opcode.operation.Divides →
      failed.work = machine.work.dropTop instruction.popCount) ∧
    (fault.kind = .arithmetic →
      instruction.opcode.operation.Divides ∨ instruction.opcode.operation.Shifts) ∧
    (instruction.opcode.operation.Shifts → ∃ number places target,
      operandValues instruction machine =
        .ok [number, places] (machine.dropTop instruction.popCount) ∧
      15 < |places| ∧ instruction.storeTo = some target ∧
      failed.work = (machine.work.dropTop instruction.popCount).assigned target
        (instruction.opcode.operation.beyond number places) ∧
      Workspace.getVariable target true failed.work =
        .ok (instruction.opcode.operation.beyond number places) failed.work) ∧
    (fresh.classifier.policy ≠ .abort →
      ∃ after, step (start.after events) = .ok () after ∧ after.pc = instruction.nextAddress ∧
        after.work = failed.work) := by
  have closed := closed_terms (closed_protects fresh.file.data) fresh.terms
  have begun : (start.core.Protects fresh.file.data ∧ start.core.Ledger fun _ => True) ∧
      start.terms = fresh.terms :=
    ⟨⟨protects_of_reset accepted, ledger_of_reset accepted unused⟩, terms_of_reset accepted⟩
  have holds := closed.passes begun (.executing executes)
  have policy : machine.classifier.policy = fresh.classifier.policy :=
    congrArg Terms.policy holds.2
  rw [← policy]
  have met := storingFault_of_stores holds.1.1 holds.1.2 executes.instructionAt stores broke kind
  cases met with
  | before origin =>
      refine ⟨fun _ => rfl, fun arithmetic => .inl ?_, fun shifts => ?_,
        step_of_recoverable executes broke (Cause.recoverable_of_kind kind)⟩
      · rcases origin with ⟨object, -⟩ | ⟨-, divides⟩
        · cases object.symm.trans arithmetic
        · exact divides
      · rcases origin with ⟨-, asks⟩ | ⟨-, divides⟩
        · rcases shifts with shifts | shifts
          · rw [shifts] at asks
            cases asks
          · rw [shifts] at asks
            cases asks
        · exact absurd divides shifts.not_divides
  | @shifted number places target shifts given far named assignable =>
      refine ⟨fun skipped => ?_, fun _ => .inr shifts,
        fun _ => ⟨number, places, target, given, far, named, rfl, ?_⟩,
        step_of_recoverable executes broke rfl⟩
      · rcases skipped with object | divides
        · cases object
        · exact absurd divides shifts.not_divides
      · have whole : (machine.work.dropTop instruction.popCount).memory.Whole :=
          holds.1.1.memory.dynamicEnd_le_size
        have read := Workspace.getVariable_assigned whole assignable
          (instruction.opcode.operation.beyond number places)
        rw [Word.natCast_ofInt, Operation.beyond_emod] at read
        exact read

/-- The sample story in version five: it puts minus two on the stack, shifts it sixteen places to
the right, and asks for the parent of no object. -/
def faultyStory : Array UInt8 :=
  (((sampleStory.toList.set 0 5).set 7 96) ++
    [0xe8, 0x3f, 0xff, 0xfe, 0xbe, 3, 0x8f, 0, 0xff, 0xf0, 16, 0x93, 0, 16, 0xba, 0]).toArray

/-- The sample machine with that story, started. -/
def faulty : Machine :=
  reset.finalState { sample with file.data := faultyStory }

/-- The shift of that story. -/
def faultyShift : Instruction where
  address := 100
  form := .extended
  opcode :=
    { group := .extended, number := 3, name := "art_shift", operation := .arithmeticShift,
      stores := true, senses := [.signed, .signed], least := 2 }
  operands := [⟨.variable, 0⟩, ⟨.large, 0xfff0⟩]
  storeTo := some 16
  resultAddress := 106
  nextAddress := 107

/-- The question of that story. -/
def faultyQuestion : Instruction where
  address := 107
  form := .short
  opcode :=
    { group := .oneOperand, number := 3, name := "get_parent", operation := .getParent,
      stores := true, senses := [.unsigned], least := 1 }
  operands := [⟨.small, 0⟩]
  storeTo := some 16
  resultAddress := 109
  nextAddress := 110

/-- The machine on the point of the shift, and on the point of the question. -/
def faultyShifting : Machine :=
  (faulty.after [.step]).poised.taking faultyShift

def faultyAsking : Machine :=
  (faulty.after [.step, .step]).poised.taking faultyQuestion

private theorem executes_faultyShift : Executes (faulty.after [.step]) faultyShift faultyShifting :=
  executes_poised (by decide +kernel) (by decide +kernel) (by decide +kernel) (by decide +kernel)

private theorem executes_faultyQuestion :
    Executes (faulty.after [.step, .step]) faultyQuestion faultyAsking :=
  executes_poised (by decide +kernel) (by decide +kernel) (by decide +kernel) (by decide +kernel)

/-- The shift takes its number off the stack and stores what is left of it; the question changes
nothing. -/
theorem storing_faults_skip_faulty :
    (faultyShifting.work.calls.current.stack = [0xfffe] ∧
      ∃ after, step (faulty.after [.step]) = .ok () after ∧ after.pc = 107 ∧
        after.work = (faultyShifting.work.dropTop 1).assigned 16 0xffff ∧
        Workspace.getVariable 16 true after.work = .ok 0xffff after.work) ∧
    ∃ after, step (faulty.after [.step, .step]) = .ok () after ∧ after.pc = 110 ∧
      after.work = faultyAsking.work := by
  have started : reset { sample with file.data := faultyStory } = .ok () faulty :=
    Action.eq_ok_finalState (by decide +kernel)
  refine ⟨⟨by decide +kernel, ?_⟩, ?_⟩
  · have broke : executeInstruction faultyShift faultyShifting =
        .error (.ofCause (.shiftOutOfRange "art_shift" (-16)))
          ((executeInstruction faultyShift).finalState faultyShifting) :=
      Action.eq_error_of_answer (by decide +kernel)
    obtain ⟨-, -, shifted, goesOn⟩ := storing_faults_skip rfl started [.step]
      executes_faultyShift rfl broke (.inr rfl)
    obtain ⟨number, places, target, given, -, named, work, read⟩ := shifted (.inr rfl)
    obtain ⟨after, stepped, pc, left⟩ := goesOn (by decide)
    have values : (operandValues faultyShift).answer faultyShifting = .ok [-2, -16] := by
      decide +kernel
    rw [Action.answer, given] at values
    cases values
    cases named
    rw [← left] at work read
    exact ⟨after, stepped, pc, work, read⟩
  · have broke : executeInstruction faultyQuestion faultyAsking =
        .error (.ofCause (.invalidObject 0))
          ((executeInstruction faultyQuestion).finalState faultyAsking) :=
      Action.eq_error_of_answer (by decide +kernel)
    obtain ⟨skipped, -, -, goesOn⟩ := storing_faults_skip rfl started [.step, .step]
      executes_faultyQuestion rfl broke (.inl rfl)
    obtain ⟨after, stepped, pc, left⟩ := goesOn (by decide)
    have work := skipped (.inl rfl)
    rw [← left, show faultyQuestion.popCount = 0 from rfl, Workspace.dropTop_zero] at work
    exact ⟨after, stepped, pc, work⟩

end Machine

end StoryMachine
