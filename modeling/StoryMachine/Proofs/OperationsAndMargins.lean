import StoryMachine.Proofs.ActionsAndMargins

/-!
# Operations that ignore the margin

Every operation but the two on undo snapshots ignores the margin, and so does an
instruction with such an operation.
-/

namespace StoryMachine

namespace Machine

variable {α β : Type}

namespace IgnoresMargin

/-- What is made of an answer ignores the margin. -/
theorem answered {first : Play α} (head : IgnoresMargin first) (answer : α → β) :
    IgnoresMargin (first >>= fun a => Pure.pure (answer a)) :=
  head.bind fun _ => .pure _

/-- Logging a failure ignores the margin if what failed does. -/
theorem orLogged {what : String} {default : α} {action : Play α} (ignores : IgnoresMargin action) :
    IgnoresMargin (orLogged what default action) := by
  have logged (message : String) : IgnoresMargin (do
      note .error "zmachine.interpreter" message
      return default) :=
    (ignoresMargin_note _ _ _).answered _
  have rescued (failure : Failure) :
      IgnoresMargin (Machine.orLogged what default fun s => .error failure s) := by
    cases failure with
    | fault fault => exact logged s!"{what} failed: {fault.message}"
    | breach breach =>
        cases breach with
        | system error => exact logged s!"{what} failed: {error.message}"
        | _ => exact fun _ => .failed _
  intro machine
  cases answered : action.answer machine with
  | ok a =>
      refine (ignores machine).continued (pure a _) fun start same => ?_
      unfold Machine.orLogged
      rw [Action.eq_ok_finalState (same.trans answered)]
      rfl
  | error failure =>
      refine (ignores machine).continued (rescued failure _) fun start same => ?_
      unfold Machine.orLogged
      rw [Action.eq_error_of_answer (same.trans answered)]

end IgnoresMargin

/-! ## Saving and restoring -/

private theorem ignoresMargin_store (data : List UInt8) : IgnoresMargin (store data) := by
  unfold store
  refine .get (fun _ _ => rfl) fun machine => ?_
  split
  · exact .modify_then (fun _ => rfl) (fun _ _ => rfl) fun _ => .pure true
  · exact .refuse _
  · exact .pure false
  · refine .bind (ignoresMargin_prompt _) fun name => ?_
    split
    · exact .pure false
    · refine .get (fun _ _ => rfl) fun machine => .bind (.lift _) fun disk => ?_
      refine .modify_then (fun _ => rfl) (fun _ _ => rfl) fun _ => ?_
      exact (ignoresMargin_note _ _ _).answered _

private theorem ignoresMargin_retrieve : IgnoresMargin retrieve := by
  unfold retrieve
  refine .get (fun _ _ => rfl) fun machine => ?_
  split
  · exact .refuse _
  · exact .pure none
  · exact .pure _
  · refine .bind (ignoresMargin_prompt _) fun name => .get (fun _ _ => rfl) fun machine => ?_
    dsimp only
    split
    · exact (ignoresMargin_note _ _ _).answered _
    · exact .answered (.lift _) _

private theorem ignoresMargin_save (instruction : Instruction) : IgnoresMargin (save instruction) := by
  have written : IgnoresMargin (do
      let machine ← get
      let data ←
        SaveFile.encode (machine.snapshot instruction.resultAddress) machine.freshDynamic
      return some (← store data)) := by
    refine .get (fun _ _ => rfl) fun machine => .bind (.lift _) fun data => ?_
    exact (ignoresMargin_store data).answered _
  refine .bind written.orLogged fun result => ?_
  split
  · exact (ignoresMargin_note _ _ _).answered _
  · exact .pure false

private theorem ignoresMargin_skipped (skipped : List String) :
    IgnoresMargin (skipped.forM
      fun id => note .debug "zmachine.quetzal" s!"Skipping {id} chunk in save")
      := by
  induction skipped with
  | nil => exact .pure ()
  | cons id rest ih => exact .bind (ignoresMargin_note _ _ _) fun _ => ih

private theorem ignoresMargin_loadSave (data : List UInt8) : IgnoresMargin (loadSave data) := by
  unfold loadSave
  refine .get (fun _ _ => rfl) fun machine => .bind (ignoresMargin_skipped _) fun _ => ?_
  refine .bind (.lift _) fun game => ?_
  dsimp only
  refine .check (.fault _) fun _ => .check (.fault _) fun _ => ?_
  exact .answered (.lift _) _

private theorem ignoresMargin_restore : IgnoresMargin restore := by
  refine .bind (.orLogged (.bind ignoresMargin_retrieve fun data => ?_)) fun game => ?_
  · split
    · exact .pure none
    · exact (ignoresMargin_loadSave _).answered _
  split
  · exact .pure false
  · refine .bind (ignoresMargin_applySnapshot _) fun _ => .bind (ignoresMargin_resumeAfterSave _)
      fun _ => ?_
    exact (ignoresMargin_note _ _ _).answered _

/-! ## Text and tables -/

private theorem ignoresMargin_printAt (address : Int) : IgnoresMargin (printAt address) :=
  .get (fun _ _ => rfl) fun _ => .bind (ignoresMargin_ask _) ignoresMargin_print

private theorem ignoresMargin_printRow (address : Int) (width : Nat) :
    IgnoresMargin (printRow address width) :=
  .bind (ignoresMargin_ask _) fun _ => .get (fun _ _ => rfl) fun _ => ignoresMargin_print _

private theorem ignoresMargin_printRows (width skip : Int) (rows : Nat) (address : Int) :
    IgnoresMargin (printRows width skip rows address) := by
  induction rows generalizing address with
  | zero => exact .pure ()
  | succ rows ih =>
      exact .bind ignoresMargin_newLine fun _ => .bind (ignoresMargin_printRow _ _) fun _ => ih _

private theorem ignoresMargin_printTable (address width height skip : Int) :
    IgnoresMargin (printTable address width height skip) := by
  unfold printTable
  split
  · exact .pure ()
  · exact .bind (ignoresMargin_printRow _ _) fun _ => ignoresMargin_printRows _ _ _ _

private theorem ignoresMargin_encodeText (address length target : Int) :
    IgnoresMargin (encodeText address length target) := by
  refine .bind (ignoresMargin_ask _) fun codes => .get (fun _ _ => rfl) fun machine => ?_
  exact .bind (.lift _) fun bytes => ignoresMargin_onMemory _

private theorem ignoresMargin_tokeniseBuffer (textBuffer parseBuffer dictionaryAddress : Int)
    (skipUnknown : Bool) :
    IgnoresMargin (tokeniseBuffer textBuffer parseBuffer dictionaryAddress skipUnknown) := by
  refine .get (fun _ _ => rfl) fun machine => ?_
  dsimp only
  split
  · refine .bind (.pure _) fun dictionary => .bind (ignoresMargin_ask _) fun found => ?_
    exact (ignoresMargin_onMemory _).answered _
  · refine .bind (ignoresMargin_ask _) fun dictionary => .bind (ignoresMargin_ask _) fun found => ?_
    exact (ignoresMargin_onMemory _).answered _

private theorem ignoresMargin_copyTable (first second size : Int) :
    IgnoresMargin (copyTable first second size) := by
  unfold copyTable
  split
  · exact ignoresMargin_onMemory _
  split
  · exact ignoresMargin_onMemory _
  · exact .bind (ignoresMargin_ask _) fun _ => ignoresMargin_onMemory _

/-! ## Numbers and sounds -/

private theorem ignoresMargin_changeVariable (number change : Int) :
    IgnoresMargin (changeVariable number change) :=
  .bind (ignoresMargin_onWork _) fun _ => (ignoresMargin_onWork _).answered _

private theorem ignoresMargin_shift (instruction : Instruction) (number places beyond : Int) :
    IgnoresMargin (shift instruction number places beyond) := by
  have shifted : IgnoresMargin (if 0 ≤ places then
      pure (Next.store (number * Nat.pow 2 places.toNat % 65536))
    else pure (Next.store (Int.fdiv number (Nat.pow 2 places.natAbs))) : Play Next) := by
    split
    · exact .pure _
    · exact .pure _
  unfold shift
  dsimp only
  split
  · split
    · exact .bind (.fault _) fun _ => shifted
    · exact .bind (ignoresMargin_onWork _) fun _ => .bind (.fault _) fun _ => shifted
  · exact shifted

private theorem ignoresMargin_reseed (value : Int) : IgnoresMargin (reseed value) :=
  .bind (ignoresMargin_note _ _ _) fun _ => .modify (fun _ => rfl) fun _ _ => rfl

private theorem ignoresMargin_orderSound (call : SoundCall) : IgnoresMargin (orderSound call) := by
  refine .modify (fun machine => ?_) fun _ _ => rfl
  unfold surroundings
  cases machine.sound <;> rfl

private theorem ignoresMargin_playSound (number volume routine : Int) :
    IgnoresMargin (playSound number volume routine) := by
  intro machine
  refine .get (fun _ => rfl) ?_
  dsimp only
  split
  · exact IgnoresMargin.pure () machine
  · rename_i device present
    refine .bind (.modify ?_ fun _ => rfl) fun _ after _ => (?_ : IgnoresMargin _) after
    · unfold surroundings SoundDevice.play SoundDevice.order
      rw [present]
      rfl
    split
    · exact .pure ()
    split
    · exact .modify (fun _ => rfl) fun _ _ => rfl
    · exact .pure ()

private theorem ignoresMargin_soundEffect (number effect volume routine : Int) :
    IgnoresMargin (soundEffect number effect volume routine) := by
  unfold soundEffect
  split
  · exact ignoresMargin_orderSound _
  split
  · exact ignoresMargin_orderSound _
  split
  · exact ignoresMargin_playSound _ _ _
  split
  · exact ignoresMargin_orderSound _
  split
  · exact ignoresMargin_orderSound _
  · exact .pure ()

/-! ## All operations -/

private theorem ignoresMargin_performCall (instruction : Instruction) (dropResult : Bool)
    (values : List Int) :
    IgnoresMargin (performCall instruction dropResult values) := by
  unfold performCall
  split
  · exact .refuse _
  · dsimp only
    split
    · exact .pure _
    · exact .get (fun _ _ => rfl) fun _ => .pure _

/-- An operation ignores the margin, unless it acts on undo snapshots. -/
theorem ignoresMargin_perform {instruction : Instruction}
    (stays : instruction.opcode.operation ≠ .saveUndo ∧ instruction.opcode.operation ≠ .restoreUndo)
    (values : List Int) : IgnoresMargin (perform instruction values) := by
  have change (number change : Int) : IgnoresMargin (do
      let value ← onWork (Workspace.getVariable number true)
      onWork (Workspace.setVariable number (value + change) true)
      return Next.proceed) :=
    .bind (ignoresMargin_onWork _) fun value => (ignoresMargin_onWork _).answered _
  have shown {change : Screen → Screen}
      (same : ∀ screen, (change screen).extent = screen.extent) : IgnoresMargin (do
        onScreen change
        return Next.proceed) :=
    (ignoresMargin_onScreen same).answered _
  have exactlyTwo : IgnoresMargin (if values.length = 2 then pure ()
      else Action.refuse .valueOutOfRange : Play Unit) := by
    split
    · exact .pure ()
    · exact .refuse _
  unfold perform
  refine .get (fun _ _ => rfl) fun machine => ?_
  dsimp only
  cases operation : instruction.opcode.operation with
  | newLine => exact ignoresMargin_newLine.answered _
  | print => exact (ignoresMargin_print _).answered _
  | printReturn => exact .bind (ignoresMargin_print _) fun _ => ignoresMargin_newLine.answered _
  | printPackedAddress => exact (ignoresMargin_printAt _).answered _
  | printAddress => exact (ignoresMargin_printAt _).answered _
  | printNumber => exact (ignoresMargin_print _).answered _
  | printChar => exact (ignoresMargin_print _).answered _
  | printUnicode => exact (ignoresMargin_print _).answered _
  | printObject =>
      exact .bind (ignoresMargin_ask _) fun text => (ignoresMargin_print text).answered _
  | printTable => exact (ignoresMargin_printTable _ _ _ _).answered _
  | tokenise => exact (ignoresMargin_tokeniseBuffer _ _ _ _).answered _
  | encodeText => exact (ignoresMargin_encodeText _ _ _).answered _
  | readLine => exact (ignoresMargin_beginLine instruction _ _ _ _).answered _
  | readChar => exact (ignoresMargin_newRequest _).answered _
  | inputStream => exact .modify_then (fun _ => rfl) (fun _ _ => rfl) fun _ => .pure _
  | eraseWindow =>
      exact (ignoresMargin_onScreen fun screen => screen.extent_eraseWindow _).answered _
  | getCursor =>
      refine .get (fun _ _ => rfl) fun _ => .bind (ignoresMargin_onMemory _) fun _ => ?_
      exact (ignoresMargin_onMemory _).answered _
  | setFont =>
      intro machine
      refine .get (fun _ => rfl) ?_
      refine IgnoresMarginAt.bind (.modify ?_ fun _ => rfl)
        fun _ after _ => IgnoresMargin.pure _ after
      exact surroundings_of_extent (machine.screen.extent_setFont _)
  | outputStream =>
      dsimp only
      split
      · exact (ignoresMargin_selectOutput _ _).answered _
      split
      · exact (ignoresMargin_deselectOutput _).answered _
      · exact .pure _
  | soundEffect => exact (ignoresMargin_soundEffect _ _ _ _).answered _
  | showStatus => exact .check ignoresMargin_showStatus fun _ => .pure _
  | call => exact ignoresMargin_performCall _ _ _
  | callDropping => exact ignoresMargin_performCall _ _ _
  | incrementCheck => exact (ignoresMargin_changeVariable _ _).answered _
  | decrementCheck => exact (ignoresMargin_changeVariable _ _).answered _
  | checkArgumentCount => exact .get (fun _ _ => rfl) fun _ => .pure _
  | catchFrame => exact .get (fun _ _ => rfl) fun _ => .pure _
  | verify =>
      exact .answered (.get (fun _ _ => rfl) fun _ => .answered (.lift _) _) _
  | loadWord => exact .bind exactlyTwo fun _ => (ignoresMargin_ask _).answered _
  | loadByte => exact .bind exactlyTwo fun _ => (ignoresMargin_ask _).answered _
  | pull => exact .bind (ignoresMargin_onWork _) fun _ => (ignoresMargin_onWork _).answered _
  | scanTable =>
      refine .check (.fault _) fun _ => .bind (ignoresMargin_ask _) fun found => ?_
      cases found with
      | some address => exact .pure _
      | none => exact .pure _
  | copyTable => exact (ignoresMargin_copyTable _ _ _).answered _
  | divide => exact .answered (.check (.fault _) fun _ => exactlyTwo) _
  | remainder => exact .answered (.check (.fault _) fun _ => exactlyTwo) _
  | increment => exact change _ 1
  | decrement => exact change _ (-1)
  | random =>
      dsimp only
      split
      · refine .get (fun _ _ => rfl) fun _ => ?_
        exact .modify_then (fun _ => rfl) (fun _ _ => rfl) fun _ => .pure _
      · exact (ignoresMargin_reseed _).answered _
  | bitTest => exact exactlyTwo.answered _
  | logicalShift => exact .bind exactlyTwo fun _ => ignoresMargin_shift _ _ _ _
  | arithmeticShift => exact .bind exactlyTwo fun _ => ignoresMargin_shift _ _ _ _
  | save =>
      dsimp only
      split
      · exact (ignoresMargin_note _ _ _).answered _
      · refine .bind (ignoresMargin_save instruction) fun saved => ?_
        split
        · exact .pure _
        · exact .pure _
  | restore =>
      dsimp only
      split
      · exact (ignoresMargin_note _ _ _).answered _
      · refine .bind ignoresMargin_restore fun restored => ?_
        split
        · exact .pure _
        split
        · exact .pure _
        · exact .pure _
  | saveUndo => exact absurd operation stays.1
  | restoreUndo => exact absurd operation stays.2
  | splitWindow => exact shown fun _ => rfl
  | setWindow => exact shown fun _ => rfl
  | setCursor => exact shown fun _ => rfl
  | setTextStyle => exact shown fun _ => rfl
  | bufferMode => exact shown fun _ => rfl
  | setColour => exact shown fun _ => rfl
  | returnPopped => exact (ignoresMargin_onWork _).answered _
  | throwTo => exact (ignoresMargin_onWork _).answered _
  | storeVariable => exact (ignoresMargin_onWork _).answered _
  | loadVariable => exact (ignoresMargin_onWork _).answered _
  | push => exact (ignoresMargin_onWork _).answered _
  | pop => exact (ignoresMargin_onWork _).answered _
  | storeWord => exact (ignoresMargin_onMemory _).answered _
  | storeByte => exact (ignoresMargin_onMemory _).answered _
  | removeObject => exact (ignoresMargin_onMemory _).answered _
  | insertObject => exact (ignoresMargin_onMemory _).answered _
  | setAttribute => exact (ignoresMargin_onMemory _).answered _
  | clearAttribute => exact (ignoresMargin_onMemory _).answered _
  | putProperty => exact (ignoresMargin_onMemory _).answered _
  | jumpInside => exact (ignoresMargin_ask _).answered _
  | getSibling => exact (ignoresMargin_ask _).answered _
  | getChild => exact (ignoresMargin_ask _).answered _
  | getParent => exact (ignoresMargin_ask _).answered _
  | testAttribute => exact (ignoresMargin_ask _).answered _
  | getProperty => exact (ignoresMargin_ask _).answered _
  | getPropertyAddress => exact (ignoresMargin_ask _).answered _
  | getNextProperty => exact (ignoresMargin_ask _).answered _
  | getPropertyLength => exact (ignoresMargin_ask _).answered _
  | _ => exact .pure _

/-! ## Instructions -/

/-- Storing a result ignores the margin. -/
theorem ignoresMargin_storeResult (instruction : Instruction) (value : Int) :
    IgnoresMargin (storeResult instruction value) := by
  unfold storeResult
  split
  · exact ignoresMargin_goTo _
  · exact .bind (ignoresMargin_onWork _) fun _ => ignoresMargin_goTo _

private theorem ignoresMargin_followBranch (instruction : Instruction) (outcome : Bool) :
    IgnoresMargin (followBranch instruction outcome) := by
  unfold followBranch
  split
  · split
    · exact ignoresMargin_takeBranch _ _
    · exact ignoresMargin_goTo _
  · exact ignoresMargin_goTo _

/-- To go on as an operation asks ignores the margin. -/
theorem ignoresMargin_settle (instruction : Instruction) (next : Next) :
    IgnoresMargin (settle instruction next) := by
  cases next with
  | proceed => exact ignoresMargin_goTo _
  | store value => exact ignoresMargin_storeResult _ value
  | branch outcome => exact ignoresMargin_followBranch _ outcome
  | storeAndBranch value outcome =>
      exact .bind (ignoresMargin_storeResult _ value) fun _ => ignoresMargin_followBranch _ outcome
  | call address storeTo arguments => exact ignoresMargin_callRoutine _ _ _ _ _
  | «return» value => exact ignoresMargin_returnFromRoutine value
  | jump offset => exact ignoresMargin_goTo _
  | quit => exact ignoresMargin_quit
  | restart => exact ignoresMargin_restart
  | read token => exact ignoresMargin_suspend token
  | moved => exact .pure ()

/-- Reading the operands ignores the margin. -/
theorem ignoresMargin_operandValues (instruction : Instruction) :
    IgnoresMargin (operandValues instruction) := by
  have one (sense : Sense) (operand : Operand) : IgnoresMargin (operandValue sense operand) := by
    unfold operandValue
    dsimp only
    split
    · exact (ignoresMargin_onWork _).answered _
    · exact .bind (.pure _) fun _ => .pure _
  have all (operands : List Operand) (index : Nat) :
      IgnoresMargin (operandValuesFrom instruction.opcode index operands) := by
    induction operands generalizing index with
    | nil => exact .pure []
    | cons operand rest ih => exact .bind (one _ operand) fun _ => (ih _).answered _
  exact .check (.fault _) fun _ => all _ 0

/-- An instruction ignores the margin, unless its operation acts on undo snapshots. -/
theorem ignoresMargin_executeInstruction {instruction : Instruction}
    (stays : instruction.opcode.operation ≠ .saveUndo ∧
      instruction.opcode.operation ≠ .restoreUndo) :
    IgnoresMargin (executeInstruction instruction) :=
  .bind (ignoresMargin_operandValues instruction) fun values =>
    .bind (ignoresMargin_perform stays values) fun next => ignoresMargin_settle instruction next

/-- Answering a read ignores the margin. -/
theorem ignoresMargin_answerRequest (request : InputRequest) (entry : Entry) (terminator : Int)
    (timedOut : Bool) : IgnoresMargin (answerRequest request entry terminator timedOut) := by
  unfold answerRequest
  split
  · refine .bind (ignoresMargin_changeRequest _ _) fun _ => ?_
    split
    · refine .modify_then (fun _ => rfl) (fun _ _ => rfl) fun _ => .get (fun _ _ => rfl) fun _ => ?_
      exact ignoresMargin_callRoutine _ _ _ _ _
    · exact .pure ()
  · split
    · exact ignoresMargin_finishLine _ _ _
    · exact ignoresMargin_finishKey _ _

end Machine

end StoryMachine
