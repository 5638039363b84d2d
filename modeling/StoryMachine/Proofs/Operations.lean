import StoryMachine.Proofs.Saving

/-!
# Operations are made of moves

Every operation is made of moves, and so is the way in which the machine goes on
after it. What an operation asks for fits: a jump is a signed word away, and a
call has at most seven arguments.
-/

namespace StoryMachine

open StoryMachine.Action (Ensures Keeps EndsIn)

/-- What an operation may ask for. -/
def Next.Fits (instruction : Instruction) : Next → Prop
  | .jump offset => offset ≤ 0x7fff
  | .call _ storeTo arguments =>
      (instruction.opcode.operation = .call ∧ storeTo = instruction.storeTo ∨
        instruction.opcode.operation = .callDropping ∧ storeTo = none) ∧ arguments.length ≤ 7
  | .restart => instruction.opcode.operation = .restart
  | .read _ => instruction.opcode.operation = .readLine ∨ instruction.opcode.operation = .readChar
  | _ => True

/-- The branch of an instruction, taken on an outcome, returns a value from the routine. -/
def Instruction.ReturnsOn (instruction : Instruction) (outcome : Bool) (value : Int) : Prop :=
  ∃ branch, instruction.branch = some branch ∧ outcome = branch.ifTrue ∧
    (branch.offset = 0 ∨ branch.offset = 1) ∧ value = branch.offset

/-- The kinds of moves, beyond those within the call, that going on takes. -/
def Next.Needs (instruction : Instruction) : Next → Machine.MoveKind → Prop
  | .call .., kind => kind = .call
  | .return _, kind => kind = .leave ∨ kind = .wait
  | .branch outcome, kind =>
      (kind = .leave ∨ kind = .wait) ∧ ∃ value, instruction.ReturnsOn outcome value
  | .storeAndBranch _ outcome, kind =>
      (kind = .leave ∨ kind = .wait) ∧ ∃ value, instruction.ReturnsOn outcome value
  | .restart, kind => kind = .replace
  | .read _, kind => kind = .wait
  | _, _ => False

/-- The operations that print text. -/
def Operation.prints : Operation → Bool
  | .newLine | .print | .printReturn | .printPackedAddress | .printAddress | .printNumber
  | .printChar | .printUnicode | .printObject | .printTable => true
  | _ => false

/-- The address that an instruction writes to, if it is told by the values of its operands. -/
def Instruction.target? (instruction : Instruction) (values : List Int) : Option Int :=
  let a := values.getD 0 0
  let b := values.getD 1 0
  match instruction.opcode.operation with
  | .storeWord => some ((a + 2 * b) % 65536)
  | .storeByte => some ((a + b) % 65536)
  | .getCursor => some a
  | .encodeText => some (values.getD 3 0)
  | .copyTable => some (if b = 0 then a else b)
  | _ => none

/-- With these values of its operands, an instruction does not write to the first byte of memory,
whatever streams are open and whatever saved games there are. -/
structure Instruction.Spares (instruction : Instruction) (values : List Int) : Prop where
  target : instruction.target? values ≠ some 0
  silent : instruction.opcode.operation.prints = false
  streams : instruction.opcode.operation ≠ .outputStream
  stays : instruction.opcode.operation ≠ .restore

/-- The kinds of moves, beyond those within the call, that an operation is made of. -/
def Operation.Needs : Operation → Machine.MoveKind → Prop
  | .throwTo, kind => kind = .leave
  | .restore, kind => kind = .replace ∨ kind = .leave ∨ kind = .wait
  | .restoreUndo, kind => kind = .replace ∨ kind = .leave ∨ kind = .wait
  | _, _ => False

namespace Machine

variable {α : Type} {least : Nat} {reach : Int → Prop} {allowed : MoveKind → Prop}
  {I : Machine → Prop} {instruction : Instruction}

/-! ## Going on -/

/-- Storing a result is made of moves. -/
theorem keeps_storeResult (survives : SurvivesFrom least reach allowed I)
    (fits : instruction.Fits reach) (value : Int) : Keeps I (storeResult instruction value) := by
  unfold storeResult
  split
  · exact keeps_goTo survives fits.nextAddress
  · refine .seq (survives.onWork fun changes => Workspace.keeps_setVariable changes _ _ _)
      fun _ => ?_
    exact keeps_goTo survives fits.nextAddress

private theorem keeps_followBranch (survives : SurvivesFrom least reach allowed I)
    (fits : instruction.Fits reach) {outcome : Bool}
    (returning : (∃ value, instruction.ReturnsOn outcome value) → allowed .leave ∧ allowed .wait) :
    Keeps I (followBranch instruction outcome) := by
  unfold followBranch
  split
  · rename_i branch branches
    split
    · rename_i taken
      intro machine holds
      refine endsIn_takeBranch survives (fun _ held => held) holds ?_
        (fits.next _ (fits.branch branch branches))
      intro returns
      obtain ⟨leaves, waits⟩ := returning ⟨_, branch, branches, taken, returns, rfl⟩
      exact keeps_returnFromRoutine survives leaves waits _ machine holds
    · exact keeps_goTo survives fits.nextAddress
  · exact keeps_goTo survives fits.nextAddress

/-- To go on as an operation asks is made of moves, of the kinds that it needs. -/
theorem keeps_settle (survives : SurvivesFrom least reach allowed I) (fits : instruction.Fits reach)
    {next : Next} (asked : next.Fits instruction)
    (may : ∀ kind, next.Needs instruction kind → allowed kind) :
    Keeps I (settle instruction next) := by
  cases next with
  | proceed => exact keeps_goTo survives fits.nextAddress
  | store value => exact keeps_storeResult survives fits value
  | branch outcome =>
      exact keeps_followBranch survives fits fun returns =>
        ⟨may _ ⟨.inl rfl, returns⟩, may _ ⟨.inr rfl, returns⟩⟩
  | storeAndBranch value outcome =>
      refine .seq (keeps_storeResult survives fits value) fun _ => ?_
      exact keeps_followBranch survives fits fun returns =>
        ⟨may _ ⟨.inl rfl, returns⟩, may _ ⟨.inr rfl, returns⟩⟩
  | call address storeTo arguments =>
      intro machine holds
      refine endsIn_callRoutine survives (may _ rfl) holds (.inl fits.nextAddress) ?_ asked.2
      intro target given
      rcases asked.1 with ⟨-, stored⟩ | ⟨-, dropped⟩
      · exact fits.target target (stored.symm.trans given)
      · rw [dropped] at given
        cases given
  | «return» value =>
      exact keeps_returnFromRoutine survives (may _ (.inl rfl)) (may _ (.inr rfl)) value
  | jump offset => exact keeps_goTo survives (fits.next offset asked)
  | quit => exact keeps_quit survives
  | restart => exact keeps_restart survives (may _ rfl)
  | read token => exact keeps_suspend survives (may _ rfl) token
  | moved => exact .pure trivial

/-! ## Text and tables -/

private theorem keeps_printAt (survives : SurvivesPrinting I) (address : Int) :
    Keeps I (printAt address) :=
  .get fun _ _ => .seq (keeps_ask _) fun text => keeps_print survives text

/-- Printing a row of a table keeps what survives printing. -/
theorem keeps_printRow (survives : SurvivesPrinting I) (address : Int)
    (width : Nat) : Keeps I (printRow address width) :=
  .seq (keeps_ask _) fun _ => .get fun _ _ => keeps_print survives _

private theorem keeps_printRows (survives : SurvivesPrinting I) (width skip : Int)
    (rows : Nat) : ∀ address : Int, Keeps I (printRows width skip rows address) := by
  induction rows with
  | zero => exact fun address => .pure trivial
  | succ rows ih =>
      intro address
      refine .seq (keeps_newLine survives) fun _ => ?_
      exact .seq (keeps_printRow survives _ _) fun _ => ih _

private theorem keeps_printTable (survives : SurvivesPrinting I)
    (address width height skip : Int) : Keeps I (printTable address width height skip) := by
  unfold printTable
  split
  · exact .pure trivial
  · exact .seq (keeps_printRow survives _ _) fun _ => keeps_printRows survives _ _ _ _

private theorem keeps_encodeText (survives : SurvivesFrom least reach allowed I)
    (address length : Int) {target : Int} (place : target < 0 ∨ least ≤ target) :
    Keeps I (encodeText address length target) := by
  unfold encodeText
  refine .seq (keeps_ask _) fun codes => .get fun machine _ => ?_
  refine .bind (.lift fun _ _ => trivial) fun encoded _ => ?_
  exact survives.onMemory fun edit => GameMemory.keeps_writeRun edit _ _ place

/-- Splits the words of the text buffer up with a dictionary. -/
def tokeniseWith (dictionary : Dictionary) (textBuffer parseBuffer : Int) (skipUnknown : Bool) :
    Play Unit := do
  let (codes, offset) ← ask (·.textBuffer textBuffer)
  let _ ← onMemory (dictionary.tokenise codes parseBuffer offset skipUnknown)

private theorem keeps_tokeniseBuffer (survives : SurvivesFrom least reach allowed I)
    (textBuffer parseBuffer dictionaryAddress : Int) (skipUnknown : Bool) :
    Keeps I (tokeniseBuffer textBuffer parseBuffer dictionaryAddress skipUnknown) := by
  have filled (dictionary : Dictionary) :
      Keeps I (tokeniseWith dictionary textBuffer parseBuffer skipUnknown) := by
    refine .seq (keeps_ask _) fun found => ?_
    refine .seq (survives.onMemory fun edit =>
      Dictionary.keeps_tokenise edit _ _ _ _ _ survives.low) fun _ => ?_
    exact .pure trivial
  unfold tokeniseBuffer
  refine .get fun machine _ => ?_
  dsimp only
  split
  · exact filled _
  · exact .seq (keeps_ask _) fun dictionary => filled dictionary

private theorem keeps_copyTable (survives : SurvivesFrom least reach allowed I) {first second : Int}
    (place : (if second = 0 then first else second) < 0 ∨
      least ≤ if second = 0 then first else second) (size : Int) :
    Keeps I (copyTable first second size) := by
  unfold copyTable
  split
  · rename_i none
    rw [if_pos none] at place
    exact survives.onMemory fun edit => GameMemory.keeps_writeRun edit _ _ place
  rename_i copied
  rw [if_neg copied] at place
  split
  · exact survives.onMemory fun edit => GameMemory.keeps_copyForwards edit _ _ _ place
  · refine .seq (keeps_ask _) fun bytes => ?_
    exact survives.onMemory fun edit => GameMemory.keeps_writeRun edit _ _ place

/-- A word is written at a valid address only. -/
theorem ensures_writeWord (survives : SurvivesFrom least reach allowed I) {address : Int}
    (place : address < 0 ∨ least ≤ address) (value : Int) :
    Ensures I (fun _ => 0 ≤ address) (onMemory (GameMemory.writeWord address value)) := by
  refine survives.onMemory fun edit => ?_
  unfold GameMemory.writeWord
  refine .get fun memory _ => .excluded fun inside => ?_
  refine .seq (GameMemory.keeps_write edit _ _ (by omega)) fun _ => ?_
  exact (GameMemory.keeps_write edit _ _ (by omega)).weaken fun _ _ => by omega

/-! ## Numbers and sound -/

private theorem keeps_changeVariable (survives : SurvivesFrom least reach allowed I) (number change : Int) :
    Keeps I (changeVariable number change) := by
  refine .seq (survives.onWork fun changes => Workspace.keeps_getVariable changes _ _)
    fun value => ?_
  refine .seq (survives.onWork fun changes => Workspace.keeps_setVariable changes _ _ _) fun _ => ?_
  exact .pure trivial

private theorem ensures_shift (survives : SurvivesFrom least reach allowed I) (number places beyond : Int) :
    Ensures I (Next.Fits instruction) (shift instruction number places beyond) := by
  have shifted : Ensures I (Next.Fits instruction) (if 0 ≤ places
      then pure (.store (number * Nat.pow 2 places.toNat % 65536))
      else pure (.store (Int.fdiv number (Nat.pow 2 places.natAbs)))) := by
    split
    · exact .pure trivial
    · exact .pure trivial
  unfold shift
  dsimp only
  split
  · split
    · exact .seq (.fault _) fun _ => shifted
    · refine .seq (survives.onWork fun changes => Workspace.keeps_setVariable changes _ _ _)
        fun _ => ?_
      exact .seq (.fault _) fun _ => shifted
  · exact shifted

private theorem keeps_reseed (survives : SurvivesAside I) (value : Int) : Keeps I (reseed value) :=
  .seq (keeps_note survives _ _ _) fun _ => survives.modify fun _ => ⟨rfl, rfl⟩

private theorem keeps_orderSound (survives : SurvivesAside I) (call : SoundCall) :
    Keeps I (orderSound call) :=
  survives.modify fun _ => ⟨rfl, rfl⟩

private theorem keeps_playSound (survives : SurvivesAside I) (number volume routine : Int) :
    Keeps I (playSound number volume routine) := by
  unfold playSound
  refine .get fun machine _ => ?_
  dsimp only
  split
  · exact .pure trivial
  refine .seq (survives.modify fun _ => ⟨rfl, rfl⟩) fun _ => ?_
  split
  · exact .pure trivial
  split
  · exact survives.modify fun _ => ⟨rfl, rfl⟩
  · exact .pure trivial

private theorem keeps_soundEffect (survives : SurvivesAside I) (number effect volume routine : Int) :
    Keeps I (soundEffect number effect volume routine) := by
  unfold soundEffect
  split
  · exact keeps_orderSound survives _
  split
  · exact keeps_orderSound survives _
  split
  · exact keeps_playSound survives _ _ _
  split
  · exact keeps_orderSound survives _
  split
  · exact keeps_orderSound survives _
  · exact .pure trivial

private theorem ensures_performCall {values : List Int} (few : values.length ≤ 8) {dropResult : Bool}
    (calls : instruction.opcode.operation = if dropResult then .callDropping else .call) :
    Ensures I (Next.Fits instruction) (performCall instruction dropResult values) := by
  cases values with
  | nil => exact .refuse _
  | cons packed arguments =>
      have skipped (dropped : Bool) :
          (if dropped then Next.proceed else .store 0).Fits instruction := by
        cases dropped <;> trivial
      unfold performCall
      dsimp only
      split
      · exact .pure (skipped _)
      · refine .get fun machine _ => .pure ⟨?_, Nat.le_of_succ_le_succ few⟩
        cases dropResult with
        | true => exact .inr ⟨calls, rfl⟩
        | false => exact .inl ⟨calls, rfl⟩

/-! ## All operations -/

/-- An operation that prints asks for nothing that does not fit. -/
theorem ensures_perform_of_prints (survives : SurvivesPrinting I)
    (prints : instruction.opcode.operation.prints = true) (values : List Int) :
    Ensures I (Next.Fits instruction) (perform instruction values) := by
  have proceeds {action : Play PUnit} (keeps : Keeps I action) :
      Ensures I (Next.Fits instruction) (do action; return .proceed) :=
    keeps.seq fun _ => .pure trivial
  unfold perform
  refine .get fun machine _ => ?_
  dsimp only
  cases operation : instruction.opcode.operation with
  | newLine => exact proceeds (keeps_newLine survives)
  | print => exact proceeds (keeps_print survives _)
  | printReturn =>
      refine .seq (keeps_print survives _) fun _ => ?_
      exact .seq (keeps_newLine survives) fun _ => .pure trivial
  | printPackedAddress => exact proceeds (keeps_printAt survives _)
  | printAddress => exact proceeds (keeps_printAt survives _)
  | printNumber => exact proceeds (keeps_print survives _)
  | printChar => exact proceeds (keeps_print survives _)
  | printUnicode => exact proceeds (keeps_print survives _)
  | printObject => exact .seq (keeps_ask _) fun text => proceeds (keeps_print survives text)
  | printTable => exact proceeds (keeps_printTable survives _ _ _ _)
  | _ =>
      rw [operation] at prints
      cases prints

/-- An operation whose operands spare the first bytes of memory, if they have to, is made of moves
that do. -/
theorem ensures_perform_of_spares (survives : SurvivesFrom least reach allowed I)
    (fits : instruction.Fits reach) {values : List Int} (few : values.length ≤ 8)
    (signed : instruction.opcode.operation = .jump → values.getD 0 0 ≤ 0x7fff)
    (may : ∀ kind, instruction.opcode.operation.Needs kind → allowed kind)
    (spares : least = 0 ∨ instruction.Spares values) :
    Ensures I (Next.Fits instruction) (perform instruction values) := by
  by_cases prints : instruction.opcode.operation.prints = true
  · obtain rfl : least = 0 := spares.resolve_right fun spared => by
      rw [spared.silent] at prints
      cases prints
    exact ensures_perform_of_prints survives.printing prints values
  have place {address : Int} (aims : instruction.target? values = some address) :
      address < 0 ∨ least ≤ address := by
    have low := survives.low
    rcases spares with rfl | spared
    · omega
    · have elsewhere : address ≠ 0 := fun zero => spared.target (zero ▸ aims)
      omega
  have proceeds {action : Play PUnit} (keeps : Keeps I action) :
      Ensures I (Next.Fits instruction) (do action; return .proceed) :=
    keeps.seq fun _ => .pure trivial
  have exactlyTwo : Keeps I (if values.length = 2 then pure () else
      Action.refuse .valueOutOfRange : Play Unit) := by
    split
    · exact .pure trivial
    · exact .refuse _
  have get (number : Int) : Keeps I (onWork (Workspace.getVariable number true)) :=
    survives.onWork fun changes => Workspace.keeps_getVariable changes _ _
  have set (number value : Int) : Keeps I (onWork (Workspace.setVariable number value true)) :=
    survives.onWork fun changes => Workspace.keeps_setVariable changes _ _ _
  have pop : Keeps I (onWork Workspace.pop) := survives.onWork Workspace.keeps_pop
  have shows (change : Screen → Screen) :
      Ensures I (Next.Fits instruction) (do onScreen change; return .proceed) :=
    proceeds (keeps_onScreen survives.survivesAside change)
  unfold perform
  refine .get fun machine holds => ?_
  have behind := survives.objects holds
  dsimp only
  cases operation : instruction.opcode.operation with
  | newLine | print | printReturn | printPackedAddress | printAddress | printNumber | printChar
  | printUnicode | printObject | printTable =>
      exact absurd (operation ▸ rfl) prints
  | checkUnicode => exact .pure trivial
  | tokenise => exact proceeds (keeps_tokeniseBuffer survives _ _ _ _)
  | encodeText =>
      have place := place (by unfold Instruction.target?; rw [operation])
      exact proceeds (keeps_encodeText survives _ _ place)
  | readLine =>
      refine .bind (ensures_beginLine survives fits (fun _ _ => Nat.zero_le _) _ _ _ _) ?_
      exact fun _ _ => .pure (.inl operation)
  | readChar =>
      refine .bind (ensures_beginKey survives fits (fun _ _ => Nat.zero_le _) _ _) ?_
      exact fun _ _ => .pure (.inr operation)
  | inputStream => exact proceeds (survives.aside fun _ => ⟨rfl, rfl⟩)
  | splitWindow => exact shows _
  | setWindow => exact shows _
  | eraseWindow => exact shows _
  | eraseLine => exact .pure trivial
  | setCursor => exact shows _
  | getCursor =>
      refine .get fun machine _ => ?_
      have place := place (by unfold Instruction.target?; rw [operation])
      refine .bind (ensures_writeWord survives place _) fun _ valid => proceeds ?_
      have low := survives.low
      exact survives.onMemory fun edit => GameMemory.keeps_writeWord edit _ _ (by omega)
  | setTextStyle => exact shows _
  | bufferMode => exact shows _
  | setColour => exact shows _
  | setTrueColour => exact .pure trivial
  | setFont =>
      refine .get fun machine _ => ?_
      exact .seq (keeps_onScreen survives.survivesAside _) fun _ => .pure trivial
  | outputStream =>
      dsimp only
      split
      · exact proceeds (keeps_selectOutput survives _ _)
      split
      · obtain rfl : least = 0 := spares.resolve_right fun spared => spared.streams operation
        exact proceeds fun machine holds =>
          endsIn_deselectOutput survives holds (fun _ _ => by omega) _
      · exact .pure trivial
  | soundEffect => exact proceeds (keeps_soundEffect survives.survivesAside _ _ _ _)
  | showStatus =>
      dsimp only
      split
      · exact proceeds (keeps_showStatus survives.survivesAside)
      · exact .pure trivial
  | call => exact ensures_performCall few operation
  | callDropping => exact ensures_performCall few operation
  | returnValue => exact .pure trivial
  | returnPopped => exact pop.seq fun _ => .pure trivial
  | returnTrue => exact .pure trivial
  | returnFalse => exact .pure trivial
  | jump => exact .pure (signed operation)
  | jumpEqual => exact .pure trivial
  | jumpLess => exact .pure trivial
  | jumpGreater => exact .pure trivial
  | jumpZero => exact .pure trivial
  | incrementCheck => exact (keeps_changeVariable survives _ _).seq fun _ => .pure trivial
  | decrementCheck => exact (keeps_changeVariable survives _ _).seq fun _ => .pure trivial
  | checkArgumentCount => exact .get fun _ _ => .pure trivial
  | catchFrame => exact .get fun _ _ => .pure trivial
  | throwTo =>
      have leaves : allowed .leave := may _ (operation ▸ rfl)
      exact .seq (keeps_unwind survives leaves _) fun _ => .pure trivial
  | piracy => exact .pure trivial
  | verify =>
      refine .seq ?_ fun _ => .pure trivial
      exact .get fun _ _ => .bind (.lift fun _ _ => trivial) fun _ _ => .pure trivial
  | storeVariable => exact proceeds (set _ _)
  | loadVariable => exact (get _).seq fun _ => .pure trivial
  | storeWord =>
      have place := place (by unfold Instruction.target?; rw [operation])
      exact proceeds (survives.onMemory fun edit => GameMemory.keeps_writeWord edit _ _ place)
  | storeByte =>
      have place := place (by unfold Instruction.target?; rw [operation])
      exact proceeds (survives.onMemory fun edit => GameMemory.keeps_write edit _ _ place)
  | loadWord => exact exactlyTwo.seq fun _ => .seq (keeps_ask _) fun _ => .pure trivial
  | loadByte => exact exactlyTwo.seq fun _ => .seq (keeps_ask _) fun _ => .pure trivial
  | push => exact proceeds (survives.onWork fun changes => Workspace.keeps_push changes _)
  | pull => exact pop.seq fun _ => proceeds (set _ _)
  | pop => exact pop.seq fun _ => .pure trivial
  | scanTable =>
      refine .check (.fault _) fun _ => .seq (keeps_ask _) fun found => ?_
      cases found with
      | some address => exact .pure trivial
      | none => exact .pure trivial
  | copyTable =>
      have place := place (by unfold Instruction.target?; rw [operation])
      exact proceeds (keeps_copyTable survives place _)
  | jumpInside => exact .seq (keeps_ask _) fun _ => .pure trivial
  | getSibling => exact .seq (keeps_ask _) fun _ => .pure trivial
  | getChild => exact .seq (keeps_ask _) fun _ => .pure trivial
  | getParent => exact .seq (keeps_ask _) fun _ => .pure trivial
  | removeObject =>
      exact proceeds (survives.onMemory fun edit => ObjectTable.keeps_remove edit _ _ behind)
  | insertObject =>
      exact proceeds (survives.onMemory fun edit => ObjectTable.keeps_insert edit _ _ _ behind)
  | testAttribute => exact .seq (keeps_ask _) fun _ => .pure trivial
  | setAttribute =>
      exact proceeds (survives.onMemory fun edit =>
        ObjectTable.keeps_changeAttribute edit _ _ _ _ behind)
  | clearAttribute =>
      exact proceeds (survives.onMemory fun edit =>
        ObjectTable.keeps_changeAttribute edit _ _ _ _ behind)
  | getProperty => exact .seq (keeps_ask _) fun _ => .pure trivial
  | getPropertyAddress => exact .seq (keeps_ask _) fun _ => .pure trivial
  | getNextProperty => exact .seq (keeps_ask _) fun _ => .pure trivial
  | getPropertyLength => exact .seq (keeps_ask _) fun _ => .pure trivial
  | putProperty =>
      exact proceeds (survives.onMemory fun edit =>
        ObjectTable.keeps_putProperty edit _ _ _ _ survives.low)
  | add => exact .pure trivial
  | subtract => exact .pure trivial
  | multiply => exact .pure trivial
  | divide => exact .seq (.check (.fault _) fun _ => exactlyTwo) fun _ => .pure trivial
  | remainder => exact .seq (.check (.fault _) fun _ => exactlyTwo) fun _ => .pure trivial
  | increment => exact (get _).seq fun _ => proceeds (set _ _)
  | decrement => exact (get _).seq fun _ => proceeds (set _ _)
  | random =>
      dsimp only
      split
      · refine .get fun machine _ => .seq (survives.aside fun _ => ⟨rfl, rfl⟩) fun _ => ?_
        exact .pure trivial
      · exact .seq (keeps_reseed survives.survivesAside _) fun _ => .pure trivial
  | bitNot => exact .pure trivial
  | bitTest => exact exactlyTwo.seq fun _ => .pure trivial
  | bitOr => exact .pure trivial
  | bitAnd => exact .pure trivial
  | logicalShift => exact exactlyTwo.seq fun _ => ensures_shift survives _ _ _
  | arithmeticShift => exact exactlyTwo.seq fun _ => ensures_shift survives _ _ _
  | quit => exact .pure trivial
  | nop => exact .pure trivial
  | restart => exact .pure operation
  | save =>
      dsimp only
      split
      · exact .seq (keeps_note survives.survivesAside _ _ _) fun _ => .pure trivial
      · refine .seq (keeps_save survives.survivesAside instruction) fun saved => ?_
        split
        · exact .pure trivial
        · exact .pure trivial
  | restore =>
      dsimp only
      split
      · exact .seq (keeps_note survives.survivesAside _ _ _) fun _ => .pure trivial
      · have replaces : allowed .replace := may _ (operation ▸ .inl rfl)
        have leaves : allowed .leave := may _ (operation ▸ .inr (.inl rfl))
        have waits : allowed .wait := may _ (operation ▸ .inr (.inr rfl))
        obtain rfl : least = 0 := spares.resolve_right fun spared => spared.stays operation
        refine .seq (keeps_restore survives replaces leaves waits) fun restored => ?_
        split
        · exact .pure trivial
        split
        · exact .pure trivial
        · exact .pure trivial
  | saveUndo => exact .seq (keeps_saveUndo survives fits) fun _ => .pure trivial
  | restoreUndo =>
      have replaces : allowed .replace := may _ (operation ▸ .inl rfl)
      have leaves : allowed .leave := may _ (operation ▸ .inr (.inl rfl))
      have waits : allowed .wait := may _ (operation ▸ .inr (.inr rfl))
      refine .seq (keeps_restoreUndo survives replaces leaves waits) fun restored => ?_
      split
      · exact .pure trivial
      · exact .pure trivial

/-- An operation is made of moves, and what it asks for fits. -/
theorem ensures_perform (survives : Survives reach allowed I) (fits : instruction.Fits reach)
    {values : List Int} (few : values.length ≤ 8)
    (signed : instruction.opcode.operation = .jump → values.getD 0 0 ≤ 0x7fff)
    (may : ∀ kind, instruction.opcode.operation.Needs kind → allowed kind) :
    Ensures I (Next.Fits instruction) (perform instruction values) :=
  ensures_perform_of_spares survives fits few signed may (.inl rfl)

end Machine

end StoryMachine
