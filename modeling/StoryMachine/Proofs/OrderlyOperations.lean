import StoryMachine.Proofs.Steadiness

/-!
# Orderly operations

Every operation of a machine in good order is orderly, and so is the way in which
the machine goes on after it, except for the operations that take their operands
as exactly two and for saving.
-/

namespace StoryMachine

open StoryMachine.Action (Ensures Keeps FailsOnly FaultsOnly FailsWith)

/-- The operations that take their operands as exactly two. The others leave surplus ones alone. -/
def Operation.takesTwo : Operation → Bool
  | .loadWord | .loadByte | .divide | .remainder | .bitTest | .logicalShift | .arithmeticShift =>
      true
  | _ => false

namespace Opcode

/-- The opcodes that take just two operands are checked to have two. -/
theorem least_takesTwo : ∀ opcode ∈ all, opcode.operation.takesTwo → opcode.least = 2 := by
  decide

private theorem least_call :
    ∀ opcode ∈ all, opcode.operation = .call ∨ opcode.operation = .callDropping →
      0 < opcode.least := by
  decide

end Opcode

namespace Machine

variable {reach : Int → Prop} {machine after : Machine} {story : Story} {fresh : GameMemory}
  {instruction : Instruction} {failure : Failure}

/-! ## Numbers, tables and sound -/

private theorem orderly_copyTable (first second size : Int) :
    Orderly story (copyTable first second size) := by
  unfold copyTable
  split
  · exact orderly_onMemory (GameMemory.faultsOnly_writeRun _ _)
  split
  · exact orderly_onMemory (GameMemory.faultsOnly_copyForwards _ _ _)
  · exact .seq (orderly_inquire fun image => image.failsWith_byteRun _ _) (keeps_ask _) fun _ =>
      orderly_onMemory (GameMemory.faultsOnly_writeRun _ _)

/-- A machine in good order reads a variable in an orderly way. -/
theorem orderly_getVariable (number : Int) (indirect : Bool) :
    Orderly story (onWork (Workspace.getVariable number indirect)) :=
  orderly_onWork (.of_faults (Workspace.failsWith_getVariable number indirect))

private theorem orderly_playSound (number volume routine : Int) :
    Orderly story (playSound number volume routine) := by
  refine FailsOnly.of_failsWith (R := fun _ => False) ?_ fun _ _ => False.elim
  unfold playSound
  refine .bind .get fun machine => ?_
  dsimp only
  split
  · exact .pure _
  refine .bind (.modify _) fun _ => ?_
  split
  · exact .pure _
  split
  · exact .modify _
  · exact .pure _

private theorem orderly_soundEffect (number effect volume routine : Int) :
    Orderly story (soundEffect number effect volume routine) := by
  unfold soundEffect
  split
  · exact .modify _
  split
  · exact .modify _
  split
  · exact orderly_playSound _ _ _
  split
  · exact .modify _
  split
  · exact .modify _
  · exact .pure _

private theorem orderly_verify : Orderly story verify :=
  .get fun machine _ => .ask (tolerates_of_faults (machine.story.faults_computedChecksum _))
    fun _ _ => .pure _

/-- A call has a routine to call. -/
theorem orderly_performCall {values : List Int} (some_value : 0 < values.length)
    (dropResult : Bool) : Orderly story (performCall instruction dropResult values) := by
  cases values with
  | nil => cases some_value
  | cons packed arguments =>
      unfold performCall
      dsimp only
      split
      · exact .pure _
      · exact .get fun _ _ => .pure _

section Operations

variable (loaded : Story.load story.data = .ok (story, fresh))

include loaded

/-! ## Going on -/

private theorem orderly_storeResult (instruction : Instruction) (value : Int) :
    Orderly story (storeResult instruction value) := by
  unfold storeResult
  split
  · exact .modify _
  · refine .seq (orderly_setVariable _ _ _) ?_ fun _ => .modify _
    exact (closed_steady loaded).onWork fun changes => Workspace.keeps_setVariable changes _ _ _

private theorem orderly_followBranch (instruction : Instruction) (outcome : Bool) :
    Orderly story (followBranch instruction outcome) := by
  unfold followBranch
  split
  · split
    · exact orderly_takeBranch loaded _ _
    · exact .modify _
  · exact .modify _

/-- A machine in good order goes on in an orderly way. -/
theorem orderly_settle (fits : instruction.Fits fun _ => True) (next : Next) :
    Orderly story (settle instruction next) := by
  cases next with
  | proceed => exact .modify _
  | store value => exact orderly_storeResult loaded instruction value
  | branch outcome => exact orderly_followBranch loaded instruction outcome
  | storeAndBranch value outcome =>
      exact .seq (orderly_storeResult loaded instruction value)
        (keeps_storeResult (closed_steady loaded) fits value) fun _ =>
          orderly_followBranch loaded instruction outcome
  | call address storeTo arguments => exact orderly_callRoutine _ _ _ _ _
  | «return» value => exact orderly_returnFromRoutine loaded value
  | jump offset => exact .modify _
  | quit => exact unfailing_quit loaded
  | restart => exact unfailing_restart loaded
  | read token => exact unfailing_suspend loaded token
  | moved => exact .pure _

/-! ## Text and tables -/

private theorem orderly_printAt (address : Int) : Orderly story (printAt address) := by
  refine .get fun machine steady => ?_
  rw [show machine.story = story from steady.attends.story]
  refine .seq (orderly_ask fun image => ?_) (keeps_ask _) fun text => orderly_print loaded text
  exact story.codec.failsWith_decode image address _

private theorem orderly_printRow (address : Int) (width : Nat) : Orderly story (printRow address width) :=
  .seq (orderly_inquire fun image => image.failsWith_byteRun address width) (keeps_ask _) fun _ =>
    .get fun _ _ => orderly_print loaded _

private theorem orderly_printRows (width skip : Int) (rows : Nat) (address : Int) :
    Orderly story (printRows width skip rows address) := by
  have closed := closed_steady loaded
  induction rows generalizing address with
  | zero => exact .pure _
  | succ rows ih =>
      refine .seq (orderly_newLine loaded) (keeps_newLine closed.printing) fun _ => ?_
      exact .seq (orderly_printRow loaded _ _) (keeps_printRow closed.printing _ _) fun _ => ih _

private theorem orderly_printTable (address width height skip : Int) :
    Orderly story (printTable address width height skip) := by
  unfold printTable
  split
  · exact .pure _
  · refine .seq (orderly_printRow loaded _ _) ?_ fun _ => orderly_printRows loaded _ _ _ _
    exact keeps_printRow (closed_steady loaded).printing _ _

private theorem orderly_encodeText (address length target : Int) :
    Orderly story (encodeText address length target) := by
  refine .seq (orderly_inquire fun image => image.failsWith_byteRun _ _) (keeps_ask _)
    fun codes => ?_
  refine .get fun machine steady => ?_
  rw [show machine.story = story from steady.attends.story]
  obtain ⟨bytes, packed⟩ := (Story.codec_of_load loaded).1.encrypt_eq_ok
    (story.codec.zsciiTexts (codes.map Int.ofNat))
  refine .ask (fun _ => ?_) fun _ _ => orderly_onMemory (GameMemory.faultsOnly_writeRun _ _)
  rw [packed]
  exact Result.failsWith_ok bytes

private theorem orderly_tokeniseBuffer (textBuffer parseBuffer dictionaryAddress : Int)
    (skipUnknown : Bool) :
    Orderly story (tokeniseBuffer textBuffer parseBuffer dictionaryAddress skipUnknown) := by
  obtain ⟨compact, same⟩ := Story.codec_of_load loaded
  have filled {dictionary : Dictionary} (known : dictionary.codec = story.codec) :
      Orderly story (tokeniseWith dictionary textBuffer parseBuffer skipUnknown) := by
    rw [← known] at compact
    refine .seq (orderly_inquire fun image => image.failsWith_textBuffer _) (keeps_ask _) ?_
    intro found
    exact .answered (orderly_onMemory (Dictionary.faultsOnly_tokenise compact _ _ _ _)) _
  refine .get fun machine steady => ?_
  rw [show machine.story = story from steady.attends.story]
  dsimp only
  split
  · exact filled same
  · refine .bind (orderly_inquire fun image => Dictionary.failsWith_load story.codec image _) ?_
      fun dictionary known => filled known
    exact ensures_ask fun image dictionary read => Dictionary.codec_of_load read

/-! ## Numbers -/

private theorem orderly_changeVariable (number change : Int) :
    Orderly story (changeVariable number change) := by
  refine .seq (orderly_getVariable _ _) ?_ fun value => .answered (orderly_setVariable _ _ _) _
  exact (closed_steady loaded).onWork fun changes => Workspace.keeps_getVariable changes _ _

private theorem orderly_shift (number places beyond : Int) :
    Orderly story (shift instruction number places beyond) := by
  have faults {rest : PUnit → Play Next} :
      Orderly story (Action.fault (.shiftOutOfRange instruction.name places) >>= rest) := by
    rintro machine after failure _ ⟨⟩
    exact tolerates_ofCause _ _
  unfold shift
  dsimp only
  split
  · split
    · exact faults
    · refine .seq (orderly_setVariable _ _ _) ?_ fun _ => faults
      exact (closed_steady loaded).onWork fun changes => Workspace.keeps_setVariable changes _ _ _
  · split
    · exact .pure _
    · exact .pure _

/-! ## All operations -/

/-- An operation that does not save is orderly, if it has two operands wherever it takes them as
two. -/
theorem orderly_perform {values : List Int} (given : instruction.Given values)
    (pair : instruction.opcode.operation.takesTwo = true → values.length = 2)
    (unsaving : instruction.opcode.operation ≠ .save) :
    Orderly story (perform instruction values) := by
  have closed := closed_steady loaded
  have memory {action : GameMemory.Edit Unit} (fails : FaultsOnly GameMemory.Whole action) :
      Orderly story (do onMemory action; return Next.proceed) :=
    .answered (orderly_onMemory fails) _
  have asks {α : Type} {question : Image → Result α}
      (faults : ∀ image, Result.Faults (question image)) (answer : α → Next) :
      Orderly story (do return answer (← ask question)) :=
    .answered (orderly_inquire faults) _
  have kept (number : Int) : Keeps (Steady story) (onWork (Workspace.getVariable number true)) :=
    closed.onWork fun changes => Workspace.keeps_getVariable changes _ _
  have some_value (calls : instruction.opcode.operation = .call ∨
      instruction.opcode.operation = .callDropping) : 0 < values.length := by
    have least := Opcode.least_call _ given.listed calls
    have enough := given.enough
    rw [given.length]
    omega
  have exactlyTwo (two : instruction.opcode.operation.takesTwo = true) :
      (if values.length = 2 then pure () else Action.refuse .valueOutOfRange : Play Unit) =
        pure () :=
    if_pos (pair two)
  unfold perform
  refine .get fun machine steady => ?_
  rw [show machine.story = story from steady.attends.story]
  dsimp only
  cases operation : instruction.opcode.operation with
  | newLine => exact .answered (orderly_newLine loaded) _
  | print => exact .answered (orderly_print loaded _) _
  | printReturn =>
      refine .seq (orderly_print loaded _) (keeps_print closed.printing _) fun _ => ?_
      exact .answered (orderly_newLine loaded) _
  | printPackedAddress => exact .answered (orderly_printAt loaded _) _
  | printAddress => exact .answered (orderly_printAt loaded _) _
  | printNumber => exact .answered (orderly_print loaded _) _
  | printChar => exact .answered (orderly_print loaded _) _
  | printUnicode => exact .answered (orderly_print loaded _) _
  | checkUnicode => exact .pure _
  | printObject =>
      refine .seq (orderly_ask fun image => story.failsWith_objectName image _) (keeps_ask _) ?_
      exact fun text => .answered (orderly_print loaded text) _
  | printTable => exact .answered (orderly_printTable loaded _ _ _ _) _
  | tokenise => exact .answered (orderly_tokeniseBuffer loaded _ _ _ _) _
  | encodeText => exact .answered (orderly_encodeText loaded _ _ _) _
  | readLine => exact .answered (orderly_beginLine loaded instruction _ _ _ _) _
  | readChar => exact .answered (.get fun _ _ => .answered (.modify _) _) _
  | inputStream => exact .answered (.modify _) _
  | splitWindow => exact .answered (.modify _) _
  | setWindow => exact .answered (.modify _) _
  | eraseWindow => exact .answered (.modify _) _
  | eraseLine => exact .pure _
  | setCursor => exact .answered (.modify _) _
  | getCursor =>
      refine .get fun machine _ => ?_
      refine .seq (orderly_onMemory (GameMemory.faultsOnly_writeWord _ _)) ?_ fun _ => ?_
      · exact closed.onMemory fun edit => GameMemory.keeps_writeWord edit _ _
      · exact memory (GameMemory.faultsOnly_writeWord _ _)
  | setTextStyle => exact .answered (.modify _) _
  | bufferMode => exact .answered (.modify _) _
  | setColour => exact .answered (.modify _) _
  | setTrueColour => exact .pure _
  | setFont => exact .get fun _ _ => .answered (.modify _) _
  | outputStream =>
      dsimp only
      split
      · exact .answered (orderly_selectOutput _ _) _
      split
      · exact .answered (orderly_deselectOutput loaded _) _
      · exact .pure _
  | soundEffect => exact .answered (orderly_soundEffect _ _ _ _) _
  | showStatus =>
      dsimp only
      split
      · exact .answered (orderly_showStatus loaded) _
      · exact .pure _
  | call => exact orderly_performCall (some_value (.inl operation)) false
  | callDropping => exact orderly_performCall (some_value (.inr operation)) true
  | returnValue => exact .pure _
  | returnPopped => exact .answered (orderly_onWork (.of_faults Workspace.failsWith_pop)) _
  | returnTrue => exact .pure _
  | returnFalse => exact .pure _
  | jump => exact .pure _
  | jumpEqual => exact .pure _
  | jumpLess => exact .pure _
  | jumpGreater => exact .pure _
  | jumpZero => exact .pure _
  | incrementCheck => exact .answered (orderly_changeVariable loaded _ _) _
  | decrementCheck => exact .answered (orderly_changeVariable loaded _ _) _
  | checkArgumentCount => exact .get fun _ _ => .pure _
  | catchFrame => exact .get fun _ _ => .pure _
  | throwTo => exact .answered (orderly_onWork (.of_faults (Workspace.failsWith_unwind _))) _
  | piracy => exact .pure _
  | verify => exact .answered orderly_verify _
  | storeVariable => exact .answered (orderly_setVariable _ _ _) _
  | loadVariable => exact .answered (orderly_getVariable _ _) _
  | storeWord => exact memory (GameMemory.faultsOnly_writeWord _ _)
  | storeByte => exact memory (GameMemory.faultsOnly_write _ _)
  | loadWord =>
      rw [exactlyTwo (operation ▸ rfl)]
      exact asks (fun image => image.failsWith_word _) fun word => .store word
  | loadByte =>
      rw [exactlyTwo (operation ▸ rfl)]
      exact asks (fun image => image.failsWith_byte _) fun byte => .store byte
  | push => exact .answered (orderly_onWork (Workspace.faultsOnly_push _)) _
  | pull =>
      refine .seq (orderly_onWork (.of_faults Workspace.failsWith_pop))
        (closed.onWork Workspace.keeps_pop) ?_
      exact fun value => .answered (orderly_setVariable _ _ _) _
  | pop => exact .answered (orderly_onWork (.of_faults Workspace.failsWith_pop)) _
  | scanTable =>
      refine .excluded (tolerates_ofCause _) ?_
      refine .seq (orderly_inquire fun image => image.failsWith_scan _ _ _ _ _) (keeps_ask _) ?_
      intro found
      cases found with
      | some address => exact .pure _
      | none => exact .pure _
  | copyTable => exact .answered (orderly_copyTable _ _ _) _
  | jumpInside => exact asks (fun image => story.objects.failsWith_parent image _) _
  | getSibling => exact asks (fun image => story.objects.failsWith_sibling image _) _
  | getChild => exact asks (fun image => story.objects.failsWith_child image _) _
  | getParent => exact asks (fun image => story.objects.failsWith_parent image _) _
  | removeObject => exact memory (story.objects.faultsOnly_remove _)
  | insertObject => exact memory (story.objects.faultsOnly_insert _ _)
  | testAttribute => exact asks (fun image => story.objects.failsWith_hasAttribute image _ _) _
  | setAttribute => exact memory (story.objects.faultsOnly_changeAttribute true _ _)
  | clearAttribute => exact memory (story.objects.faultsOnly_changeAttribute false _ _)
  | getProperty => exact asks (fun image => story.objects.failsWith_getProperty image _ _) _
  | getPropertyAddress =>
      exact asks (fun image => story.objects.failsWith_propertyAddress image _ _) _
  | getNextProperty => exact asks (fun image => story.objects.failsWith_nextProperty image _ _) _
  | getPropertyLength => exact asks (fun image => story.objects.failsWith_propertyLength image _) _
  | putProperty => exact memory (story.objects.faultsOnly_putProperty _ _ _)
  | add => exact .pure _
  | subtract => exact .pure _
  | multiply => exact .pure _
  | divide =>
      rw [exactlyTwo (operation ▸ rfl)]
      exact .answered (.excluded (tolerates_ofCause _) (.pure _)) _
  | remainder =>
      rw [exactlyTwo (operation ▸ rfl)]
      exact .answered (.excluded (tolerates_ofCause _) (.pure _)) _
  | increment =>
      exact .seq (orderly_getVariable _ _) (kept _) fun _ => .answered (orderly_setVariable _ _ _) _
  | decrement =>
      exact .seq (orderly_getVariable _ _) (kept _) fun _ => .answered (orderly_setVariable _ _ _) _
  | random =>
      dsimp only
      split
      · exact .get fun _ _ => .answered (.modify _) _
      · refine .answered (.seq (.modify _) (keeps_note closed.survivesAside _ _ _) fun _ => ?_) _
        exact .modify _
  | bitNot => exact .pure _
  | bitTest =>
      rw [exactlyTwo (operation ▸ rfl)]
      exact .pure _
  | bitOr => exact .pure _
  | bitAnd => exact .pure _
  | logicalShift =>
      rw [exactlyTwo (operation ▸ rfl)]
      exact orderly_shift loaded _ _ _
  | arithmeticShift =>
      rw [exactlyTwo (operation ▸ rfl)]
      exact orderly_shift loaded _ _ _
  | quit => exact .pure _
  | nop => exact .pure _
  | restart => exact .pure _
  | restore =>
      dsimp only
      split
      · exact .answered (.modify _) _
      · refine .seq orderly_restore (keeps_restore closed trivial trivial trivial)
          fun restored => ?_
        split
        · exact .pure _
        split
        · exact .pure _
        · exact .pure _
  | saveUndo => exact .answered (.modify _) _
  | restoreUndo =>
      refine .seq (orderly_restoreUndo loaded) (keeps_restoreUndo closed trivial trivial trivial) ?_
      intro restored
      split
      · exact .pure _
      · exact .pure _
  | save => exact absurd operation unsaving

end Operations

end Machine

end StoryMachine
