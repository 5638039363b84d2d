import StoryMachine.Proofs.OrderlyOperations

/-!
# Kinds of faults

Only the object table has rules about objects, and only a division or a shift breaks one of
arithmetic. Memory, variables, calls, reads and saved games are neutral: whatever goes wrong with
them is of another kind.
-/

namespace StoryMachine

/-- The kinds other than those of objects and of arithmetic. -/
def FaultKind.isNeutral : FaultKind → Bool
  | object | arithmetic => false
  | _ => true

/-- The kinds of faults that a question about an object can raise. -/
def FaultKind.isOfObjects : FaultKind → Bool
  | memoryAccess | object => true
  | _ => false

namespace Failure

/-- A failure that is no fault of objects or of arithmetic. -/
def IsNeutral (failure : Failure) : Prop :=
  ∀ fault, failure = .fault fault → fault.kind.isNeutral = true

/-- A failure that a question about an object can have. -/
def IsOfObjects (failure : Failure) : Prop :=
  ∃ cause, failure = .ofCause cause ∧ cause.kind.isOfObjects = true

variable {cause : Cause}

@[simp] theorem isNeutral_breach (breach : Breach) : (Failure.breach breach).IsNeutral := by
  rintro fault ⟨⟩

/-- A cause of a neutral kind raises a neutral failure. -/
theorem isNeutral_ofCause (neutral : cause.kind.isNeutral = true) :
    (ofCause cause).IsNeutral := by
  rintro fault ⟨⟩
  exact neutral

private theorem admits_isNeutral {kind : FaultKind} (neutral : kind.isNeutral = true) :
    Admits IsNeutral kind :=
  ⟨fun _ concerns => isNeutral_ofCause ((congrArg FaultKind.isNeutral concerns).trans neutral)⟩

instance : Admits IsNeutral .memoryAccess :=
  admits_isNeutral rfl

instance : Admits IsNeutral .stack :=
  admits_isNeutral rfl

private theorem admits_isOfObjects {kind : FaultKind} (concerned : kind.isOfObjects = true) :
    Admits IsOfObjects kind :=
  ⟨fun cause concerns => ⟨cause, rfl, (congrArg FaultKind.isOfObjects concerns).trans concerned⟩⟩

instance : Admits IsOfObjects .memoryAccess :=
  admits_isOfObjects rfl

instance : Admits IsOfObjects .object :=
  admits_isOfObjects rfl

/-- A fault of objects or of arithmetic is not neutral. -/
theorem not_isNeutral {fault : Fault} (kind : fault.kind = .object ∨ fault.kind = .arithmetic) :
    ¬ (Failure.fault fault).IsNeutral := by
  intro neutral
  have other := neutral fault rfl
  rcases kind with kind | kind
  · rw [kind] at other
    cases other
  · rw [kind] at other
    cases other

end Failure

/-- Every failure of the action is neutral. -/
abbrev Action.Neutral {σ α : Type} (action : Action σ α) : Prop :=
  FailsWith Failure.IsNeutral action

open StoryMachine.Action (FailsWith Neutral)

/-! ## Questions -/

namespace Result

variable {α : Type} {P : Failure → Prop}

@[simp] theorem failsWith_refuse (breach : Breach) :
    FailsWith P (.refuse breach : Result α) ↔ P (.breach breach) := by
  constructor
  · exact fun fails => fails _ rfl
  · rintro allowed failure ⟨⟩
    exact allowed

/-- Every failure of the question is neutral. -/
abbrev Neutral (result : Result α) : Prop :=
  FailsWith Failure.IsNeutral result

end Result

namespace Codec

@[simp] theorem neutral_pack (zchars : List Int) : Result.Neutral (pack zchars) := by
  fun_induction pack zchars with
  | case1 => simp
  | case2 => simp
  | case3 => simp
  | case4 first second third rest ih => simp [packWord, ih]

end Codec

private theorem Dictionary.neutral_lookupZscii (dictionary : Dictionary) (image : Image)
    (word : List Int) : Result.Neutral (dictionary.lookupZscii image word) := by
  simp [lookupZscii, lookup, Codec.encrypt]

private theorem Sink.neutral_flush (sink : Sink) : Result.Neutral sink.flush := by
  unfold flush
  split
  · simp
  · split <;> simp

/-! ## Memory and variables -/

namespace GameMemory

private theorem neutral_write (address value : Int) : Neutral (write address value) := by
  intro memory after failure failed
  unfold write at failed
  split at failed
  · cases failed
    exact Failure.isNeutral_ofCause rfl
  split at failed
  · cases failed
  · cases failed
    exact Failure.isNeutral_breach _

private theorem neutral_writeWord (address value : Int) : Neutral (writeWord address value) :=
  .bind .get fun _ => .barred (Failure.isNeutral_ofCause rfl) (.bind (neutral_write _ _) fun _ =>
    neutral_write _ _)

private theorem neutral_writeRun (address : Int) (values : List Int) :
    Neutral (Store.writeRun address values : Edit Unit) := by
  induction values generalizing address with
  | nil => exact .pure _
  | cons value rest ih => exact .bind (neutral_write _ _) fun _ => ih _

end GameMemory

namespace Dictionary

variable (dictionary : Dictionary)

private theorem neutral_writeTokens (textOffset : Int) (skipUnknown : Bool) (address : Int)
    (tokens : List Token) :
    Neutral (dictionary.writeTokens textOffset skipUnknown address tokens :
      GameMemory.Edit Unit) := by
  induction tokens generalizing address with
  | nil => exact .pure _
  | cons token rest ih =>
      unfold writeTokens
      refine .bind .get fun memory => ?_
      refine .bind (.lift (dictionary.neutral_lookupZscii _ _)) fun found => ?_
      dsimp only
      split
      · refine .bind (GameMemory.neutral_writeWord _ _) fun _ => ?_
        exact .bind (GameMemory.neutral_write _ _) fun _ =>
          .bind (GameMemory.neutral_write _ _) fun _ => ih _
      · exact ih _

private theorem neutral_tokenise (chars : List Int) (parseTable textOffset : Int) (skipUnknown : Bool) :
    Neutral (dictionary.tokenise chars parseTable textOffset skipUnknown :
      GameMemory.Edit (List Token)) := by
  have room : Neutral (Store.byte parseTable : GameMemory.Edit Nat) :=
    .bind .get fun memory => .lift (memory.failsWith_byte parseTable)
  unfold tokenise
  refine .bind room fun count => .bind (GameMemory.neutral_write _ _) fun _ => ?_
  exact .bind (dictionary.neutral_writeTokens _ _ _ _) fun _ => .pure _

end Dictionary

namespace Workspace

private theorem neutral_onMemory {α : Type} {action : GameMemory.Edit α} (neutral : Neutral action) :
    Neutral (onMemory action) :=
  .focus neutral

/-- Writing a variable breaks no rule of objects or of arithmetic. -/
theorem neutral_setVariable (number value : Int) (indirect : Bool) :
    Neutral (setVariable number value indirect) := by
  unfold setVariable
  refine .bind (.lift (failsWith_checkVariable number)) fun _ => ?_
  split
  · split
    · exact .bind (.answered .get _) fun frame =>
        .bind (.lift (frame.failsWith_setTop _)) fun _ => .modify _
    · exact .bind (.answered .get _) fun _ => .modify _
  split
  · exact .bind (.answered .get _) fun frame =>
      .bind (.lift (frame.failsWith_setLocal _ _)) fun _ => .modify _
  · exact .bind .get fun _ => neutral_onMemory (GameMemory.neutral_writeWord _ _)

end Workspace

namespace Machine

variable {α : Type} {instruction : Instruction}

/-- What breaks no such rule on the workspace breaks none on the machine. -/
theorem neutral_onWork {action : Action Workspace α} (neutral : Neutral action) :
    Neutral (onWork action) :=
  .focus neutral

private theorem neutral_onMemory {action : GameMemory.Edit α} (neutral : Neutral action) :
    Neutral (onMemory action) :=
  neutral_onWork (Workspace.neutral_onMemory neutral)

/-- A question that breaks no such rule is asked without breaking one. -/
theorem neutral_ask {question : Image → Result α}
    (neutral : ∀ image, Result.Neutral (question image)) : Neutral (ask question) :=
  .bind .get fun machine => .lift (neutral machine.image)

/-! ## Operands -/

private theorem neutral_operandValue (sense : Sense) (operand : Operand) :
    Neutral (operandValue sense operand) := by
  unfold operandValue
  dsimp only
  split
  · exact .answered (neutral_onWork (Workspace.failsWith_getVariable _ _)) _
  · exact .pure _

private theorem neutral_operandValuesFrom (opcode : Opcode) (operands : List Operand) (index : Nat) :
    Neutral (operandValuesFrom opcode index operands) := by
  induction operands generalizing index with
  | nil => exact .pure _
  | cons operand rest ih =>
      exact .bind (neutral_operandValue _ operand) fun _ => .answered (ih _) _

/-- Reading the operands of an instruction breaks no rule of objects or of arithmetic. -/
theorem neutral_operandValues (instruction : Instruction) :
    Neutral (operandValues instruction) := by
  unfold operandValues
  exact .barred (Failure.isNeutral_ofCause rfl) (neutral_operandValuesFrom _ _ _)

/-! ## Reading from the player -/

private theorem neutral_flushSink (part : Machine → Option Sink)
    (withPart : Option Sink → Machine → Machine) : Neutral (flushSink part withPart) := by
  refine .bind .get fun machine => ?_
  split
  · exact .pure _
  · rename_i sink _
    exact .bind (.lift sink.neutral_flush) fun _ => .modify _

private theorem neutral_flush : Neutral flush :=
  .bind (neutral_flushSink _ _) fun _ => neutral_flushSink _ _

private theorem neutral_suspend (token : Nat) : Neutral (suspend token) := by
  refine .bind .get fun machine => ?_
  split
  · exact .pure _
  · exact .bind (.modify _) fun _ => neutral_flush

private theorem neutral_setVariable (number value : Int) :
    Neutral (onWork (Workspace.setVariable number value)) :=
  neutral_onWork (Workspace.neutral_setVariable _ _ _)

private theorem neutral_finish (request : InputRequest) (value : Int) :
    Neutral (do finishRequest request; storeAnswer request value) := by
  refine .bind (.modify _) fun _ => ?_
  unfold storeAnswer
  split
  · exact .pure _
  · exact neutral_setVariable _ _

private theorem neutral_fillTextBuffer (buffer : Int) (codes : List Int) :
    Neutral (fillTextBuffer buffer codes) := by
  refine .bind .get fun machine => ?_
  split
  · exact .answered (neutral_onMemory (GameMemory.neutral_writeRun _ _)) _
  · exact .answered (neutral_onMemory (GameMemory.neutral_writeRun _ _)) _

private theorem neutral_finishLine (request : InputRequest) (entry : Entry) (terminator : Int) :
    Neutral (finishLine request entry terminator) := by
  unfold finishLine
  cases entry with
  | key code => exact .refused (by simp)
  | text text =>
      have finished (story : Story) (codes : List Int) (offset : Int) :
          Neutral (do
            if request.parseBuffer ≠ 0 then
              let _ ← onMemory (story.dictionary.tokenise codes request.parseBuffer offset)
            finishRequest request
            storeAnswer request terminator) := by
        dsimp only
        split
        · exact .bind (neutral_onMemory (Dictionary.neutral_tokenise _ _ _ _ _)) fun _ =>
            neutral_finish request terminator
        · exact neutral_finish request terminator
      refine .bind .get fun machine => .bind (neutral_fillTextBuffer _ _) fun offset => ?_
      dsimp only
      split
      · exact .bind (failsWith_commandEntered text) fun _ => finished _ _ _
      · exact finished _ _ _

private theorem neutral_interruptReturned (token : Nat) (value : Int) :
    Neutral (interruptReturned token value) := by
  refine .bind .get fun machine => ?_
  split
  · exact .pure _
  · refine .bind (.modify _) fun _ => ?_
    split
    · split
      · exact neutral_finishLine _ _ _
      · exact .bind .get fun _ => neutral_finish _ _
    · exact .bind (.modify _) fun _ => neutral_suspend token

/-! ## Going on -/

private theorem neutral_callRoutine (address returnTo : Int) (storeTo : Option Int) (arguments : List Int)
    (interrupt : Option Nat) :
    Neutral (callRoutine address returnTo storeTo arguments interrupt) := by
  refine .bind .get fun machine => ?_
  refine .bind (neutral_ask fun image => Frame.failsWith_ofRoutine image _ _ _ _ _ _)
    fun frame => ?_
  have entered : Neutral (Workspace.enter frame) :=
    .bind .get fun workspace => .bind (.lift (workspace.calls.failsWith_push frame)) fun _ =>
      .modify _
  exact .bind (neutral_onWork entered) fun _ => .modify _

private theorem neutral_returnFromRoutine (value : Int) : Neutral (returnFromRoutine value) := by
  unfold returnFromRoutine
  refine .bind (neutral_onWork Workspace.failsWith_leave) fun frame => ?_
  split
  · exact neutral_interruptReturned _ value
  · split
    · exact .modify _
    · exact .bind (neutral_setVariable _ _) fun _ => .modify _

private theorem neutral_takeBranch (offset next : Int) : Neutral (takeBranch offset next) := by
  unfold takeBranch
  split
  · exact neutral_returnFromRoutine offset
  · exact .modify _

private theorem neutral_storeResult (instruction : Instruction) (value : Int) :
    Neutral (storeResult instruction value) := by
  unfold storeResult
  split
  · exact .modify _
  · exact .bind (neutral_setVariable _ _) fun _ => .modify _

private theorem neutral_followBranch (instruction : Instruction) (outcome : Bool) :
    Neutral (followBranch instruction outcome) := by
  unfold followBranch
  split
  · split
    · exact neutral_takeBranch _ _
    · exact .modify _
  · exact .modify _

/-- Nothing about objects or arithmetic goes wrong after an operation, unless the story starts
again. -/
theorem neutral_settle {next : Next} (goesOn : next ≠ .restart) :
    Neutral (settle instruction next) := by
  cases next with
  | proceed => exact .modify _
  | store value => exact neutral_storeResult instruction value
  | branch outcome => exact neutral_followBranch instruction outcome
  | storeAndBranch value outcome =>
      exact .bind (neutral_storeResult instruction value) fun _ =>
        neutral_followBranch instruction outcome
  | call address storeTo arguments => exact neutral_callRoutine _ _ _ _ _
  | «return» value => exact neutral_returnFromRoutine value
  | jump offset => exact .modify _
  | quit => exact .bind (.modify _) fun _ => .bind (.modify _) fun _ => neutral_flush
  | restart => exact absurd rfl goesOn
  | read token => exact neutral_suspend token
  | moved => exact .pure _

/-! ## Saving and restoring -/

/-- A logged action does not fail for a broken rule. -/
theorem neutral_orLogged (what : String) (default : α) (action : Play α) :
    Neutral (orLogged what default action) := by
  intro machine after failure failed fault same
  unfold orLogged at failed
  split at failed
  · cases failed
  · cases failed
  · cases failed
  · rename_i unbroken _ _
    cases failed
    exact (unbroken fault same).elim

/-- Saving the game breaks no rule of objects or of arithmetic. -/
theorem neutral_save (instruction : Instruction) : Neutral (save instruction) := by
  refine .bind (neutral_orLogged _ _ _) fun result => ?_
  split
  · exact .bind (.modify _) fun _ => .pure _
  · exact .pure _

private theorem neutral_resumeAfterSave (pc : Int) : Neutral (resumeAfterSave pc) := by
  refine .bind .get fun machine => ?_
  split
  · refine .bind (neutral_ask fun image => image.failsWith_readBranch pc) fun branch => ?_
    dsimp only
    split
    · exact neutral_takeBranch _ _
    · exact .modify _
  · exact .bind (neutral_ask fun image => image.failsWith_byte pc) fun _ =>
      .bind (neutral_setVariable _ _) fun _ => .modify _

private theorem neutral_applySnapshot (game : SavedGame) : Neutral (applySnapshot game) := by
  intro machine after failure failed
  rw [applySnapshot_eq] at failed
  split at failed
  · cases failed
  · cases failed
    exact Failure.isNeutral_ofCause rfl

/-- Restoring a saved game breaks no rule of objects or of arithmetic. -/
theorem neutral_restore : Neutral restore := by
  refine .bind (neutral_orLogged _ _ _) fun found => ?_
  split
  · exact .pure _
  · exact .bind (neutral_applySnapshot _) fun _ => .bind (neutral_resumeAfterSave _) fun _ =>
      .bind (.modify _) fun _ => .pure _

/-- Going back to a snapshot breaks no rule of objects or of arithmetic. -/
theorem neutral_restoreUndo : Neutral restoreUndo := by
  refine .bind .get fun machine => ?_
  split
  · exact .pure _
  · exact .bind (.modify _) fun _ => .bind (neutral_applySnapshot _) fun _ =>
      .bind (neutral_resumeAfterSave _) fun _ => .pure _

end Machine

end StoryMachine
