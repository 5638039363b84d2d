import StoryMachine.Machine.Run
import StoryMachine.Proofs.Margins

/-!
# Actions that ignore the margin

All that a machine does below the level of faults ignores the margin, except for the two
operations on undo snapshots. So a story cannot tell how its faults are treated, or
how often it could undo, and no operation changes the screen and the devices that
it is told about.
-/

namespace StoryMachine

/-- What a story can be told about a screen. -/
def Screen.extent (screen : Screen) : (Int × Int) × Bool × Bool :=
  ((screen.lines, screen.columns), screen.canSplit, screen.hasColours)

namespace Screen

variable (screen : Screen)

private theorem extent_print (text : Text) : (screen.print text).extent = screen.extent := by
  unfold print
  split <;> rfl

/-- Erasing a window leaves the extent of the screen. -/
theorem extent_eraseWindow (window : Int) :
    (screen.eraseWindow window).extent = screen.extent := by
  unfold eraseWindow
  split <;> rfl

/-- Choosing a font leaves the extent of the screen. -/
theorem extent_setFont (font : Int) : (screen.setFont font).2.extent = screen.extent := by
  unfold setFont
  split
  · rfl
  split <;> rfl

end Screen

namespace Machine

variable {α : Type}

/-- Of a screen, the surroundings are only its extent. -/
theorem surroundings_of_extent {machine : Machine} {screen : Screen}
    (same : screen.extent = machine.screen.extent) :
    Machine.surroundings { machine with screen } = machine.surroundings := by
  unfold Screen.extent at same
  obtain ⟨⟨lines, columns⟩, split, colours⟩ :
      (screen.lines = machine.screen.lines ∧ screen.columns = machine.screen.columns) ∧
        screen.canSplit = machine.screen.canSplit ∧
          screen.hasColours = machine.screen.hasColours := by
    simpa only [Prod.mk.injEq] using same
  unfold surroundings
  rw [lines, columns, split, colours]

/-! ## Output -/

/-- What leaves the extent of the screen ignores the margin. -/
theorem ignoresMargin_onScreen {change : Screen → Screen}
    (same : ∀ screen, (change screen).extent = screen.extent) :
    IgnoresMargin (onScreen change) :=
  .modify (fun machine => surroundings_of_extent (same machine.screen)) fun _ _ => rfl

private theorem ignoresMargin_show (text : Text) : IgnoresMargin (onScreen (·.print text)) :=
  ignoresMargin_onScreen fun screen => screen.extent_print text

private theorem ignoresMargin_writeToStream (code : Int) : IgnoresMargin (writeToStream code) := by
  unfold writeToStream
  refine .get (fun _ _ => rfl) fun machine => ?_
  split
  · exact .pure ()
  · exact .bind (ignoresMargin_onMemory _) fun _ => .modify (fun _ => rfl) fun _ _ => rfl

private theorem ignoresMargin_writeAllToStream (codes : List Int) :
    IgnoresMargin (writeAllToStream codes) := by
  induction codes with
  | nil => exact .pure ()
  | cons code rest ih => exact .bind (ignoresMargin_writeToStream code) fun _ => ih

private theorem ignoresMargin_emit (text : Text) (codes : List Int) : IgnoresMargin (emit text codes) := by
  unfold emit
  refine .get (fun _ _ => rfl) fun machine => ?_
  split
  · refine .check (ignoresMargin_show text) fun _ => ?_
    split
    · exact .modify (fun _ => rfl) fun _ _ => rfl
    · exact .pure ()
  · exact ignoresMargin_writeAllToStream codes

/-- Printing ignores the margin. -/
theorem ignoresMargin_print (text : Text) : IgnoresMargin (print text) := by
  unfold print
  split
  · exact .pure ()
  · exact .get (fun _ _ => rfl) fun _ => ignoresMargin_emit text _

/-- Printing a new line ignores the margin. -/
theorem ignoresMargin_newLine : IgnoresMargin newLine :=
  ignoresMargin_emit _ _

private theorem ignoresMargin_commandEntered (text : Text) : IgnoresMargin (commandEntered text) := by
  have scripted : IgnoresMargin (do
      if (← get).script.any (·.active) then
        toScript text
        toScript [0x0a]) := by
    refine .get (fun _ _ => rfl) fun machine => ?_
    split
    · refine .modify_then (fun _ => rfl) (fun _ _ => rfl) fun _ => ?_
      exact .modify (fun _ => rfl) fun _ _ => rfl
    · exact .pure ()
  unfold commandEntered
  refine .get (fun _ _ => rfl) fun machine => ?_
  split
  · refine .modify_then (fun _ => rfl) (fun _ _ => rfl) fun _ => ?_
    exact .modify_then (fun _ => rfl) (fun _ _ => rfl) fun _ => scripted
  · exact scripted

private theorem ignoresMargin_flushSinks : IgnoresMargin flushTranscript ∧ IgnoresMargin flushScript := by
  constructor
  · unfold flushTranscript flushSink
    refine .get (fun _ _ => rfl) fun machine => ?_
    split
    · exact .pure ()
    · exact .bind (.lift _) fun _ => .modify (fun _ => rfl) fun _ _ => rfl
  · unfold flushScript flushSink
    refine .get (fun _ _ => rfl) fun machine => ?_
    split
    · exact .pure ()
    · exact .bind (.lift _) fun _ => .modify (fun _ => rfl) fun _ _ => rfl

private theorem ignoresMargin_flush : IgnoresMargin flush :=
  ignoresMargin_flushSinks.1.bind fun _ => ignoresMargin_flushSinks.2

private theorem ignoresMargin_setTranscriptOn (on : Bool) : IgnoresMargin (setTranscriptOn on) := by
  refine .get (fun _ _ => rfl) fun machine => ?_
  split
  · exact ignoresMargin_overHeader _
  · exact .pure ()

private theorem ignoresMargin_closeMemoryStream : IgnoresMargin closeMemoryStream := by
  unfold closeMemoryStream
  refine .get (fun _ _ => rfl) fun machine => ?_
  split
  · exact .pure ()
  · exact .modify_then (fun _ => rfl) (fun _ _ => rfl) fun _ => ignoresMargin_onMemory _

/-- Selecting an output stream ignores the margin. -/
theorem ignoresMargin_selectOutput (stream table : Int) :
    IgnoresMargin (selectOutput stream table) := by
  unfold selectOutput
  split
  · exact ignoresMargin_onScreen fun _ => rfl
  split
  · exact ignoresMargin_setTranscriptOn true
  split
  · refine .get (fun _ _ => rfl) fun _ => .check (.fault _) fun _ => ?_
    exact .modify (fun _ => rfl) fun _ _ => rfl
  split
  · exact .modify (fun _ => rfl) fun _ _ => rfl
  · exact ignoresMargin_note _ _ _

/-- Deselecting an output stream ignores the margin. -/
theorem ignoresMargin_deselectOutput (stream : Int) : IgnoresMargin (deselectOutput stream) := by
  unfold deselectOutput
  split
  · exact ignoresMargin_onScreen fun _ => rfl
  split
  · exact .bind (ignoresMargin_setTranscriptOn false) fun _ => ignoresMargin_flushSinks.1
  split
  · exact ignoresMargin_closeMemoryStream
  split
  · exact .modify_then (fun _ => rfl) (fun _ _ => rfl) fun _ => ignoresMargin_flushSinks.2
  · exact .pure ()

/-! ## Input -/

private theorem ignoresMargin_fromKeyboard (next : Keyboard → Option Text × Keyboard) :
    IgnoresMargin (fromKeyboard next) :=
  .get (fun _ _ => rfl) fun _ => .modify_then (fun _ => rfl) (fun _ _ => rfl) fun _ => .pure _

private theorem ignoresMargin_nextCommand (commands : Commands) : IgnoresMargin (nextCommand commands) := by
  have echoed (echo : Echo) (command : Text) : IgnoresMargin (echoCommand echo command) := by
    cases echo with
    | silent => exact .pure ()
    | inline => exact ignoresMargin_show command
    | lines =>
        unfold echoCommand
        refine ignoresMargin_onScreen fun screen => ?_
        rw [Screen.extent_print, Screen.extent_print]
  unfold nextCommand
  split
  · exact .modify_then (fun _ => rfl) (fun _ _ => rfl) fun _ => .pure none
  · exact .modify_then (fun _ => rfl) (fun _ _ => rfl) fun _ => .bind (echoed _ _) fun _ => .pure _

/-- Reading a line or a key ignores the margin. -/
theorem ignoresMargin_readInput (next : Keyboard → Option Text × Keyboard)
    (ofCommand : Text → Text) :
    IgnoresMargin (readInput next ofCommand) := by
  unfold readInput
  refine .get (fun _ _ => rfl) fun machine => ?_
  dsimp only
  split
  · exact ignoresMargin_fromKeyboard next
  · refine .bind (ignoresMargin_nextCommand _) fun command => ?_
    split
    · exact .pure _
    · refine .bind (ignoresMargin_note _ _ _) fun _ => ?_
      refine .modify_then (fun _ => rfl) (fun _ _ => rfl) fun _ => ?_
      exact ignoresMargin_fromKeyboard next

/-- Prompting the player ignores the margin. -/
theorem ignoresMargin_prompt (message : Text) : IgnoresMargin (prompt message) :=
  .bind (ignoresMargin_show message) fun _ => ignoresMargin_fromKeyboard _

/-- Showing the status line ignores the margin. -/
theorem ignoresMargin_showStatus : IgnoresMargin showStatus := by
  have rest (room : Text) : IgnoresMargin (do
      let first ← onWork (Workspace.getGlobal 1)
      let second ← onWork (Workspace.getGlobal 2)
      if (← get).image.showsTime then
        onScreen (·.showStatus { room, scoreMode := false, hours := first, minutes := second })
      else
        onScreen (·.showStatus { room, score := Word.signed first, turns := second })) := by
    refine .bind (ignoresMargin_onWork _) fun first => .bind (ignoresMargin_onWork _)
      fun second => ?_
    refine .get (fun _ _ => rfl) fun machine => ?_
    split
    · exact ignoresMargin_onScreen fun _ => rfl
    · exact ignoresMargin_onScreen fun _ => rfl
  unfold showStatus
  refine .bind (ignoresMargin_onWork _) fun roomId => .get (fun _ _ => rfl) fun machine => ?_
  dsimp only
  split
  · exact .bind (ignoresMargin_ask _) rest
  · exact rest []

/-- To begin reading a line ignores the margin. -/
theorem ignoresMargin_beginLine (instruction : Instruction)
    (textBuffer parseBuffer time routine : Int) :
    IgnoresMargin (beginLine instruction textBuffer parseBuffer time routine) := by
  unfold beginLine
  refine .get (fun _ _ => rfl) fun machine => .check ignoresMargin_showStatus fun _ => ?_
  refine .bind (ignoresMargin_ask _) fun size => .get (fun _ _ => rfl) fun machine => ?_
  dsimp only
  split
  · exact .bind (.pure []) fun _ => .bind (.lift _) fun _ => ignoresMargin_newRequest _
  · refine .bind (.lift _) fun codes => .get (fun _ _ => rfl) fun machine => ?_
    exact .bind (.pure _) fun _ => .bind (.lift _) fun _ => ignoresMargin_newRequest _

/-- To suspend a read ignores the margin. -/
theorem ignoresMargin_suspend (token : Nat) : IgnoresMargin (suspend token) := by
  refine .get (fun _ _ => rfl) fun machine => ?_
  split
  · exact .pure ()
  · exact .modify_then (fun _ => rfl) (fun _ _ => rfl) fun _ => ignoresMargin_flush

private theorem ignoresMargin_finish (request : InputRequest) (value : Int) :
    IgnoresMargin (do finishRequest request; storeAnswer request value) := by
  refine .modify_then (fun _ => rfl) (fun _ _ => rfl) fun _ => ?_
  unfold storeAnswer
  split
  · exact .pure ()
  · exact ignoresMargin_onWork _

private theorem ignoresMargin_fillTextBuffer (buffer : Int) (codes : List Int) :
    IgnoresMargin (fillTextBuffer buffer codes) := by
  unfold fillTextBuffer
  refine .get (fun _ _ => rfl) fun machine => ?_
  split
  · exact .bind (ignoresMargin_onMemory _) fun _ => .pure 1
  · exact .bind (ignoresMargin_onMemory _) fun _ => .pure 2

/-- To finish reading a line ignores the margin. -/
theorem ignoresMargin_finishLine (request : InputRequest) (entry : Entry) (terminator : Int) :
    IgnoresMargin (finishLine request entry terminator) := by
  unfold finishLine
  split
  · exact .refuse _
  · refine .get (fun _ _ => rfl) fun machine => .bind (ignoresMargin_fillTextBuffer _ _)
      fun offset => ?_
    refine .check (ignoresMargin_commandEntered _) fun _ => ?_
    dsimp only
    split
    · exact .bind (ignoresMargin_onMemory _) fun _ => ignoresMargin_finish request terminator
    · exact ignoresMargin_finish request terminator

/-- To finish reading a key ignores the margin. -/
theorem ignoresMargin_finishKey (request : InputRequest) (entry : Option Entry) :
    IgnoresMargin (finishKey request entry) :=
  .get (fun _ _ => rfl) fun _ => ignoresMargin_finish request _

private theorem ignoresMargin_interruptReturned (token : Nat) (value : Int) :
    IgnoresMargin (interruptReturned token value) := by
  unfold interruptReturned
  refine .get (fun _ _ => rfl) fun machine => ?_
  split
  · exact .pure ()
  · refine .modify_then (fun _ => rfl) (fun _ _ => rfl) fun _ => ?_
    split
    · split
      · exact ignoresMargin_finishLine _ _ _
      · exact ignoresMargin_finishKey _ _
    · exact .bind (ignoresMargin_changeRequest _ _) fun _ => ignoresMargin_suspend token

/-! ## Calls, returns and the end -/

/-- Calling a routine ignores the margin. -/
theorem ignoresMargin_callRoutine (address returnTo : Int) (storeTo : Option Int)
    (arguments : List Int) (interrupt : Option Nat) :
    IgnoresMargin (callRoutine address returnTo storeTo arguments interrupt) := by
  unfold callRoutine
  refine .get (fun _ _ => rfl) fun machine => .bind (ignoresMargin_ask _) fun frame => ?_
  exact .bind (ignoresMargin_onWork _) fun _ => ignoresMargin_goTo _

/-- Returning from a routine ignores the margin. -/
theorem ignoresMargin_returnFromRoutine (value : Int) :
    IgnoresMargin (returnFromRoutine value) := by
  refine .bind (ignoresMargin_onWork _) fun frame => ?_
  split
  · exact ignoresMargin_interruptReturned _ value
  · split
    · exact .bind (.pure ()) fun _ => ignoresMargin_goTo _
    · exact .bind (ignoresMargin_onWork _) fun _ => ignoresMargin_goTo _

/-- Taking a branch ignores the margin. -/
theorem ignoresMargin_takeBranch (offset next : Int) : IgnoresMargin (takeBranch offset next) := by
  unfold takeBranch
  split
  · exact ignoresMargin_returnFromRoutine offset
  · exact ignoresMargin_goTo _

/-- Halting ignores the margin. -/
theorem ignoresMargin_halt : IgnoresMargin halt :=
  .modify_then (fun _ => rfl) (fun _ _ => rfl) fun _ => ignoresMargin_flush

/-- Quitting ignores the margin. -/
theorem ignoresMargin_quit : IgnoresMargin quit :=
  .bind (ignoresMargin_note _ _ _) fun _ => ignoresMargin_halt

/-! ## Starting again, saving and restoring -/

/-- Restarting the story ignores the margin. -/
theorem ignoresMargin_restart : IgnoresMargin restart := by
  have loads : IgnoresMargin loadStory := by
    refine .get (fun _ _ => rfl) fun _ => .bind (.lift _) fun _ => ?_
    exact .modify (fun _ => rfl) fun _ _ => rfl
  have opens : IgnoresMargin resetOutput := by
    refine .modify_then (fun _ => rfl) (fun _ _ => rfl) fun _ => ?_
    refine .bind (ignoresMargin_onScreen fun _ => rfl) fun _ => ?_
    exact .modify (fun _ => rfl) fun _ _ => rfl
  refine .bind (ignoresMargin_note _ _ _) fun _ => .get (fun _ _ => rfl) fun machine => ?_
  refine .bind loads fun _ => .bind (ignoresMargin_overHeader _) fun _ => ?_
  refine .bind (ignoresMargin_onScreen fun _ => rfl) fun _ => ?_
  exact .bind ignoresMargin_announce fun _ => .bind opens fun _ => .modify (fun _ => rfl)
    fun _ _ => rfl

/-- Putting a saved game in place ignores the margin. -/
theorem ignoresMargin_applySnapshot (game : SavedGame) : IgnoresMargin (applySnapshot game) := by
  unfold applySnapshot
  refine .get (fun _ _ => rfl) fun machine => .bind (ignoresMargin_onMemory _) fun _ => ?_
  refine .bind (ignoresMargin_overHeader _) fun _ => ?_
  split
  · exact ignoresMargin_announce
  · exact .modify_then (fun _ => rfl) (fun _ _ => rfl) fun _ => ignoresMargin_announce

/-- Going on behind a save ignores the margin. -/
theorem ignoresMargin_resumeAfterSave (pc : Int) : IgnoresMargin (resumeAfterSave pc) := by
  unfold resumeAfterSave
  refine .get (fun _ _ => rfl) fun machine => ?_
  split
  · refine .bind (ignoresMargin_ask _) fun found => ?_
    obtain ⟨branch, next⟩ := found
    dsimp only
    split
    · exact ignoresMargin_takeBranch _ _
    · exact ignoresMargin_goTo _
  · refine .bind (ignoresMargin_ask _) fun target => ?_
    exact .bind (ignoresMargin_onWork _) fun _ => ignoresMargin_goTo _

end Machine

end StoryMachine
