import StoryMachine.Proofs.Moves

/-!
# Actions are made of moves

For each action of the machine below the operations: an invariant that survives
the moves that the action is made of survives the action, also when it fails half
way. An action that enters or leaves calls says so.
-/

namespace StoryMachine

open StoryMachine.Action (Ensures Keeps EndsIn)

/-- Classifying a fault leaves the policy as it is. -/
theorem Classifier.policy_classify (classifier : Classifier) (fault : Fault) (opcode : String) :
    (classifier.classify fault opcode).2.2.policy = classifier.policy := by
  unfold classify
  dsimp only
  split
  · rfl
  split
  · rfl
  · rfl
  · rfl
  · split <;> rfl

namespace Machine

variable {α β : Type} {least : Nat} {reach : Int → Prop} {allowed : MoveKind → Prop}
  {I : Machine → Prop}

/-! ## Primitive actions -/

/-- An invariant of machines that survives the moves survives the changes of a workspace. -/
theorem SurvivesFrom.changes (survives : SurvivesFrom least reach allowed I) (machine : Machine) :
    Workspace.SurvivesChangesFrom least fun work => I { machine with work } where
  write := fun _ _ _ above dynamic inside holds =>
    survives.inner holds (.write dynamic inside above)
  revise := fun _ _ revises holds => survives.inner holds (.revise revises)
  globals := fun _ => survives.globals

/-- What every invariant of workspaces ensures, an invariant of machines does. -/
theorem ensures_onWork
    (changes : ∀ machine : Machine,
      Workspace.SurvivesChangesFrom least fun work => I { machine with work })
    {Q : α → Prop} {action : Action Workspace α}
    (work : ∀ {K : Workspace → Prop}, Workspace.SurvivesChangesFrom least K → Ensures K Q action) :
    Ensures I Q (onWork action) :=
  .focus (fun _ _ _ => rfl) (fun _ => rfl) fun machine _ => work (changes machine)

/-- An action on the workspace is made of moves. -/
theorem SurvivesFrom.onWork (survives : SurvivesFrom least reach allowed I) {Q : α → Prop}
    {action : Action Workspace α}
    (work : ∀ {K : Workspace → Prop}, Workspace.SurvivesChangesFrom least K → Ensures K Q action) :
    Ensures I Q (onWork action) :=
  ensures_onWork survives.changes work

/-- An edit of memory is made of moves. -/
theorem SurvivesFrom.onMemory (survives : SurvivesFrom least reach allowed I) {Q : α → Prop}
    {action : GameMemory.Edit α}
    (edit : ∀ {J : GameMemory → Prop}, GameMemory.SurvivesWritesFrom least J →
      Ensures J Q action) :
    Ensures I Q (onMemory action) :=
  survives.onWork fun changes => Workspace.ensures_onMemory changes edit

/-- An invariant of the part of a machine that moves are about. -/
def SurvivesAside (I : Machine → Prop) : Prop :=
  ∀ machine after : Machine, I machine → Aside machine after → I after

/-- What survives the moves survives changes beside the game. -/
theorem SurvivesFrom.survivesAside (survives : SurvivesFrom least reach allowed I) :
    SurvivesAside I :=
  fun _ _ holds apart => survives.inner holds (.aside apart)

/-- A change beside the game keeps what survives such changes. -/
theorem SurvivesAside.modify (survives : SurvivesAside I) {change : Machine → Machine}
    (apart : ∀ machine, Aside machine (change machine)) : Keeps I (modify change : Play PUnit) :=
  .modify fun machine holds => survives _ _ holds (apart machine)

/-- A change beside the game keeps what survives the moves. -/
theorem SurvivesFrom.aside (survives : SurvivesFrom least reach allowed I)
    {change : Machine → Machine} (apart : ∀ machine, Aside machine (change machine)) :
    Keeps I (modify change : Play PUnit) :=
  survives.survivesAside.modify apart

/-- A question about memory keeps every invariant. -/
theorem ensures_ask {Q : α → Prop} {question : Image → Result α}
    (answers : ∀ image a, question image = .ok a → Q a) : Ensures I Q (ask question) :=
  .get fun machine _ => .lift (answers machine.image)

/-- A question about memory keeps every invariant, whatever its answer. -/
theorem keeps_ask (question : Image → Result α) : Keeps I (ask question) :=
  ensures_ask fun _ _ _ => trivial

/-- A question about memory, of which only the answer matters. -/
theorem endsIn_ask {R : α → Prop} {question : Image → Result β} {rest : β → Play α}
    {machine : Machine} (holds : I machine)
    (tail : ∀ b, question machine.image = .ok b → EndsIn I R (rest b) machine) :
    EndsIn I R (ask question >>= rest) machine := by
  cases outcome : question machine.image with
  | ok b =>
      have asked : ask question machine = .ok b machine := by
        simp only [ask, bind, EStateM.bind, Action.get_eq, outcome]
        rfl
      exact .after asked (tail b outcome)
  | error failure =>
      have asked : ask question machine = .error failure machine := by
        simp only [ask, bind, EStateM.bind, Action.get_eq, outcome]
        rfl
      exact .afterError asked holds

/-- A message to the log is beside the game. -/
theorem keeps_note (survives : SurvivesAside I) (level : LogLevel) (source message : String) :
    Keeps I (note level source message) :=
  survives.modify fun _ => ⟨rfl, rfl⟩

/-- Going to an address within reach is a move. -/
theorem keeps_goTo (survives : SurvivesFrom least reach allowed I) {address : Int}
    (near : reach address) : Keeps I (goTo address) :=
  .modify fun _ holds => survives.inner holds (.goTo near)

/-- What happens on the screen is beside the game. -/
theorem keeps_onScreen (survives : SurvivesAside I) (change : Screen → Screen) :
    Keeps I (onScreen change) :=
  survives.modify fun _ => ⟨rfl, rfl⟩

/-- Changing what has been typed for a request is a move. -/
theorem keeps_changeRequest (survives : SurvivesFrom least reach allowed I) (token : Nat)
    {change : InputRequest → InputRequest} (same : ∀ request, change request =
      { request with initial := (change request).initial, typed := (change request).typed }) :
    Keeps I (changeRequest token change) :=
  .modify fun _ holds => survives.inner holds (.retype same)

/-- A new request has a number above those of all earlier ones. -/
theorem ensures_newRequest (survives : SurvivesFrom least reach allowed I)
    {request : Nat → InputRequest} (fits : ∀ token, (request token).Fits reach)
    (named : ∀ token, (request token).token = token)
    (buffer : ∀ token, 0 ≤ (request token).textBuffer)
    (short : ∀ token, (request token).maxLength ≤ 255)
    {count : Nat} (counted : ∀ machine, I machine → count ≤ machine.requests.size) :
    Ensures I (count < ·) (newRequest request) := by
  intro machine holds
  have entered := survives.inner holds (.request (fits _) (named _) (buffer _) (short _))
  exact .of_ok rfl entered (Nat.lt_succ_of_le (counted machine holds))

/-! ## Output -/

/-- An invariant under which text can be printed: it survives a change of the screen, text in the
transcript and a code in the open memory stream. -/
structure SurvivesPrinting (I : Machine → Prop) : Prop where
  shows : ∀ change : Screen → Screen, Keeps I (onScreen change)
  records : ∀ text : Text, Keeps I (toTranscript text)
  writes : ∀ code : Int, Keeps I (writeToStream code)

/-- What survives the moves survives printing. -/
theorem SurvivesFrom.printing (survives : Survives reach allowed I) : SurvivesPrinting I where
  shows := keeps_onScreen survives.survivesAside
  records := fun _ => survives.aside fun machine => .transcript machine fun _ => rfl
  writes := by
    intro code
    unfold writeToStream
    refine .get fun machine _ => ?_
    split
    · exact .pure trivial
    · refine .seq (survives.onMemory fun edit => GameMemory.keeps_write edit _ _) fun _ => ?_
      exact survives.aside fun _ => ⟨rfl, rfl⟩

private theorem keeps_writeAllToStream (survives : SurvivesPrinting I) (codes : List Int) :
    Keeps I (writeAllToStream codes) := by
  induction codes with
  | nil => exact .pure trivial
  | cons code rest ih => exact .seq (survives.writes code) fun _ => ih

private theorem keeps_emit (survives : SurvivesPrinting I) (text : Text) (codes : List Int) :
    Keeps I (emit text codes) := by
  unfold emit
  refine .get fun machine _ => ?_
  split
  · refine .check (survives.shows _) fun _ => ?_
    split
    · exact survives.records text
    · exact .pure trivial
  · exact keeps_writeAllToStream survives codes

/-- Printing a text keeps what survives printing. -/
theorem keeps_print (survives : SurvivesPrinting I) (text : Text) : Keeps I (print text) := by
  unfold print
  split
  · exact .pure trivial
  · exact .get fun machine _ => keeps_emit survives text _

/-- Printing a new line keeps what survives printing. -/
theorem keeps_newLine (survives : SurvivesPrinting I) : Keeps I newLine :=
  keeps_emit survives _ _

/-- Copying a command to the transcript is beside the game. -/
theorem keeps_commandEntered (survives : SurvivesAside I) (text : Text) :
    Keeps I (commandEntered text) := by
  have transcript (line : Text) : Keeps I (toTranscript line) :=
    survives.modify fun machine => .transcript machine fun _ => rfl
  have script (line : Text) : Keeps I (toScript line) :=
    survives.modify fun machine => .script machine fun _ => rfl
  have scripted : Keeps I (do
      if (← get).script.any (·.active) then
        toScript text
        toScript [0x0a]) := by
    refine .get fun machine _ => ?_
    split
    · exact .seq (script text) fun _ => script _
    · exact .pure trivial
  unfold commandEntered
  refine .get fun machine _ => ?_
  split
  · exact .seq (transcript text) fun _ => .seq (transcript _) fun _ => scripted
  · exact scripted

private theorem keeps_flushSink (survives : SurvivesAside I) {part : Machine → Option Sink}
    {withPart : Option Sink → Machine → Machine}
    (apart : ∀ machine sink flushed, part machine = some sink → flushed.refusal = sink.refusal →
      Aside machine (withPart (some flushed) machine)) :
    Keeps I (flushSink part withPart) := by
  intro machine holds
  refine EndsIn.get ?_
  split
  · exact .of_ok rfl holds trivial
  · rename_i sink found
    refine EndsIn.lift sink.flush holds fun flushed written => ?_
    have same := apart machine sink flushed found (Sink.refusal_of_flush written)
    exact .of_ok rfl (survives _ _ holds same) trivial

/-- Flushing the transcript is beside the game. -/
theorem keeps_flushTranscript (survives : SurvivesAside I) : Keeps I flushTranscript := by
  refine keeps_flushSink survives fun machine sink flushed found same => ⟨rfl, ?_⟩
  unfold terms
  simp [found, same]

private theorem keeps_flushScript (survives : SurvivesAside I) : Keeps I flushScript := by
  refine keeps_flushSink survives fun machine sink flushed found same => ⟨rfl, ?_⟩
  unfold terms
  simp [found, same]

/-- Flushing the transcript and the script is beside the game. -/
theorem keeps_flush (survives : SurvivesAside I) : Keeps I flush :=
  .seq (keeps_flushTranscript survives) fun _ => keeps_flushScript survives

private theorem keeps_openMemoryStream (survives : SurvivesAside I) (table : Int) :
    Keeps I (openMemoryStream table) :=
  .get fun _ _ => .check (.fault _) fun _ => survives.modify fun _ => ⟨rfl, rfl⟩

/-- The count of a memory stream is written to its table. -/
theorem endsIn_closeMemoryStream (survives : SurvivesFrom least reach allowed I)
    {machine : Machine} (holds : I machine)
    (place : ∀ stream, machine.memoryStreams.head? = some stream →
      stream.table < 0 ∨ least ≤ stream.table) :
    EndsIn I (fun _ => True) closeMemoryStream machine := by
  unfold closeMemoryStream
  refine EndsIn.get ?_
  cases streams : machine.memoryStreams with
  | nil => exact .of_ok rfl holds trivial
  | cons stream rest =>
      have table := place stream (by rw [streams]; rfl)
      have written : Keeps I (onMemory (GameMemory.writeWord stream.table stream.count)) :=
        survives.onMemory fun edit => GameMemory.keeps_writeWord edit _ _ table
      exact EndsIn.modify (written _ (survives.survivesAside _ _ holds ⟨rfl, rfl⟩))

/-- Starting and stopping the script is beside the game. -/
theorem keeps_setScriptActive (survives : SurvivesAside I) (active : Bool) :
    Keeps I (setScriptActive active) :=
  survives.modify fun machine => .script machine fun _ => rfl

/-- Starting and stopping the transcript, which the header records, is made of moves. -/
theorem keeps_setTranscriptOn (survives : SurvivesFrom least reach allowed I) (on : Bool) :
    Keeps I (setTranscriptOn on) := by
  refine .get fun machine _ => ?_
  split
  · exact .modify fun _ holds => survives.inner holds (.transcript on)
  · exact .pure trivial

/-- Selecting an output stream is made of moves. -/
theorem keeps_selectOutput (survives : SurvivesFrom least reach allowed I) (stream table : Int) :
    Keeps I (selectOutput stream table) := by
  unfold selectOutput
  split
  · exact keeps_onScreen survives.survivesAside _
  split
  · exact keeps_setTranscriptOn survives true
  split
  · exact keeps_openMemoryStream survives.survivesAside table
  split
  · exact keeps_setScriptActive survives.survivesAside true
  · exact keeps_note survives.survivesAside _ _ _

/-- Deselecting an output stream is made of moves if the table of the innermost memory stream is not
protected. -/
theorem endsIn_deselectOutput (survives : SurvivesFrom least reach allowed I) {machine : Machine}
    (holds : I machine) (place : ∀ stream, machine.memoryStreams.head? = some stream →
      stream.table < 0 ∨ least ≤ stream.table) (stream : Int) :
    EndsIn I (fun _ => True) (deselectOutput stream) machine := by
  have silenced : Keeps I (do setTranscriptOn false; flushTranscript) :=
    .seq (keeps_setTranscriptOn survives false) fun _ =>
      keeps_flushTranscript survives.survivesAside
  have stopped : Keeps I (do setScriptActive false; flushScript) :=
    .seq (keeps_setScriptActive survives.survivesAside false) fun _ =>
      keeps_flushScript survives.survivesAside
  unfold deselectOutput
  split
  · exact keeps_onScreen survives.survivesAside _ machine holds
  split
  · exact silenced machine holds
  split
  · exact endsIn_closeMemoryStream survives holds place
  split
  · exact stopped machine holds
  · exact .of_ok rfl holds trivial

/-! ## Input streams -/

private theorem keeps_fromKeyboard (survives : SurvivesAside I)
    (next : Keyboard → Option Text × Keyboard) : Keeps I (fromKeyboard next) := by
  refine .get fun machine _ => ?_
  exact .seq (survives.modify fun _ => ⟨rfl, rfl⟩) fun _ => .pure trivial

private theorem keeps_echoCommand (survives : SurvivesAside I) (echo : Echo) (command : Text) :
    Keeps I (echoCommand echo command) := by
  unfold echoCommand
  split
  · exact .pure trivial
  · exact keeps_onScreen survives _
  · exact keeps_onScreen survives _

private theorem keeps_nextCommand (survives : SurvivesAside I) (commands : Commands) :
    Keeps I (nextCommand commands) := by
  unfold nextCommand
  split
  · exact .seq (survives.modify fun _ => ⟨rfl, rfl⟩) fun _ => .pure trivial
  · refine .seq (survives.modify fun _ => ⟨rfl, rfl⟩) fun _ => ?_
    exact .seq (keeps_echoCommand survives _ _) fun _ => .pure trivial

/-- Reading a line or a key is beside the game. -/
theorem keeps_readInput (survives : SurvivesAside I) (next : Keyboard → Option Text × Keyboard)
    (ofCommand : Text → Text) : Keeps I (readInput next ofCommand) := by
  unfold readInput
  refine .get fun machine _ => ?_
  dsimp only
  split
  · exact keeps_fromKeyboard survives next
  · refine .seq (keeps_nextCommand survives _) fun command => ?_
    split
    · exact .pure trivial
    · refine .seq (keeps_note survives _ _ _) fun _ => ?_
      refine .seq (survives.modify fun _ => ⟨rfl, rfl⟩) fun _ => ?_
      exact keeps_fromKeyboard survives next

/-- Prompting the player is beside the game. -/
theorem keeps_prompt (survives : SurvivesAside I) (message : Text) : Keeps I (prompt message) :=
  .seq (keeps_onScreen survives _) fun _ => keeps_fromKeyboard survives _

/-! ## Reading from the player -/

/-- Showing the status line is beside the game. -/
theorem keeps_showStatus (survives : SurvivesAside I) : Keeps I showStatus := by
  have shown (status : StatusLine) : Keeps I (onScreen (·.showStatus status)) :=
    keeps_onScreen survives _
  have global (index : Int) : Keeps I (onWork (Workspace.getGlobal index)) :=
    .focus (fun _ _ _ => rfl) (fun _ => rfl) fun _ _ => Workspace.keeps_getGlobal index
  unfold showStatus
  refine .seq (global 0) fun roomId => .get fun machine _ => ?_
  have rest (room : Text) : Keeps I (do
      let first ← onWork (Workspace.getGlobal 1)
      let second ← onWork (Workspace.getGlobal 2)
      if (← get).image.showsTime then
        onScreen (·.showStatus { room, scoreMode := false, hours := first, minutes := second })
      else
        onScreen (·.showStatus { room, score := Word.signed first, turns := second })) := by
    refine .seq (global 1) fun first => .seq (global 2) fun second => .get fun machine _ => ?_
    split
    · exact shown _
    · exact shown _
  dsimp only
  split
  · exact .seq (keeps_ask _) fun room => rest room
  · exact rest []

/-- To begin reading a line is made of moves, and its request gets a number above those of all
earlier ones. -/
theorem ensures_beginLine (survives : SurvivesFrom least reach allowed I)
    {instruction : Instruction} (fits : instruction.Fits reach) {count : Nat}
    (counted : ∀ machine, I machine → count ≤ machine.requests.size)
    (textBuffer parseBuffer time routine : Int) :
    Ensures I (count < ·) (beginLine instruction textBuffer parseBuffer time routine) := by
  unfold beginLine
  refine .get fun machine _ => .check (keeps_showStatus survives.survivesAside) fun _ => ?_
  refine .bind (Q := fun size => 0 ≤ textBuffer ∧ size < 256) (ensures_ask fun image size read =>
    ⟨(Image.byte_eq_ok read).1.1, Image.byte_lt read⟩) fun size place => .get fun machine _ => ?_
  obtain ⟨buffer, small⟩ := place
  have bound : (size : Int) ≤ 255 := by omega
  have entered (request : Nat → InputRequest) (named : ∀ token, (request token).token = token)
      (asked : ∀ token, (request token).instruction = some instruction)
      (given : ∀ token, (request token).textBuffer = textBuffer)
      (short : ∀ token, (request token).maxLength ≤ size) :
      Ensures I (count < ·) (newRequest request) :=
    ensures_newRequest survives (fun token => ⟨instruction, asked token, fits⟩) named
      (fun token => (given token).symm ▸ buffer) (fun token => Int.le_trans (short token) bound)
      counted
  dsimp only
  split
  · refine .seq (.pure trivial) fun initial => .bind (.lift fun _ _ => trivial) fun _ _ => ?_
    exact entered _ (fun _ => rfl) (fun _ => rfl) (fun _ => rfl) fun _ => by dsimp only; omega
  · refine .bind (.lift fun _ _ => trivial) fun codes _ => .get fun machine _ => ?_
    refine .seq (.pure trivial) fun initial => .bind (.lift fun _ _ => trivial) fun _ _ => ?_
    exact entered _ (fun _ => rfl) (fun _ => rfl) (fun _ => rfl) fun _ => Int.le_refl _

/-- To begin reading a key is made of moves, and its request gets a number above those of all
earlier ones. -/
theorem ensures_beginKey (survives : SurvivesFrom least reach allowed I) {instruction : Instruction}
    (fits : instruction.Fits reach) {count : Nat}
    (counted : ∀ machine, I machine → count ≤ machine.requests.size) (time routine : Int) :
    Ensures I (count < ·) (beginKey instruction time routine) :=
  ensures_newRequest survives (fun _ => ⟨instruction, rfl, fits⟩) (fun _ => rfl)
    (fun _ => Int.le_refl 0) (fun _ => (by decide : (0 : Int) ≤ 255)) counted

/-- To suspend a read is to wait. -/
theorem keeps_suspend (survives : SurvivesFrom least reach allowed I) (waits : allowed .wait)
    (token : Nat) : Keeps I (suspend token) := by
  intro machine holds
  refine EndsIn.get ?_
  split
  · exact .of_ok rfl holds trivial
  · rename_i request found
    refine EndsIn.modify ?_
    exact keeps_flush survives.survivesAside _ (survives.of_allowed waits holds (.suspend found))

/-- Storing the answer of a read is made of moves. -/
theorem keeps_storeAnswer (survives : SurvivesFrom least reach allowed I) (request : InputRequest)
    (value : Int) : Keeps I (storeAnswer request value) := by
  unfold storeAnswer
  split
  · exact .pure trivial
  · exact survives.onWork fun changes => Workspace.keeps_setVariable changes _ _ _

/-- Filling a text buffer is made of moves if the buffer is not protected. -/
theorem keeps_fillTextBuffer (survives : SurvivesFrom least reach allowed I) {buffer : Int}
    (place : least = 0 ∨ 0 ≤ buffer) (codes : List Int) : Keeps I
    (fillTextBuffer buffer codes) := by
  have low := survives.low
  have written (codes : List Int) : Keeps I (onMemory (Store.writeRun (buffer + 1) codes)) :=
    survives.onMemory fun edit => GameMemory.keeps_writeRun edit _ _ (by omega)
  unfold fillTextBuffer
  refine .get fun machine _ => ?_
  split
  · exact .seq (written _) fun _ => .pure trivial
  · exact .seq (written _) fun _ => .pure trivial

private theorem keeps_finish (survives : SurvivesFrom least reach allowed I) {request : InputRequest}
    (fits : request.Fits reach) (value : Int) :
    Keeps I (do finishRequest request; storeAnswer request value) :=
  .seq (.modify fun _ holds => survives.inner holds (.finish fits)) fun _ =>
    keeps_storeAnswer survives request value

/-- To finish reading a line is made of moves if its buffers are not protected. -/
theorem keeps_finishLine (survives : SurvivesFrom least reach allowed I) {request : InputRequest}
    (fits : request.Fits reach) (entry : Entry) (terminator : Int)
    (buffer : least = 0 ∨ 0 ≤ request.textBuffer := by exact .inl rfl) :
    Keeps I (finishLine request entry terminator) := by
  unfold finishLine
  split
  · exact .refuse _
  · refine .get fun machine _ => .seq (keeps_fillTextBuffer survives buffer _) fun offset => ?_
    refine .check (keeps_commandEntered survives.survivesAside _) fun _ => ?_
    dsimp only
    split
    · refine .seq (survives.onMemory fun edit =>
        Dictionary.keeps_tokenise edit _ _ _ _ _ survives.low) fun _ => ?_
      exact keeps_finish survives fits terminator
    · exact keeps_finish survives fits terminator

/-- To finish reading a key is made of moves. -/
theorem keeps_finishKey (survives : SurvivesFrom least reach allowed I) {request : InputRequest}
    (fits : request.Fits reach) (entry : Option Entry) : Keeps I (finishKey request entry) :=
  .get fun _ _ => keeps_finish survives fits _

private theorem keeps_interruptReturned (survives : SurvivesFrom least reach allowed I)
    (waits : allowed .wait)
    (token : Nat) (value : Int) : Keeps I (interruptReturned token value) := by
  intro machine holds
  refine EndsIn.get ?_
  split
  · exact .of_ok rfl holds trivial
  · rename_i request found
    have fits := survives.ledger holds found
    have pending := survives.of_allowed waits holds (.recall found)
    refine EndsIn.modify ?_
    split
    · split
      · exact keeps_finishLine survives fits _ _ (survives.buffers holds found) _ pending
      · exact keeps_finishKey survives fits _ _ pending
    · have again : Keeps I (do
          changeRequest token fun request =>
            { request with initial := request.typed.getD request.initial }
          suspend token) :=
        .seq (keeps_changeRequest survives token fun _ => rfl) fun _ =>
          keeps_suspend survives waits token
      exact again _ pending

/-! ## Calling and returning -/

private theorem enter_eq (frame : Frame) (machine : Machine) :
    onWork (Workspace.enter frame) machine =
      match machine.work.calls.push frame with
      | .ok calls => .ok () { machine with work.calls := calls }
      | .error failure => .error failure machine := by
  simp only [onWork, Action.focus, Workspace.enter, bind, EStateM.bind, Action.get_eq]
  cases machine.work.calls.push frame <;> rfl

/-- Leaving a routine takes its frame off the calls in progress. -/
theorem leave_eq (machine : Machine) :
    onWork Workspace.leave machine =
      match machine.work.calls.pop with
      | .ok (frame, calls) => .ok frame { machine with work.calls := calls }
      | .error failure => .error failure machine := by
  simp only [onWork, Action.focus, Workspace.leave, bind, EStateM.bind, Action.get_eq]
  cases machine.work.calls.pop <;> rfl

/-- Unwinding replaces the calls in progress and nothing else. -/
theorem unwind_eq (depth : Int) (machine : Machine) :
    onWork (Workspace.unwind depth) machine =
      match machine.work.calls.unwind depth with
      | .ok calls => .ok () { machine with work.calls := calls }
      | .error failure => .error failure machine := by
  simp only [onWork, Action.focus, Workspace.unwind, bind, EStateM.bind, Action.get_eq]
  cases machine.work.calls.unwind depth <;> rfl

/-- Calling a routine enters its frame and goes to its code. -/
theorem callRoutine_eq (address returnTo : Int) (storeTo : Option Int) (arguments : List Int)
    (interrupt : Option Nat) (machine : Machine) :
    callRoutine address returnTo storeTo arguments interrupt machine =
      match Frame.ofRoutine machine.image machine.story.version address returnTo storeTo arguments
        interrupt with
      | .ok frame =>
          match machine.work.calls.push frame with
          | .ok calls => .ok () { machine with work.calls := calls, pc := frame.codeStart }
          | .error failure => .error failure machine
      | .error failure => .error failure machine := by
  unfold callRoutine ask
  simp only [bind, EStateM.bind, Action.get_eq]
  cases Frame.ofRoutine machine.image machine.story.version address returnTo storeTo arguments
    interrupt with
  | error failure => rfl
  | ok frame =>
      simp only [liftM, monadLift, MonadLift.monadLift, Action.ofResult, enter_eq]
      cases machine.work.calls.push frame <;> rfl

/-- Calling a routine is made of moves, one of which is a call. -/
theorem endsIn_callRoutine (survives : SurvivesFrom least reach allowed I) (calls : allowed .call)
    {machine : Machine} (holds : I machine)
    {address returnTo : Int} {storeTo : Option Int} {arguments : List Int}
    {interrupt : Option Nat} (returns : reach returnTo ∨ returnTo = machine.pc)
    (target : ∀ target, storeTo = some target → 0 ≤ target ∧ target < 256)
    (few : arguments.length ≤ 7) :
    EndsIn I (fun _ => True) (callRoutine address returnTo storeTo arguments interrupt)
      machine := by
  have run := callRoutine_eq address returnTo storeTo arguments interrupt machine
  cases opened : Frame.ofRoutine machine.image machine.story.version address returnTo storeTo
      arguments interrupt with
  | error failure =>
      rw [opened] at run
      exact .of_error run holds
  | ok frame =>
      rw [opened] at run
      dsimp only at run
      cases entered : machine.work.calls.push frame with
      | error failure =>
          rw [entered] at run
          exact .of_error run holds
      | ok within =>
          rw [entered] at run
          have called := survives.of_allowed calls holds (.call opened returns target few entered)
          exact .of_ok run called trivial

/-- The program counter can be moved before a result is stored just as well as after. -/
theorem endsIn_store_goTo (survives : SurvivesFrom least reach allowed I) {machine : Machine}
    {returnTo : Int} {action : Action Workspace Unit}
    (work : ∀ {K : Workspace → Prop}, Workspace.SurvivesChangesFrom least K → Keeps K action)
    (stays : I machine) (goes : I { machine with pc := returnTo }) :
    EndsIn I (fun _ => True) (do onWork action; goTo returnTo) machine := by
  have stored := survives.onWork work machine stays
  have moved := survives.onWork work _ goes
  simp only [EndsIn, bind, EStateM.bind, onWork, Action.focus] at stored moved ⊢
  cases outcome : action machine.work with
  | error failure work =>
      simp only [outcome] at stored ⊢
      exact stored
  | ok u work =>
      simp only [outcome] at moved ⊢
      exact moved

/-- A return to a caller, from what holds once the call is left. -/
theorem endsIn_returnFromRoutine (survives : SurvivesFrom least reach allowed I) {machine : Machine}
    {frame : Frame} {calls : CallStack} (popped : machine.work.calls.pop = .ok (frame, calls))
    (waits : frame.interrupt ≠ none → allowed .wait)
    (left : I { machine with work.calls := calls })
    (returned : I { machine with work.calls := calls, pc := frame.returnTo }) (value : Int) :
    EndsIn I (fun _ => True) (returnFromRoutine value) machine := by
  have run := leave_eq machine
  rw [popped] at run
  refine .after run ?_
  split
  · rename_i interrupted
    have waits : allowed .wait := waits (by simp [interrupted])
    exact keeps_interruptReturned survives waits _ value _ left
  · split
    · exact .of_ok rfl returned trivial
    · rename_i target _
      exact endsIn_store_goTo survives
        (fun changes => Workspace.keeps_setVariable changes target value false) left returned

/-- Returning from a routine is made of moves, among them leaving the routine and waiting again. -/
theorem keeps_returnFromRoutine (survives : SurvivesFrom least reach allowed I)
    (leaves : allowed .leave)
    (waits : allowed .wait) (value : Int) : Keeps I (returnFromRoutine value) := by
  intro machine holds
  cases popped : machine.work.calls.pop with
  | error failure =>
      have run := leave_eq machine
      rw [popped] at run
      exact .afterError run holds
  | ok pair =>
      obtain ⟨frame, calls⟩ := pair
      have left := survives.of_allowed leaves holds (.leave (CallStack.leftFrom_pop popped))
      have returned := survives.of_allowed leaves holds (.goBack popped)
      exact endsIn_returnFromRoutine survives popped (fun _ => waits) left returned value

/-- Leaving a routine is a move. -/
theorem keeps_leave (survives : SurvivesFrom least reach allowed I) (leaves : allowed .leave) :
    Keeps I (onWork Workspace.leave) := by
  intro machine holds
  have run := leave_eq machine
  cases popped : machine.work.calls.pop with
  | error failure =>
      rw [popped] at run
      exact .of_error run holds
  | ok pair =>
      rw [popped] at run
      have left := CallStack.leftFrom_pop popped
      exact .of_ok run (survives.of_allowed leaves holds (.leave left)) trivial

/-- Unwinding the calls in progress is made of moves. -/
theorem keeps_unwind (survives : SurvivesFrom least reach allowed I) (leaves : allowed .leave)
    (depth : Int) : Keeps I (onWork (Workspace.unwind depth)) := by
  intro machine holds
  have run := unwind_eq depth machine
  cases unwound : machine.work.calls.unwind depth with
  | error failure =>
      rw [unwound] at run
      exact .of_error run holds
  | ok calls =>
      rw [unwound] at run
      have left := CallStack.leftFrom_unwind unwound
      exact .of_ok run (survives.of_allowed leaves holds (.leave left)) trivial

/-- A branch goes to an address or returns from the routine. -/
theorem endsIn_takeBranch {J : Machine → Prop} (survives : SurvivesFrom least reach allowed I)
    (weaker : ∀ machine, I machine → J machine) {machine : Machine} (holds : I machine)
    {offset next : Int}
    (returns : offset = 0 ∨ offset = 1 →
      EndsIn J (fun _ => True) (returnFromRoutine offset) machine)
    (near : reach (next + offset - 2)) :
    EndsIn J (fun _ => True) (takeBranch offset next) machine := by
  unfold takeBranch
  split
  · rename_i returning
    exact returns returning
  · exact .of_ok rfl (weaker _ (survives.inner holds (.goTo near))) trivial

private theorem keeps_halt (survives : SurvivesFrom least reach allowed I) : Keeps I halt :=
  .seq (.modify fun _ holds => survives.inner holds .halt) fun _ =>
    keeps_flush survives.survivesAside

/-- Quitting is made of moves. -/
theorem keeps_quit (survives : SurvivesFrom least reach allowed I) : Keeps I quit :=
  .seq (keeps_note survives.survivesAside _ _ _) fun _ => keeps_halt survives

/-- Reporting a fault is beside the game. -/
theorem keeps_report (survives : SurvivesAside I) (notice : Notice) (fault : Fault)
    (description : String) : Keeps I (report notice fault description) := by
  unfold report
  cases notice with
  | silent => exact .pure trivial
  | failure => exact keeps_note survives _ _ _
  | warning =>
      refine .seq (keeps_note survives _ _ _) fun _ => ?_
      exact survives.modify fun _ => ⟨rfl, rfl⟩

/-- Dealing with a fault is made of moves. -/
theorem keeps_handleFault (survives : SurvivesFrom least reach allowed I) (fault : Fault)
    {instruction : Option Instruction}
    (fits : ∀ found, instruction = some found → found.Fits reach) :
    Keeps I (handleFault fault instruction) := by
  intro machine holds
  refine EndsIn.get ?_
  dsimp only
  refine EndsIn.modify (Ensures.seq (keeps_report survives.survivesAside _ _ _) (fun _ => ?_) _ ?_)
  · split
    · exact keeps_goTo survives (fits _ rfl).nextAddress
    · exact .seq (survives.aside fun _ => ⟨rfl, rfl⟩) fun _ => keeps_halt survives
  · refine survives.survivesAside _ _ holds ⟨rfl, ?_⟩
    exact congrArg (Terms.mk _ _) (Classifier.policy_classify _ _ _)

end Machine

end StoryMachine
