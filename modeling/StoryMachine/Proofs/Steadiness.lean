import StoryMachine.Proofs.Breaches
import StoryMachine.Proofs.Restoring

/-!
# Machines in good order

A machine in good order runs the story of its file, waits only for a request of
its ledger, and has streams that do not refuse. It stays in good order, and its
actions end in a breach only where text meets an alphabet with too few characters
or where a key was typed for a line.
-/

namespace StoryMachine

open StoryMachine.Action (Ensures Keeps FailsOnly FaultsOnly)

namespace Machine

variable {reach : Int → Prop} {kind : MoveKind} {machine after : Machine} {story : Story}
  {fresh : GameMemory}

/-- The machine runs the story, has numbered its requests, and waits only for one of them. -/
structure Core.Attends (story : Story) (core : Core) : Prop where
  story : core.story = story
  ready : core.ready = true
  numbered : ∀ (index : Nat) (request : InputRequest), core.requests[index]? = some request →
    request.token = index + 1
  awaited : core.phase.isWaiting = true →
    ∃ index, core.pending = some (index + 1) ∧ index < core.requests.size

/-- A request that is found has a number from one on, and not above the latest. -/
theorem exists_index_of_request? {token : Nat} {request : InputRequest}
    (found : machine.request? token = some request) :
    ∃ index, token = index + 1 ∧ index < machine.requests.size := by
  unfold request? at found
  cases token with
  | zero => simp at found
  | succ index => exact ⟨index, rfl, (Array.getElem?_eq_some_iff.mp found).1⟩

private theorem Core.Attends.move (attends : machine.core.Attends story)
    (loaded : Story.load machine.file.data = .ok (story, fresh))
    (move : Move reach kind machine after) : after.core.Attends story := by
  obtain ⟨same, ready, numbered, awaited⟩ := attends
  cases move with
  | aside apart =>
      rw [apart.core]
      exact ⟨same, ready, numbered, awaited⟩
  | request fits token =>
      refine ⟨same, ready, ?_, ?_⟩
      · intro index request found
        replace found := Array.getElem?_push.symm.trans found
        split at found
        · rename_i last
          cases found
          rw [token, last]
        · exact numbered index request found
      · intro waits
        obtain ⟨index, pending, inside⟩ := awaited waits
        refine ⟨index, pending, lt_of_lt_of_le inside ?_⟩
        exact (Nat.le_succ _).trans_eq (Array.size_push _).symm
  | retype same' =>
      refine ⟨same, ready, ?_, ?_⟩
      · intro index request found
        replace found := Array.getElem?_modify.symm.trans found
        split at found
        · obtain ⟨before, listed, rfl⟩ := Option.map_eq_some_iff.mp found
          rw [same' before]
          exact numbered index before listed
        · exact numbered index request found
      · intro waits
        obtain ⟨index, pending, inside⟩ := awaited waits
        exact ⟨index, pending, inside.trans_eq Array.size_modify.symm⟩
  | suspend found =>
      obtain ⟨index, rfl, inside⟩ := exists_index_of_request? found
      exact ⟨same, ready, numbered, fun _ => ⟨index, rfl, inside⟩⟩
  | «recall» found =>
      obtain ⟨index, rfl, inside⟩ := exists_index_of_request? found
      exact ⟨same, ready, numbered, fun _ => ⟨index, rfl, inside⟩⟩
  | finish => exact ⟨same, ready, numbered, fun waits => by cases waits⟩
  | interrupt => exact ⟨same, ready, numbered, fun waits => by cases waits⟩
  | abandon => exact ⟨same, ready, numbered, fun waits => by cases waits⟩
  | halt => exact ⟨same, ready, numbered, fun waits => by cases waits⟩
  | undo =>
      rw [core_withSnapshot]
      exact ⟨same, ready, numbered, awaited⟩
  | restore =>
      rw [core_withSnapshot]
      exact ⟨same, ready, numbered, awaited⟩
  | restart again =>
      have reloaded := loaded.symm.trans again
      cases reloaded
      rw [core_restarted, core_begun]
      exact ⟨rfl, rfl, numbered, fun waits => by cases waits⟩
  | _ => exact ⟨same, ready, numbered, awaited⟩

/-- A machine that attends its story, in memory that guards the file, and whose requests were
entered by instructions. -/
structure Attentive (story : Story) (machine : Machine) : Prop where
  protects : machine.core.Protects story.data
  ledger : machine.core.Ledger fun _ => True
  attends : machine.core.Attends story

/-- A machine stays attentive. -/
theorem closed_attentive (loaded : Story.load story.data = .ok (story, fresh)) :
    Closed (fun _ => True) (Attentive story) where
  move := by
    intro kind machine after _ attentive move
    have again : Story.load machine.file.data = .ok (story, fresh) := by
      rw [show machine.file.data = story.data from attentive.protects.file]
      exact loaded
    exact ⟨attentive.protects.move move, attentive.ledger.move move,
      attentive.attends.move again move⟩
  near := fun _ _ => trivial
  ledger := fun attentive found => attentive.ledger.found found

/-- A machine that has just been started is attentive. -/
theorem attentive_of_reset {unstarted started : Machine} (unused : unstarted.requests = #[])
    (accepted : reset unstarted = .ok () started) :
    ∃ story memory, Story.load story.data = .ok (story, memory) ∧ Attentive story started := by
  have protects := protects_of_reset accepted
  have ledger : started.core.Ledger fun _ => True := ledger_of_reset accepted unused
  obtain ⟨story, memory, loaded, rfl⟩ := reset_eq_ok accepted
  obtain ⟨same, -, -⟩ := Story.load_eq_ok loaded
  rw [← same] at loaded protects
  refine ⟨story, memory, loaded, protects, ledger, ?_⟩
  unfold opened
  rw [core_begun]
  refine ⟨rfl, rfl, ?_, fun waits => by cases waits⟩
  intro index request found
  have empty : unstarted.requests[index]? = some request := found
  rw [unused] at empty
  cases empty

/-- A machine in good order: it attends its story in memory that guards the file, its requests were
entered by instructions, and its streams do not refuse. -/
structure Steady (story : Story) (machine : Machine) : Prop where
  protects : machine.core.Protects story.data
  ledger : machine.core.Ledger fun _ => True
  attends : machine.core.Attends story
  willing : machine.terms.transcript = none ∧ machine.terms.script = none

/-- The request that a machine waits for is in its ledger. -/
theorem Steady.awaited (steady : Steady story machine) (waits : machine.phase.isWaiting = true) :
    ∃ token request, machine.pending = some token ∧ machine.request? token = some request ∧
      request.token = token := by
  obtain ⟨index, pending, inside⟩ := steady.attends.awaited waits
  have listed : machine.requests[index]? = some machine.requests[index] :=
    Array.getElem?_eq_getElem inside
  exact ⟨index + 1, _, pending, listed, steady.attends.numbered index _ listed⟩

/-- A machine in good order stays in good order. -/
theorem closed_steady (loaded : Story.load story.data = .ok (story, fresh)) :
    Closed (fun _ => True) (Steady story) where
  move := by
    intro kind machine after allowed steady move
    obtain ⟨protects, ledger, attends⟩ := (closed_attentive loaded).move allowed
      ⟨steady.protects, steady.ledger, steady.attends⟩ move
    refine ⟨protects, ledger, attends, ?_⟩
    rw [move.terms]
    exact steady.willing
  near := fun _ _ => trivial
  ledger := fun steady found => steady.ledger.found found

/-! ## Failures in good order -/

/-- When the time of a line last ran out, a key had been typed for it. -/
def HasTypedKey (machine : Machine) : Prop :=
  ∃ token request code, machine.request? token = some request ∧ request.kind = .line ∧
    request.typed = some (.key code)

/-- How an action of a machine in good order can fail: a rule is broken, an alphabet has too few
characters, or a key was typed for a line. -/
def Tolerates (story : Story) (failure : Failure) (machine : Machine) : Prop :=
  story.codec.Allows failure ∨ failure = .breach .keyForLine ∧ machine.HasTypedKey

/-- An action that fails only as an action of a machine in good order can. -/
abbrev Orderly {α : Type} (story : Story) (action : Play α) : Prop :=
  FailsOnly (Steady story) (Tolerates story) action

private theorem tolerates_of_isFault {failure : Failure} (fault : failure.IsFault) :
    Tolerates story failure machine :=
  .inl (.inl fault)

/-- What fails only by a fault fails as an action of a machine in good order may. -/
theorem tolerates_of_faults {α : Type} {result : Result α} (faults : Result.Faults result)
    (machine : Machine) : Result.FailsWith (Tolerates story · machine) result :=
  faults.weaken fun _ => tolerates_of_isFault

/-- A machine in good order may meet a fault. -/
theorem tolerates_ofCause (cause : Cause) (machine : Machine) :
    Tolerates story (.ofCause cause) machine :=
  tolerates_of_isFault ⟨_, rfl⟩

/-! ## Simple actions

An action that does not fail is said to fail as any property has it. -/

section Primitive

variable {α : Type} {P : Failure → Machine → Prop}

/-- An action on the workspace is orderly if it fails only by a fault. -/
theorem orderly_onWork {action : Action Workspace α}
    (fails : FaultsOnly Workspace.Whole action) : Orderly story (onWork action) :=
  .focus fails (fun _ steady => steady.protects.memory.dynamicEnd_le_size) fun _ _ =>
    tolerates_of_isFault

/-- An edit of memory is orderly if it fails only by a fault. -/
theorem orderly_onMemory {action : GameMemory.Edit α}
    (fails : FaultsOnly GameMemory.Whole action) : Orderly story (onMemory action) :=
  orderly_onWork (.focus fails (fun _ whole => whole) fun _ _ fault => fault)

/-- Writing a variable is orderly. -/
theorem orderly_setVariable (number value : Int) (indirect : Bool) :
    Orderly story (onWork (Workspace.setVariable number value indirect)) :=
  orderly_onWork (Workspace.faultsOnly_setVariable number value indirect)

/-- A question is orderly if it fails only as the codec allows. -/
theorem orderly_ask {question : Image → Result α}
    (fails : ∀ image, Result.FailsWith story.codec.Allows (question image)) :
    Orderly story (ask question) :=
  .get fun machine _ => .lift fun _ => (fails machine.image).weaken fun _ => .inl

/-- A question that is not about text. -/
theorem orderly_inquire {question : Image → Result α}
    (faults : ∀ image, Result.Faults (question image)) : Orderly story (ask question) :=
  orderly_ask fun image => (faults image).weaken fun _ => .inl

/-- A machine in good order has its story. -/
theorem unfailing_requireStory (breach : Breach) :
    FailsOnly (Steady story) P (requireStory breach) := by
  refine .get fun machine steady => ?_
  rw [show machine.ready = true from steady.attends.ready]
  exact .pure _

private theorem unfailing_flushSink {part : Machine → Option Sink}
    {withPart : Option Sink → Machine → Machine}
    (quiet : ∀ machine sink, Steady story machine → part machine = some sink →
      sink.refusal = none) : FailsOnly (Steady story) P (flushSink part withPart) := by
  refine .get fun machine steady => ?_
  split
  · exact .pure _
  · rename_i sink found
    refine .ask (fun _ => ?_) fun flushed _ => .modify _
    unfold Sink.flush
    rw [quiet machine sink steady found]
    simp

private theorem unfailing_flushTranscript : FailsOnly (Steady story) P flushTranscript := by
  refine unfailing_flushSink fun machine sink steady found => ?_
  simpa [terms, found] using steady.willing.1

private theorem unfailing_flushScript : FailsOnly (Steady story) P flushScript := by
  refine unfailing_flushSink fun machine sink steady found => ?_
  simpa [terms, found] using steady.willing.2

private theorem orderly_openMemoryStream (table : Int) : Orderly story (openMemoryStream table) :=
  .get fun _ _ => .excluded (tolerates_ofCause _) (.modify _)

private theorem orderly_setTranscriptOn (on : Bool) : Orderly story (setTranscriptOn on) := by
  refine .get fun machine _ => ?_
  split
  · exact .modify _
  · exact .pure _

/-- Selecting an output stream is orderly. -/
theorem orderly_selectOutput (stream table : Int) : Orderly story (selectOutput stream table) := by
  unfold selectOutput
  split
  · exact .modify _
  split
  · exact orderly_setTranscriptOn true
  split
  · exact orderly_openMemoryStream table
  split
  · exact .modify _
  · exact .modify _

private theorem orderly_storeAnswer (request : InputRequest) (value : Int) :
    Orderly story (storeAnswer request value) := by
  unfold storeAnswer
  split
  · exact .pure _
  · exact orderly_setVariable _ _ _

/-- Nothing goes wrong when a line is recorded. -/
theorem failsWith_commandEntered {R : Failure → Prop} (text : Text) :
    Action.FailsWith R (commandEntered text) := by
  have scripted : Action.FailsWith R (do
      if (← get).script.any (·.active) then
        toScript text
        toScript [0x0a] : Play Unit) := by
    refine .bind .get fun machine => ?_
    split
    · exact .bind (.modify _) fun _ => .modify _
    · exact .pure _
  unfold commandEntered
  refine .bind .get fun machine => ?_
  split
  · exact .bind (.modify _) fun _ => .bind (.modify _) fun _ => scripted
  · exact scripted

private theorem unfailing_commandEntered (text : Text) :
    FailsOnly (Steady story) P (commandEntered text) :=
  .of_failsWith (R := fun _ => False) (failsWith_commandEntered text) fun _ _ => False.elim

private theorem orderly_fillTextBuffer (buffer : Int) (codes : List Int) :
    Orderly story (fillTextBuffer buffer codes) := by
  unfold fillTextBuffer
  refine .get fun machine _ => ?_
  split
  · exact .answered (orderly_onMemory (GameMemory.faultsOnly_writeRun _ _)) _
  · exact .answered (orderly_onMemory (GameMemory.faultsOnly_writeRun _ _)) _

/-- Calling a routine is orderly. -/
theorem orderly_callRoutine (address returnTo : Int) (storeTo : Option Int) (arguments : List Int)
    (interrupt : Option Nat) :
    Orderly story (callRoutine address returnTo storeTo arguments interrupt) := by
  intro machine after failure _ failed
  rw [callRoutine_eq] at failed
  split at failed
  · rename_i frame _
    split at failed
    · cases failed
    · rename_i reason refused
      cases failed
      exact tolerates_of_isFault (machine.work.calls.failsWith_push frame _ refused)
  · rename_i reason refused
    cases failed
    exact tolerates_of_isFault (Frame.failsWith_ofRoutine _ _ _ _ _ _ _ _ refused)

/-- A restore is orderly. -/
theorem orderly_restore : Orderly story restore :=
  fun _ _ _ steady failed =>
    tolerates_of_isFault ((restore_of_protects steady.protects).2.1 _ _ failed).1

end Primitive

section Actions

variable {P : Failure → Machine → Prop} (loaded : Story.load story.data = .ok (story, fresh))

include loaded

/-! ## Output -/

private theorem orderly_writeAllToStream (codes : List Int) : Orderly story (writeAllToStream codes) := by
  have closed := closed_steady loaded
  induction codes with
  | nil => exact .pure _
  | cons code rest ih =>
      refine .seq ?_ (closed.printing.writes code) fun _ => ih
      unfold writeToStream
      refine .get fun machine _ => ?_
      split
      · exact .pure _
      · refine .seq (orderly_onMemory (GameMemory.faultsOnly_write _ _)) ?_ fun _ => .modify _
        exact closed.onMemory fun edit => GameMemory.keeps_write edit _ _

private theorem orderly_emit (text : Text) (codes : List Int) : Orderly story (emit text codes) := by
  have closed := closed_steady loaded
  unfold emit
  refine .get fun machine _ => ?_
  split
  · refine .check (.modify _) (keeps_onScreen closed.survivesAside _) fun _ => ?_
    split
    · exact .modify _
    · exact .pure _
  · exact orderly_writeAllToStream loaded codes

/-- Printing is orderly. -/
theorem orderly_print (text : Text) : Orderly story (print text) := by
  unfold print
  split
  · exact .pure _
  · exact .get fun machine _ => orderly_emit loaded text _

/-- Printing a new line is orderly. -/
theorem orderly_newLine : Orderly story newLine :=
  orderly_emit loaded _ _

private theorem unfailing_flush : FailsOnly (Steady story) P flush :=
  .seq unfailing_flushTranscript (keeps_flushTranscript (closed_steady loaded).survivesAside)
    fun _ => unfailing_flushScript

/-- Deselecting an output stream is orderly. -/
theorem orderly_deselectOutput (stream : Int) : Orderly story (deselectOutput stream) := by
  have closed := closed_steady loaded
  unfold deselectOutput
  split
  · exact .modify _
  split
  · exact .seq (orderly_setTranscriptOn false) (keeps_setTranscriptOn closed false) fun _ =>
      unfailing_flushTranscript
  split
  · refine .get fun machine _ => ?_
    split
    · exact .pure _
    · refine .seq (.modify _) (closed.aside fun _ => ⟨rfl, rfl⟩) fun _ => ?_
      exact orderly_onMemory (GameMemory.faultsOnly_writeWord _ _)
  split
  · exact .seq (.modify _) (keeps_setScriptActive closed.survivesAside false) fun _ =>
      unfailing_flushScript
  · exact .pure _

/-! ## Reading from the player -/

/-- Showing the status line is orderly. -/
theorem orderly_showStatus : Orderly story showStatus := by
  have closed := closed_steady loaded
  have global (index : Int) : Orderly story (onWork (Workspace.getGlobal index)) :=
    orderly_onWork (.of_faults (Workspace.failsWith_getGlobal index))
  have kept (index : Int) : Keeps (Steady story) (onWork (Workspace.getGlobal index)) :=
    closed.onWork fun _ => Workspace.keeps_getGlobal index
  have rest (room : Text) : Orderly story (do
      let first ← onWork (Workspace.getGlobal 1)
      let second ← onWork (Workspace.getGlobal 2)
      if (← get).image.showsTime then
        onScreen (·.showStatus { room, scoreMode := false, hours := first, minutes := second })
      else
        onScreen (·.showStatus { room, score := Word.signed first, turns := second })) := by
    refine .seq (global 1) (kept 1) fun first => .seq (global 2) (kept 2) fun second => ?_
    refine .get fun machine _ => ?_
    split
    · exact .modify _
    · exact .modify _
  unfold showStatus
  refine .seq (global 0) (kept 0) fun roomId => .get fun machine steady => ?_
  rw [show machine.story = story from steady.attends.story]
  dsimp only
  split
  · exact .seq (orderly_ask fun image => story.failsWith_objectName image roomId) (keeps_ask _) rest
  · exact rest []

/-- To begin reading a line is orderly. -/
theorem orderly_beginLine (instruction : Instruction) (textBuffer parseBuffer time routine : Int) :
    Orderly story (beginLine instruction textBuffer parseBuffer time routine) := by
  have closed := closed_steady loaded
  have entered (request : Nat → InputRequest) : Orderly story (newRequest request) :=
    .get fun _ _ => .answered (.modify _) _
  unfold beginLine
  refine .get fun machine _ => ?_
  refine .check (orderly_showStatus loaded) (keeps_showStatus closed.survivesAside) fun _ => ?_
  refine .seq (orderly_inquire fun image => image.failsWith_byte _) (keeps_ask _) fun size => ?_
  refine .get fun machine _ => ?_
  dsimp only
  split
  · exact .ask (tolerates_of_faults machine.image.failsWith_terminators) fun _ _ => entered _
  · refine .ask (tolerates_of_faults (machine.image.failsWith_textBuffer _)) fun codes _ => ?_
    refine .get fun _ _ => ?_
    exact .ask (tolerates_of_faults machine.image.failsWith_terminators) fun _ _ => entered _

/-- To suspend a read does not fail. -/
theorem unfailing_suspend (token : Nat) : FailsOnly (Steady story) P (suspend token) := by
  intro machine after failure steady failed
  unfold suspend at failed
  rw [Action.get_bind] at failed
  cases found : machine.request? token with
  | none =>
      rw [found] at failed
      cases failed
  | some request =>
      rw [found] at failed
      have waiting := (closed_steady loaded).of_allowed trivial steady (.suspend found)
      exact unfailing_flush loaded _ _ _ waiting failed

private theorem orderly_finish {request : InputRequest} (fits : request.Fits fun _ => True) (value : Int) :
    Orderly story (do finishRequest request; storeAnswer request value) :=
  .seq (.modify _)
    (.modify fun _ steady => (closed_steady loaded).inner steady (.finish fits)) fun _ =>
      orderly_storeAnswer request value

/-- A line that is text can be read. -/
theorem orderly_finishLine {request : InputRequest} (fits : request.Fits fun _ => True)
    (text : Text) (terminator : Int) :
    Orderly story (finishLine request (.text text) terminator) := by
  have closed := closed_steady loaded
  obtain ⟨compact, same⟩ := Story.codec_of_load loaded
  rw [← same] at compact
  unfold finishLine
  refine .get fun machine steady => ?_
  rw [show machine.story = story from steady.attends.story]
  refine .seq (orderly_fillTextBuffer _ _) (keeps_fillTextBuffer closed (.inl rfl) _)
    fun offset => ?_
  refine .check (unfailing_commandEntered text) (keeps_commandEntered closed.survivesAside text)
    fun _ => ?_
  dsimp only
  split
  · refine .seq (orderly_onMemory (Dictionary.faultsOnly_tokenise compact _ _ _ _)) ?_ fun _ => ?_
    · exact closed.onMemory fun edit => Dictionary.keeps_tokenise edit _ _ _ _ _
    · exact orderly_finish loaded fits terminator
  · exact orderly_finish loaded fits terminator

/-- To finish reading a key is orderly. -/
theorem orderly_finishKey {request : InputRequest} (fits : request.Fits fun _ => True)
    (entry : Option Entry) : Orderly story (finishKey request entry) :=
  .get fun _ _ => orderly_finish loaded fits _

private theorem orderly_interruptReturned (token : Nat) (value : Int) :
    Orderly story (interruptReturned token value) := by
  have closed := closed_steady loaded
  intro machine after failure steady failed
  unfold interruptReturned at failed
  rw [Action.get_bind] at failed
  cases found : machine.request? token with
  | none =>
      rw [found] at failed
      cases failed
  | some request =>
      rw [found] at failed
      have fits := steady.ledger.found found
      have pending := closed.of_allowed trivial steady (.recall found)
      have waits : Orderly story (do
          changeRequest token fun request =>
            { request with initial := request.typed.getD request.initial }
          suspend token) :=
        .seq (.modify _) (keeps_changeRequest closed token fun _ => rfl) fun _ =>
          unfailing_suspend loaded token
      dsimp only at failed
      rw [Action.modify_bind] at failed
      split at failed
      · cases kind : request.kind with
        | key =>
            rw [kind] at failed
            exact orderly_finishKey loaded fits none _ _ _ pending failed
        | line =>
            rw [kind] at failed
            cases typed : request.typed with
            | none =>
                rw [typed] at failed
                exact orderly_finishLine loaded fits [] 0 _ _ _ pending failed
            | some entry =>
                rw [typed] at failed
                cases entry with
                | text text => exact orderly_finishLine loaded fits text 0 _ _ _ pending failed
                | key code =>
                    -- What was typed is not text, and a line cannot be finished with it.
                    cases failed
                    exact .inr ⟨rfl, token, request, code, found, kind, typed⟩
      · exact waits _ _ _ pending failed

/-! ## Calling and returning -/

/-- Returning from a routine is orderly. -/
theorem orderly_returnFromRoutine (value : Int) : Orderly story (returnFromRoutine value) := by
  have closed := closed_steady loaded
  unfold returnFromRoutine
  refine .seq (orderly_onWork (.of_faults Workspace.failsWith_leave)) (keeps_leave closed trivial)
    fun frame => ?_
  split
  · exact orderly_interruptReturned loaded _ value
  split
  · exact .modify _
  · refine .seq (orderly_setVariable _ _ _) ?_ fun _ => .modify _
    exact closed.onWork fun changes => Workspace.keeps_setVariable changes _ _ _

/-- Taking a branch is orderly. -/
theorem orderly_takeBranch (offset next : Int) : Orderly story (takeBranch offset next) := by
  unfold takeBranch
  split
  · exact orderly_returnFromRoutine loaded offset
  · exact .modify _

private theorem unfailing_halt : FailsOnly (Steady story) P halt :=
  .seq (.modify _) (.modify fun _ steady => (closed_steady loaded).inner steady .halt) fun _ =>
    unfailing_flush loaded

/-- Quitting does not fail. -/
theorem unfailing_quit : FailsOnly (Steady story) P quit :=
  .seq (.modify _) (keeps_note (closed_steady loaded).survivesAside _ _ _) fun _ =>
    unfailing_halt loaded

private theorem unfailing_report (notice : Notice) (fault : Fault) (description : String) :
    FailsOnly (Steady story) P (report notice fault description) := by
  have closed := closed_steady loaded
  unfold report
  cases notice with
  | silent => exact .pure _
  | failure => exact .modify _
  | warning => exact .seq (.modify _) (keeps_note closed.survivesAside _ _ _) fun _ => .modify _

/-- Dealing with a fault does not fail. -/
theorem unfailing_handleFault (fault : Fault) (instruction : Option Instruction) :
    FailsOnly (Steady story) P (handleFault fault instruction) := by
  have closed := closed_steady loaded
  intro machine after failure steady failed
  unfold handleFault at failed
  rw [Action.get_bind] at failed
  dsimp only at failed
  rw [Action.modify_bind] at failed
  refine FailsOnly.seq (unfailing_report loaded _ _ _) (keeps_report closed.survivesAside _ _ _)
    (fun _ => ?_) _ _ _ ?_ failed
  · split
    · exact .modify _
    · exact .seq (.modify _) (closed.aside fun _ => ⟨rfl, rfl⟩) fun _ => unfailing_halt loaded
  · refine closed.survivesAside _ _ steady ⟨rfl, ?_⟩
    exact congrArg (Terms.mk _ _) (Classifier.policy_classify _ _ _)

/-! ## Starting again and restoring -/

/-- A restart does not fail: the story has been loaded before. -/
theorem unfailing_restart : FailsOnly (Steady story) P restart := by
  intro machine after failure steady failed
  rw [restart_eq, show machine.file.data = story.data from steady.protects.file, loaded] at failed
  cases failed

private theorem orderly_resumeAfterSave (pc : Int) : Orderly story (resumeAfterSave pc) := by
  have closed := closed_steady loaded
  refine .get fun machine _ => ?_
  split
  · refine .seq (orderly_inquire fun image => image.failsWith_readBranch pc) (keeps_ask _) ?_
    rintro ⟨branch, next⟩
    dsimp only
    split
    · exact orderly_takeBranch loaded _ _
    · exact .modify _
  · refine .seq (orderly_inquire fun image => image.failsWith_byte pc) (keeps_ask _)
      fun target => ?_
    refine .seq (orderly_setVariable _ _ _) ?_ fun _ => .modify _
    exact closed.onWork fun changes => Workspace.keeps_setVariable changes _ _ _

/-- Going back to a snapshot is orderly. -/
theorem orderly_restoreUndo : Orderly story restoreUndo := by
  have closed := closed_steady loaded
  intro machine after failure steady failed
  unfold restoreUndo at failed
  rw [Action.get_bind] at failed
  cases newest : machine.undo with
  | nil =>
      rw [newest] at failed
      cases failed
  | cons game rest =>
      rw [newest] at failed
      dsimp only at failed
      rw [Action.modify_bind] at failed
      have run := applySnapshot_eq game { machine with undo := rest }
      by_cases size : (game.dynamic.length : Int) = machine.work.memory.dynamicEnd
      · rw [if_pos size] at run
        rw [Action.bind_of_ok run] at failed
        have replaced := closed.of_allowed trivial steady (.undo newest size)
        exact FailsOnly.answered (orderly_resumeAfterSave loaded game.pc) _ _ _ _ replaced failed
      · rw [if_neg size] at run
        rw [Action.bind_of_error run] at failed
        cases failed
        exact tolerates_ofCause _ _

end Actions

end Machine

end StoryMachine
