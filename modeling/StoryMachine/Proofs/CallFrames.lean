import StoryMachine.Proofs.Assignments
import StoryMachine.Proofs.Savable

/-!
# Frames of outer calls

While a call is in progress, nothing that the machine does reaches the frames
below it, and where the call returns to is settled when its frame is made. A
return therefore finds the frames of the moment of the call, and adds nothing to
them but the returned value.
-/

namespace StoryMachine

open StoryMachine.Action (Ensures Keeps EndsIn)

namespace Frame

/-- A frame without its values: where the call came from and where its result goes. -/
def linkage (frame : Frame) : Frame :=
  { frame with locals := [], stack := [] }

private theorem Revises.linkage_eq {before after : Frame} (revises : before.Revises after) :
    after.linkage = before.linkage := by
  rw [revises.linkage]
  rfl

/-- The frame of a call records what the call gives it. -/
theorem linkage_of_ofRoutine {image : Image} {version : Version} {start returnTo : Int}
    {storeTo : Option Int} {arguments : List Int} {interrupt : Option Nat} {frame : Frame}
    (opened : ofRoutine image version start returnTo storeTo arguments interrupt = .ok frame) :
    frame.returnTo = returnTo ∧ frame.storeTo = storeTo ∧ frame.interrupt = interrupt := by
  unfold ofRoutine at opened
  obtain ⟨count, -, opened⟩ := Result.bind_eq_ok opened
  dsimp only at opened
  split at opened
  · cases opened
  split at opened
  all_goals
    obtain ⟨initial, -, opened⟩ := Result.bind_eq_ok opened
    cases opened
    exact ⟨rfl, rfl, rfl⟩

end Frame

namespace CallStack

variable {calls after : CallStack} {base : List Frame} {link frame : Frame}

/-- The calls in progress, without the values of the current one. -/
def outline (calls : CallStack) : CallStack :=
  { calls with current := calls.current.linkage }

/-- The call with the given linkage stands right above the given frames, the innermost first. -/
def Rests (base : List Frame) (link : Frame) (calls : CallStack) : Prop :=
  ∃ above frame, calls.innermostFirst = above ++ frame :: base ∧ frame.linkage = link

/-- There are as many frames as the calls are deep. -/
theorem length_innermostFirst (calls : CallStack) : calls.innermostFirst.length = calls.depth :=
  rfl

private theorem depth_outline (calls : CallStack) : calls.outline.depth = calls.depth :=
  rfl

/-- Calls with the same outline are equally deep. -/
theorem depth_eq_of_outline (same : after.outline = calls.outline) : after.depth = calls.depth := by
  rw [← depth_outline, same, depth_outline]

/-- Every frame with a frame below it rests on those. -/
theorem exists_rests {depth : Nat} (deep : depth < calls.depth) :
    ∃ base link, base.length = depth ∧ calls.Rests base link := by
  have total := calls.length_innermostFirst
  cases split : calls.innermostFirst.drop (calls.depth - depth - 1) with
  | nil =>
      have short := List.drop_eq_nil_iff.mp split
      omega
  | cons frame base =>
      refine ⟨base, frame.linkage, ?_, calls.innermostFirst.take (calls.depth - depth - 1), frame,
        ?_, rfl⟩
      · have lengths := congrArg List.length split
        rw [List.length_drop, total, List.length_cons] at lengths
        omega
      · rw [← split, List.take_append_drop]

/-- Calls can be left down to any number of frames that there are. -/
theorem exists_unwind {depth : Nat} (least : 1 ≤ depth) (most : depth ≤ calls.depth) :
    ∃ after, calls.unwind depth = .ok after ∧ after.LeftFrom calls ∧ after.depth = depth := by
  have total := calls.length_innermostFirst
  have within : 1 ≤ (depth : Int) ∧ (depth : Int) ≤ calls.depth := by omega
  cases split : calls.innermostFirst.drop (calls.depth - depth) with
  | nil =>
      have short := List.drop_eq_nil_iff.mp split
      omega
  | cons current callers =>
      have unwound : calls.unwind depth = .ok { current, callers } := by
        unfold innermostFirst at split
        rw [unwind, if_pos within, Int.toNat_natCast, split]
      have lengths := congrArg List.length split
      rw [List.length_drop, total] at lengths
      refine ⟨_, unwound, leftFrom_unwind unwound, ?_⟩
      exact lengths.symm.trans (by omega)

namespace Rests

/-- Calls that rest on some frames are deeper than these are many. -/
theorem depth (rests : calls.Rests base link) : base.length < calls.depth := by
  obtain ⟨above, frame, listed, -⟩ := rests
  rw [← length_innermostFirst, listed]
  simp
  omega

/-- The frames below the call are the first ones. -/
theorem take (rests : calls.Rests base link) : calls.frames.take base.length = base.reverse := by
  obtain ⟨above, frame, listed, -⟩ := rests
  rw [frames_eq, listed]
  simp

/-- The current call rests on its callers. -/
theorem current (rests : calls.Rests base link) (top : calls.depth = base.length + 1) :
    calls.current.linkage = link ∧ calls.callers = base := by
  obtain ⟨above, frame, listed, same⟩ := rests
  have lengths := congrArg List.length listed
  rw [length_innermostFirst, top, List.length_append, List.length_cons] at lengths
  obtain rfl : above = [] := List.eq_nil_of_length_eq_zero (by omega)
  rw [innermostFirst, List.nil_append, List.cons.injEq] at listed
  exact ⟨listed.1 ▸ same, listed.2⟩

/-- Other values in the current frame make no difference. -/
theorem of_outline (rests : calls.Rests base link) (same : after.outline = calls.outline) :
    after.Rests base link := by
  obtain ⟨linked, callers⟩ := CallStack.mk.inj same
  obtain ⟨above, frame, listed, same⟩ := rests
  cases above with
  | nil =>
      rw [innermostFirst, List.nil_append, List.cons.injEq] at listed
      obtain ⟨rfl, rfl⟩ := listed
      refine ⟨[], after.current, ?_, linked.trans same⟩
      rw [innermostFirst, callers, List.nil_append]
  | cons current above =>
      rw [innermostFirst, List.cons_append, List.cons.injEq] at listed
      refine ⟨after.current :: above, frame, ?_, same⟩
      rw [innermostFirst, callers, listed.2, List.cons_append]

private theorem push (rests : calls.Rests base link) (entered : calls.push frame = .ok after) :
    after.Rests base link := by
  obtain ⟨above, below, listed, same⟩ := rests
  unfold CallStack.push at entered
  split at entered
  · cases entered
  · cases entered
    refine ⟨frame :: above, below, ?_, same⟩
    rw [List.cons_append, ← listed]
    rfl

/-- Leaving calls above the one in hand makes no difference to it. -/
theorem left (rests : calls.Rests base link) (left : after.LeftFrom calls)
    (deep : base.length < after.depth) : after.Rests base link := by
  obtain ⟨above, frame, listed, same⟩ := rests
  unfold LeftFrom at left
  rw [listed] at left
  have short : (frame :: base).length ≤ after.innermostFirst.length := by
    rw [length_innermostFirst, List.length_cons]
    omega
  obtain ⟨front, rest⟩ := List.suffix_of_suffix_length_le (List.suffix_append _ _) left short
  exact ⟨front, frame, rest.symm, same⟩

end Rests

end CallStack

/-- The operations that put another game in place of the one in progress. -/
def Operation.replaces : Operation → Bool
  | .restore | .restoreUndo | .restart => true
  | _ => false

/-- Of the operations that put no other game in place, only a throw needs a move of its own. -/
theorem Operation.eq_throwTo_of_needs {operation : Operation} {kind : Machine.MoveKind}
    (stays : operation.replaces = false) (needs : operation.Needs kind) : operation = .throwTo := by
  cases operation with
  | throwTo => rfl
  | restore => cases stays
  | restoreUndo => cases stays
  | _ => exact needs.elim

/-- An operation that keeps the game in progress moves it at most by leaving calls. -/
theorem Operation.eq_leave_of_needs {operation : Operation} {kind : Machine.MoveKind}
    (stays : operation.replaces = false) (needs : operation.Needs kind) : kind = .leave := by
  rw [eq_throwTo_of_needs stays needs] at needs
  exact needs

namespace Machine

variable {reach : Int → Prop} {I : Machine → Prop} {machine after : Machine}
  {base : List Frame} {link : Frame} {instruction : Instruction}

/-! ## Moves and frames -/

/-- An inner move leaves the outline of the calls. -/
theorem MoveFrom.outline (move : Move reach .inner machine after) :
    after.work.calls.outline = machine.work.calls.outline := by
  cases move with
  | aside apart =>
      have work : after.work = machine.work := congrArg Core.work apart.core
      rw [work]
  | revise revises =>
      unfold CallStack.outline
      dsimp only
      rw [revises.linkage_eq]
  | _ => rfl

/-- What the machine waits for is apart from its workspace. -/
theorem MoveFrom.work_wait (move : Move reach .wait machine after) : after.work = machine.work := by
  cases move <;> rfl

private theorem MoveFrom.entered (move : Move reach .call machine after) :
    ∃ frame, machine.work.calls.push frame = .ok after.work.calls := by
  cases move with
  | call opened returns target few entered => exact ⟨_, entered⟩

/-- A move that leaves routines leaves the frames below them. -/
theorem MoveFrom.left (move : Move reach .leave machine after) :
    after.work.calls.LeftFrom machine.work.calls := by
  cases move with
  | leave left => exact left
  | goBack popped => exact CallStack.leftFrom_pop popped

/-- A call in progress stays where it is while calls are only entered. -/
theorem survives_rests (closed : Closed reach I) (base : List Frame) (link : Frame) :
    Survives reach (· = .call)
      (fun machine => I machine ∧ machine.work.calls.Rests base link) where
  move := by
    rintro kind machine after (rfl | rfl) ⟨holds, rests⟩ move
    · exact ⟨closed.inner holds move, rests.of_outline move.outline⟩
    · obtain ⟨frame, entered⟩ := move.entered
      exact ⟨closed.of_allowed trivial holds move, rests.push entered⟩
  near := fun holds => closed.near holds.1
  ledger := fun holds => closed.ledger holds.1

/-- A call in progress stays where it is while calls are only left, until it is left itself. -/
theorem survives_unless_left (closed : Closed reach I) (base : List Frame) (link : Frame) :
    Survives reach (fun kind => kind = .leave ∨ kind = .wait)
      (fun machine => I machine ∧
        (base.length < machine.work.calls.depth → machine.work.calls.Rests base link)) where
  move := by
    rintro kind machine after (rfl | rfl | rfl) ⟨holds, rests⟩ move
    · refine ⟨closed.inner holds move, fun deep => ?_⟩
      rw [CallStack.depth_eq_of_outline move.outline] at deep
      exact (rests deep).of_outline move.outline
    · refine ⟨closed.of_allowed trivial holds move, fun deep => ?_⟩
      have shorter : after.work.calls.depth ≤ machine.work.calls.depth := move.left.length_le
      exact (rests (by omega)).left move.left deep
    · refine ⟨closed.of_allowed trivial holds move, ?_⟩
      rw [move.work_wait]
      exact rests
  near := fun holds => closed.near holds.1
  ledger := fun holds => closed.ledger holds.1

/-- The moves within a call leave its outline, and so does waiting. -/
theorem survives_outline (closed : Closed reach I) (calls : CallStack) :
    Survives reach (· = .wait)
      (fun machine => I machine ∧ machine.work.calls.outline = calls.outline) where
  move := by
    rintro kind machine after (rfl | rfl) ⟨holds, same⟩ move
    · exact ⟨closed.inner holds move, move.outline.trans same⟩
    · refine ⟨closed.of_allowed trivial holds move, ?_⟩
      rw [move.work_wait]
      exact same
  near := fun holds => closed.near holds.1
  ledger := fun holds => closed.ledger holds.1

/-! ## Executing an instruction -/

/-- A call is entered at once, or after leaving the current one nothing else is entered. -/
theorem needs_of_fits {next : Next} (asked : next.Fits instruction)
    (stays : instruction.opcode.operation ≠ .restart) :
    (∀ kind, next.Needs instruction kind → kind = .leave ∨ kind = .wait) ∨
      (∀ kind, next.Needs instruction kind → kind = .call) ∧
        instruction.opcode.operation ≠ .throwTo := by
  cases next with
  | call address storeTo arguments =>
      refine .inr ⟨fun kind needs => needs, ?_⟩
      rcases asked.1 with ⟨calls, -⟩ | ⟨calls, -⟩ <;> simp [calls]
  | restart => exact absurd asked stays
  | «return» value => exact .inl fun kind needs => needs
  | read token => exact .inl fun kind needs => .inr needs
  | branch outcome => exact .inl fun kind needs => needs.1
  | storeAndBranch value outcome => exact .inl fun kind needs => needs.1
  | _ => exact .inl fun kind needs => needs.elim

/-- An instruction that does not put another game in place leaves the calls below the one in hand
alone, unless it returns to them. -/
theorem endsIn_executeInstruction (closed : Closed reach I) (fits : instruction.Fits reach)
    (few : instruction.operands.length ≤ 8) (listed : instruction.opcode ∈ Opcode.all)
    (stays : instruction.opcode.operation.replaces = false) (holds : I machine)
    (rests : machine.work.calls.Rests base link) :
    EndsIn
      (fun after => I after ∧
        (base.length < after.work.calls.depth → after.work.calls.Rests base link))
      (fun _ => True) (executeInstruction instruction) machine := by
  have enters := survives_rests closed base link
  have leaves := survives_unless_left closed base link
  have weaker (after : Machine) (kept : I after ∧ after.work.calls.Rests base link) :
      I after ∧ (base.length < after.work.calls.depth → after.work.calls.Rests base link) :=
    ⟨kept.1, fun _ => kept.2⟩
  have starts : instruction.opcode.operation ≠ .restart := by
    rintro restarts
    rw [restarts] at stays
    cases stays
  refine EndsIn.bind (ensures_operandValues enters few listed machine ⟨holds, rests⟩) weaker ?_
  intro values read kept given
  by_cases throws : instruction.opcode.operation = .throwTo
  · have may (kind : MoveKind) (needs : instruction.opcode.operation.Needs kind) :
        kind = .leave ∨ kind = .wait := by
      rw [throws] at needs
      exact .inl needs
    refine EndsIn.bind (ensures_perform leaves fits given.1 given.2 may read (weaker read kept))
      (fun _ held => held) ?_
    intro next done held asked
    rcases needs_of_fits asked starts with only | ⟨-, stays⟩
    · exact keeps_settle leaves fits asked only done held
    · exact absurd throws stays
  · have may (kind : MoveKind) (needs : instruction.opcode.operation.Needs kind) : kind = .call :=
      absurd (Operation.eq_throwTo_of_needs stays needs) throws
    refine EndsIn.bind (ensures_perform enters fits given.1 given.2 may read kept) weaker ?_
    intro next done held asked
    rcases needs_of_fits asked starts with only | ⟨only, -⟩
    · exact keeps_settle leaves fits asked only done (weaker done held)
    · exact (keeps_settle enters fits asked only done held).weaken weaker

private theorem endsIn_execute (closed : Closed reach I)
    (stays : ∀ instruction, machine.instructionAt machine.pc = .ok instruction →
      instruction.opcode.operation.replaces = false)
    (holds : I machine) (rests : machine.work.calls.Rests base link) :
    EndsIn
      (fun after => I after ∧
        (base.length < after.work.calls.depth → after.work.calls.Rests base link))
      (fun _ => True) execute machine := by
  have leaves := survives_unless_left closed base link
  cases decoded : machine.instructionAt machine.pc with
  | ok instruction =>
      have within := Instruction.within_of_read decoded
      have fits : instruction.Fits reach := within.fits fun _ => closed.near holds
      have taken : I (machine.taking instruction) :=
        closed.survivesAside _ _ holds ⟨rfl, rfl⟩
      refine EndsIn.of_eq (execute_eq decoded) (EndsIn.onFault ?_ fun fault => ?_)
      · exact endsIn_executeInstruction closed fits within.operands
          (Instruction.opcode_mem_all_of_read decoded) (stays instruction decoded) taken rests
      · refine keeps_handleFault leaves fault ?_
        rintro found ⟨⟩
        exact fits
  | error failure =>
      refine EndsIn.get ?_
      rw [decoded]
      cases failure with
      | fault fault => exact keeps_handleOutside leaves fault machine ⟨holds, fun _ => rests⟩
      | breach breach => exact .of_error rfl ⟨holds, fun _ => rests⟩

/-! ## Runs -/

/-- The event executes an operation that puts another game in place. -/
def Event.Replaces (machine : Machine) (event : Event) : Prop :=
  event = .step ∧ ∃ instruction executing, Executes machine instruction executing ∧
    instruction.opcode.operation.replaces = true

/-- A run during which more than the given number of frames stay, and no other game is put in
place. -/
def RunsAbove (depth : Nat) : Machine → List Event → Prop
  | machine, [] => depth < machine.work.calls.depth
  | machine, event :: rest =>
      depth < machine.work.calls.depth ∧ ¬ event.Replaces machine ∧
        RunsAbove depth (event.apply machine) rest

/-- A run above a depth starts above it. -/
theorem RunsAbove.start {depth : Nat} {events : List Event} (run : RunsAbove depth machine events) :
    depth < machine.work.calls.depth := by
  cases events with
  | nil => exact run
  | cons event rest => exact run.1

private theorem endsIn_step (closed : Closed reach I)
    (stays : ∀ instruction executing, Executes machine instruction executing →
      instruction.opcode.operation.replaces = false)
    (holds : I machine) (rests : machine.work.calls.Rests base link) :
    EndsIn
      (fun after => I after ∧
        (base.length < after.work.calls.depth → after.work.calls.Rests base link))
      (fun _ => True) step machine := by
  have enters := survives_rests closed base link
  have weaker (after : Machine) (kept : I after ∧ after.work.calls.Rests base link) :
      I after ∧ (base.length < after.work.calls.depth → after.work.calls.Rests base link) :=
    ⟨kept.1, fun _ => kept.2⟩
  have listens : Keeps (fun after => I after ∧ after.work.calls.Rests base link)
      (do requireStory .notInitialized; acceptInput : Play Unit) :=
    .seq (keeps_requireStory _) fun _ => keeps_acceptInput enters
  rw [step_eq]
  cases listened : (do requireStory .notInitialized; acceptInput : Play Unit) machine with
  | error failure awake =>
      have kept := listens.finalState ⟨holds, rests⟩
      rw [Action.finalState_of_error listened] at kept
      exact .afterError listened (weaker awake kept)
  | ok u awake =>
      have kept := (listens.of_ok ⟨holds, rests⟩ listened).1
      refine .after listened (EndsIn.get ?_)
      split
      · rename_i running
        have polls := keeps_pollSounds enters rfl
        cases sounded : pollSounds awake with
        | error failure polled =>
            have quiet := polls.finalState kept
            rw [Action.finalState_of_error sounded] at quiet
            exact .afterError sounded (weaker polled quiet)
        | ok u polled =>
            have quiet := (polls.of_ok kept sounded).1
            refine .after sounded (endsIn_execute closed ?_ quiet.1 quiet.2)
            intro instruction decoded
            exact stays instruction _ ⟨awake, polled, listened, running, sounded, decoded, rfl⟩
      · exact .of_ok rfl (weaker awake kept) trivial

/-- One event leaves the frames below a call alone, if the call is still in progress after it. -/
theorem rests_apply (closed : Closed reach I) (holds : I machine)
    (rests : machine.work.calls.Rests base link) {event : Event} (stays : ¬ event.Replaces machine)
    (deep : base.length < (event.apply machine).work.calls.depth) :
    (event.apply machine).work.calls.Rests base link := by
  have enters := survives_rests closed base link
  cases event with
  | step =>
      refine (endsIn_step closed ?_ holds rests).finalState.2 deep
      intro instruction executing executes
      by_contra replaces
      exact stays ⟨rfl, instruction, executing, executes, by simpa using replaces⟩
  | answer token entry terminator timedOut =>
      have answers := keeps_completeInput enters token entry terminator timedOut fun _ => rfl
      exact (answers.finalState ⟨holds, rests⟩).2
  | quit => exact ((keeps_quit enters).finalState ⟨holds, rests⟩).2
  | outside storage disk input sound screen => exact rests

/-- A run leaves the frames below a call alone while the call is in progress. -/
theorem rests_after (closed : Closed reach I) (holds : I machine)
    (rests : machine.work.calls.Rests base link) {events : List Event}
    (run : RunsAbove base.length machine events) :
    (machine.after events).work.calls.Rests base link := by
  induction events generalizing machine with
  | nil => exact rests
  | cons event rest ih =>
      obtain ⟨-, stays, run⟩ := run
      exact ih (closed.event holds event) (rests_apply closed holds rests stays run.start) run

end Machine

end StoryMachine
