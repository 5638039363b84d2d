import StoryMachine.Proofs.CallFrames
import StoryMachine.Proofs.Steadiness

/-!
# How often a read can still end

The read of a request can still end while the request has not been entered, while
the machine waits for it, and once for each of its routines that is in progress.
Entering the request, waiting, calling the routine and returning from it exchange
these chances for each other, and whatever ends the read uses one up. Only an undo
can bring a chance back.
-/

namespace StoryMachine

open StoryMachine.Action (Ensures Keeps EndsIn)

namespace CallStack

variable {calls after : CallStack} {frame : Frame} {token : Nat}

/-- The requests whose routines are in progress, the innermost first. -/
def interrupted (calls : CallStack) : List Nat :=
  calls.innermostFirst.filterMap Frame.interrupt

private theorem mem_interrupted :
    token ∈ calls.interrupted ↔ ∃ frame ∈ calls.frames, frame.interrupt = some token := by
  unfold interrupted
  simp only [List.mem_filterMap, mem_frames]

private theorem interrupted_of_outline (same : after.outline = calls.outline) :
    after.interrupted = calls.interrupted := by
  obtain ⟨linked, callers⟩ := CallStack.mk.inj same
  have current : after.current.linkage.interrupt = calls.current.linkage.interrupt :=
    congrArg Frame.interrupt linked
  unfold interrupted innermostFirst
  rw [callers, List.filterMap_cons, List.filterMap_cons,
    show after.current.interrupt = calls.current.interrupt from current]

private theorem interrupted_left (left : after.LeftFrom calls) (token : Nat) :
    after.interrupted.count token ≤ calls.interrupted.count token :=
  (left.filterMap Frame.interrupt).sublist.count_le token

private theorem interrupted_pop (popped : calls.pop = .ok (frame, after)) :
    calls.interrupted = frame.interrupt.toList ++ after.interrupted := by
  unfold pop at popped
  cases callers : calls.callers with
  | nil =>
      rw [callers] at popped
      cases popped
  | cons caller rest =>
      rw [callers] at popped
      cases popped
      unfold interrupted innermostFirst
      rw [callers, List.filterMap_cons]
      cases calls.current.interrupt <;> rfl

private theorem interrupted_push (entered : calls.push frame = .ok after) :
    after.interrupted = frame.interrupt.toList ++ calls.interrupted := by
  unfold push at entered
  split at entered
  · cases entered
  · cases entered
    unfold interrupted innermostFirst
    rw [List.filterMap_cons]
    cases frame.interrupt <;> rfl

end CallStack

namespace Machine

variable {reach : Int → Prop} {kind : MoveKind} {machine after start : Machine} {story : Story}
  {memory : GameMemory} {token spent budget : Nat}

/-! ## Ends that are left -/

/-- The machine waits for a request. -/
def Awaits (machine : Machine) (token : Nat) : Prop :=
  machine.phase.isWaiting = true ∧ machine.pending = some token
deriving Decidable

/-- How often the read of a request can still end. -/
def endsLeft (machine : Machine) (token : Nat) : Nat :=
  (if machine.requests.size < token then 1 else 0) + (if machine.Awaits token then 1 else 0) +
    machine.work.calls.interrupted.count token

/-- A machine that does not wait waits for no request. -/
theorem not_awaits (idle : machine.phase.isWaiting = false) (token : Nat) :
    ¬ machine.Awaits token := by
  rintro ⟨waits, -⟩
  rw [idle] at waits
  cases waits

/-- What ends are left when a machine does not wait. -/
theorem endsLeft_of_idle (idle : machine.phase.isWaiting = false) (token : Nat) :
    machine.endsLeft token =
      (if machine.requests.size < token then 1 else 0) +
        machine.work.calls.interrupted.count token := by
  unfold endsLeft
  rw [if_neg (not_awaits idle token), Nat.add_zero]

/-- For machines that wait alike, the ends that are left differ by the routines in progress. -/
theorem endsLeft_exchange (machine after : Machine) (phase : after.phase = machine.phase)
    (pending : after.pending = machine.pending) (requests : after.requests = machine.requests)
    (token : Nat) :
    after.endsLeft token + machine.work.calls.interrupted.count token =
      machine.endsLeft token + after.work.calls.interrupted.count token := by
  have awaits : after.Awaits token ↔ machine.Awaits token := by
    unfold Awaits
    rw [phase, pending]
  unfold endsLeft
  simp only [awaits, requests]
  omega

private theorem endsLeft_push {frame : Frame} {calls : CallStack}
    (entered : machine.work.calls.push frame = .ok calls) (pc : Int) (token : Nat) :
    Machine.endsLeft { machine with work.calls := calls, pc } token =
      machine.endsLeft token + frame.interrupt.toList.count token := by
  -- Stated for the updated record, so that the fields compare by reduction.
  have exchanged : Machine.endsLeft { machine with work.calls := calls, pc } token +
      machine.work.calls.interrupted.count token =
        machine.endsLeft token + calls.interrupted.count token :=
    endsLeft_exchange machine { machine with work.calls := calls, pc } rfl rfl rfl token
  rw [CallStack.interrupted_push entered, List.count_append] at exchanged
  omega

private theorem endsLeft_pop {frame : Frame} {calls : CallStack}
    (popped : machine.work.calls.pop = .ok (frame, calls)) (token : Nat) :
    Machine.endsLeft { machine with work.calls := calls } token +
      frame.interrupt.toList.count token = machine.endsLeft token := by
  have exchanged : Machine.endsLeft { machine with work.calls := calls } token +
      machine.work.calls.interrupted.count token =
        machine.endsLeft token + calls.interrupted.count token :=
    endsLeft_exchange machine { machine with work.calls := calls } rfl rfl rfl token
  rw [CallStack.interrupted_pop popped, List.count_append] at exchanged
  omega

/-- What is pending matters only to a machine that waits. -/
theorem endsLeft_pending (idle : machine.phase.isWaiting = false) (pending : Option Nat)
    (token : Nat) : Machine.endsLeft { machine with pending } token = machine.endsLeft token := by
  have same : Phase.isWaiting { machine with pending }.phase = false := idle
  rw [endsLeft_of_idle idle, endsLeft_of_idle same]

/-- A saved game leaves the phase. -/
theorem phase_withSnapshot (machine : Machine) (game : SavedGame) :
    (machine.withSnapshot game).phase = machine.phase :=
  congrArg Core.phase (core_withSnapshot machine game)

/-- A snapshot without the routines of a request gives its read no chance to end. -/
theorem endsLeft_withSnapshot {game : SavedGame}
    (apart : ∀ frame ∈ game.frames, frame.interrupt ≠ some token) :
    (machine.withSnapshot game).endsLeft token ≤ machine.endsLeft token := by
  have core := core_withSnapshot machine game
  have pending : (machine.withSnapshot game).pending = machine.pending :=
    congrArg Core.pending core
  have requests : (machine.withSnapshot game).requests = machine.requests :=
    congrArg Core.requests core
  have calls : (machine.withSnapshot game).work.calls =
      (CallStack.ofFrames? game.frames).getD machine.work.calls :=
    congrArg (fun core => core.work.calls) core
  have fewer : (machine.withSnapshot game).work.calls.interrupted.count token ≤
      machine.work.calls.interrupted.count token := by
    rw [calls]
    cases made : CallStack.ofFrames? game.frames with
    | none => exact le_refl _
    | some calls =>
        rw [Option.getD_some, List.count_eq_zero_of_not_mem]
        · exact Nat.zero_le _
        · rw [CallStack.mem_interrupted, CallStack.frames_of_ofFrames? made]
          rintro ⟨frame, member, same⟩
          exact apart frame member same
  have exchanged := endsLeft_exchange machine (machine.withSnapshot game)
    (phase_withSnapshot machine game) pending requests token
  omega

/-- At the first instruction of a story, only requests that have not been entered have a chance. -/
theorem endsLeft_begun (machine : Machine) (token : Nat) :
    machine.begun.endsLeft token = if machine.requests.size < token then 1 else 0 := by
  have core := core_begun machine
  have idle : machine.begun.phase.isWaiting = false :=
    congrArg (fun core => core.phase.isWaiting) core
  have requests : machine.begun.requests = machine.requests := congrArg Core.requests core
  have calls : machine.begun.work.calls = {} := congrArg (fun core => core.work.calls) core
  rw [endsLeft_of_idle idle, requests, calls]
  rfl

private theorem endsLeft_restarted (machine : Machine) (story : Story) (memory : GameMemory) (token : Nat) :
    (machine.restarted story memory).endsLeft token ≤ machine.endsLeft token := by
  unfold restarted
  rw [endsLeft_begun]
  unfold endsLeft
  exact Nat.le_add_right_of_le (Nat.le_add_right _ _)

/-- An undo would bring a routine of a request back. -/
def Revives (machine : Machine) (token : Nat) : Prop :=
  ∃ game rest frame, machine.undo = game :: rest ∧ frame ∈ game.frames ∧
    frame.interrupt = some token

/-- The machine has come from another without waiting anew, and no routine of the request has been
called. -/
structure Follows (story : Story) (token : Nat) (start machine : Machine) : Prop where
  attentive : Attentive story machine
  waits : machine.phase.isWaiting = true →
    start.phase.isWaiting = true ∧ machine.pending = start.pending
  entered : start.requests.size ≤ machine.requests.size
  interrupted : machine.work.calls.interrupted.count token ≤
    start.work.calls.interrupted.count token

/-- The read of a request can end as often as it can now and as often as it is said to have ended,
and that is within a budget. -/
structure EndsWithin (story : Story) (token spent budget : Nat) (machine : Machine) : Prop where
  attentive : Attentive story machine
  within : machine.endsLeft token + spent ≤ budget

/-- The read may have ended less often, or the budget may be larger. -/
theorem EndsWithin.mono (bounded : EndsWithin story token spent budget machine) {less more : Nat}
    (cheaper : less ≤ spent) (richer : budget ≤ more) : EndsWithin story token less more machine := by
  refine ⟨bounded.attentive, ?_⟩
  have within := bounded.within
  omega

namespace Follows

/-- A machine has come from itself. -/
theorem refl (attentive : Attentive story machine) : Follows story token machine machine :=
  ⟨attentive, fun waits => ⟨waits, rfl⟩, le_refl _, le_refl _⟩

/-- What comes from a machine that does not wait does not wait. -/
theorem idle (follows : Follows story token start machine)
    (idle : start.phase.isWaiting = false) : machine.phase.isWaiting = false := by
  by_contra waiting
  have waits := (follows.waits (by simpa using waiting)).1
  rw [idle] at waits
  cases waits

private theorem awaits (follows : Follows story token start machine) (awaits : machine.Awaits token) :
    start.Awaits token := by
  obtain ⟨waits, same⟩ := follows.waits awaits.1
  exact ⟨waits, same.symm.trans awaits.2⟩

private theorem unentered_le (follows : Follows story token start machine) :
    (if machine.requests.size < token then 1 else 0) ≤
      if start.requests.size < token then 1 else 0 := by
  have entered := follows.entered
  split_ifs <;> omega

/-- A read can end no more often than it could where the machine has come from. -/
theorem endsLeft_le (follows : Follows story token start machine) :
    machine.endsLeft token ≤ start.endsLeft token := by
  have waiting : (if machine.Awaits token then 1 else 0) ≤
      if start.Awaits token then 1 else 0 := by
    split
    · rename_i awaits
      rw [if_pos (follows.awaits awaits)]
    · exact Nat.zero_le _
  exact Nat.add_le_add (Nat.add_le_add follows.unentered_le waiting) follows.interrupted

/-- A machine that no longer waits for a request has used a chance up. -/
theorem endsLeft_lt (follows : Follows story token start machine) (awaited : start.Awaits token)
    (stopped : ¬ machine.Awaits token) : machine.endsLeft token < start.endsLeft token := by
  have unentered := follows.unentered_le
  have interrupted := follows.interrupted
  unfold endsLeft
  rw [if_pos awaited, if_neg stopped]
  omega

/-- What a machine has come from bounds how often a read can end. -/
theorem endsWithin (follows : Follows story token start machine) :
    EndsWithin story token 0 (start.endsLeft token) machine :=
  ⟨follows.attentive, follows.endsLeft_le⟩

/-- Where a machine has come from is a matter of its core. -/
theorem of_core (follows : Follows story token start machine) (same : after.core = machine.core) :
    Follows story token start after := by
  have phase : after.phase = machine.phase := congrArg Core.phase same
  have pending : after.pending = machine.pending := congrArg Core.pending same
  have requests : after.requests = machine.requests := congrArg Core.requests same
  have work : after.work = machine.work := congrArg Core.work same
  obtain ⟨⟨protects, ledger, attends⟩, waits, entered, interrupted⟩ := follows
  refine ⟨⟨?_, ?_, ?_⟩, ?_, ?_, ?_⟩
  · rwa [same]
  · rwa [same]
  · rwa [same]
  · rwa [phase, pending]
  · rwa [requests]
  · rwa [work]

end Follows

/-! ## Moves -/

private theorem MoveFrom.waits (move : Move reach kind machine after)
    (stays : kind = .inner ∨ kind = .leave) (waits : after.phase.isWaiting = true) :
    machine.phase.isWaiting = true ∧ after.pending = machine.pending := by
  cases move with
  | aside apart =>
      have phase : after.phase = machine.phase := congrArg Core.phase apart.core
      have pending : after.pending = machine.pending := congrArg Core.pending apart.core
      rw [phase] at waits
      exact ⟨waits, pending⟩
  | suspend => simp at stays
  | «recall» => simp at stays
  | dropUndo => simp at stays
  | undo => simp at stays
  | restore => simp at stays
  | restart => simp at stays
  | finish => cases waits
  | interrupt => cases waits
  | abandon => cases waits
  | halt => cases waits
  | _ => exact ⟨waits, rfl⟩

private theorem MoveFrom.entered_le (move : Move reach kind machine after)
    (stays : kind = .inner ∨ kind = .leave) : machine.requests.size ≤ after.requests.size := by
  cases move with
  | aside apart =>
      have requests : after.requests = machine.requests := congrArg Core.requests apart.core
      rw [requests]
  | request fits token => simp
  | retype same => simp
  | dropUndo => simp at stays
  | undo => simp at stays
  | restore => simp at stays
  | restart => simp at stays
  | _ => exact le_refl _

/-! ## Waiting, calling and returning -/

/-- The read that the routine of a request ends with the value that it returns: none for zero. -/
def endedBy (number : Nat) (value : Int) : List Nat :=
  if value = 0 then [] else [number]

/-- The read that a return from the current routine ends. -/
def endedOnReturn (machine : Machine) (value : Int) : List Nat :=
  match machine.work.calls.pop with
  | .ok (frame, _) => frame.interrupt.toList.flatMap (endedBy · value)
  | .error _ => []

section Actions

variable (loaded : Story.load story.data = .ok (story, memory))

include loaded

/-- Moves that leave routines and inner ones keep where a machine has come from. -/
theorem survives_follows (token : Nat) (start : Machine) :
    Survives (fun _ => True) (· = .leave) (Follows story token start) where
  move := by
    intro kind machine after stays follows move
    have interrupted : after.work.calls.interrupted.count token ≤
        machine.work.calls.interrupted.count token := by
      rcases stays with rfl | rfl
      · rw [CallStack.interrupted_of_outline move.outline]
      · exact CallStack.interrupted_left move.left token
    refine ⟨(closed_attentive loaded).of_allowed trivial follows.attentive move, ?_, ?_, ?_⟩
    · intro waits
      obtain ⟨waited, same⟩ := move.waits stays waits
      obtain ⟨started, earlier⟩ := follows.waits waited
      exact ⟨started, same.trans earlier⟩
    · exact follows.entered.trans (move.entered_le stays)
    · exact interrupted.trans follows.interrupted
  near := fun _ _ => trivial
  ledger := fun follows found => follows.attentive.ledger.found found

/-- Moves that leave routines and inner ones let a read end no more often. -/
theorem survives_endsWithin (token spent budget : Nat) :
    Survives (fun _ => True) (· = .leave) (EndsWithin story token spent budget) where
  move := by
    intro kind machine after stays bounded move
    have follows := (survives_follows loaded token machine).move stays (.refl bounded.attentive)
      move
    have fewer := follows.endsLeft_le
    have within := bounded.within
    exact ⟨follows.attentive, by omega⟩
  near := fun _ _ => trivial
  ledger := fun bounded found => bounded.attentive.ledger.found found

/-- Waiting for a request is a chance to end its read. -/
theorem endsWithin_suspend (attentive : Attentive story machine)
    (idle : machine.phase.isWaiting = false) (token number : Nat) :
    EndsIn
      (EndsWithin story token 0
        ((if machine.requests.size < token then 1 else 0) +
          (if number = token ∧ number ≤ machine.requests.size then 1 else 0) +
          machine.work.calls.interrupted.count token))
      (fun _ => True) (suspend number) machine := by
  refine EndsIn.get ?_
  cases found : machine.request? number with
  | none =>
      refine .of_ok rfl ⟨attentive, ?_⟩ trivial
      rw [endsLeft_of_idle idle]
      omega
  | some request =>
      have survives := survives_endsWithin loaded token 0
      refine EndsIn.modify (keeps_flush (survives _).survivesAside _ ⟨?_, ?_⟩)
      · exact (closed_attentive loaded).of_allowed trivial attentive (.suspend found)
      · -- A request that is found has been entered: the first two chances exclude each other.
        obtain ⟨index, rfl, inside⟩ := exists_index_of_request? found
        unfold endsLeft Awaits
        simp only [Option.some.injEq]
        split_ifs <;> omega

/-- A call is a chance to end the read that it interrupts. -/
theorem endsWithin_callRoutine (attentive : Attentive story machine) (address returnTo : Int)
    {storeTo : Option Int} {arguments : List Int} (interrupt : Option Nat)
    (target : ∀ target, storeTo = some target → 0 ≤ target ∧ target < 256)
    (few : arguments.length ≤ 7) (token : Nat) :
    EndsIn (EndsWithin story token 0 (machine.endsLeft token + interrupt.toList.count token))
      (fun _ => True) (callRoutine address returnTo storeTo arguments interrupt) machine := by
  have run := callRoutine_eq address returnTo storeTo arguments interrupt machine
  have unchanged : EndsWithin story token 0 (machine.endsLeft token + interrupt.toList.count token)
      machine := ⟨attentive, Nat.le_add_right _ _⟩
  cases opened : Frame.ofRoutine machine.image machine.story.version address returnTo storeTo
      arguments interrupt with
  | error failure =>
      rw [opened] at run
      exact .of_error run unchanged
  | ok frame =>
      rw [opened] at run
      dsimp only at run
      cases entered : machine.work.calls.push frame with
      | error failure =>
          rw [entered] at run
          exact .of_error run unchanged
      | ok calls =>
          rw [entered] at run
          refine .of_ok run ⟨?_, ?_⟩ trivial
          · exact (closed_attentive loaded).of_allowed trivial attentive
              (.call opened (.inl trivial) target few entered)
          · rw [← (Frame.linkage_of_ofRoutine opened).2.2]
            exact (endsLeft_push entered _ token).le

/-- A call without arguments whose result goes nowhere. -/
theorem endsWithin_callPlain (attentive : Attentive story machine) (address returnTo : Int)
    (interrupt : Option Nat) (token : Nat) :
    EndsIn (EndsWithin story token 0 (machine.endsLeft token + interrupt.toList.count token))
      (fun _ => True) (callRoutine address returnTo none [] interrupt) machine := by
  have few : ([] : List Int).length ≤ 7 := Nat.zero_le 7
  refine endsWithin_callRoutine loaded attentive address returnTo interrupt ?_ few token
  intro target none_eq
  cases none_eq

/-- The return of the routine of a request ends its read or waits for it. -/
theorem endsWithin_interruptReturned (attentive : Attentive story machine)
    (idle : machine.phase.isWaiting = false) (token number : Nat) (value : Int) :
    EndsIn
      (EndsWithin story token ((endedBy number value).count token)
        (machine.endsLeft token + [number].count token))
      (fun _ => True) (interruptReturned number value) machine := by
  have fewer : (endedBy number value).count token ≤ [number].count token := by
    unfold endedBy
    split
    · exact Nat.zero_le _
    · exact le_refl _
  refine EndsIn.get ?_
  cases found : machine.request? number with
  | none => exact .of_ok rfl ⟨attentive, Nat.add_le_add_left fewer _⟩ trivial
  | some request =>
      have fits := attentive.ledger.found found
      have recalled := (closed_attentive loaded).of_allowed trivial attentive (.recall found)
      refine EndsIn.modify ?_
      split
      · have survives := survives_endsWithin loaded token ((endedBy number value).count token)
          (machine.endsLeft token + [number].count token)
        have pending : EndsWithin story token ((endedBy number value).count token)
            (machine.endsLeft token + [number].count token)
            { machine with pending := some number } := by
          refine ⟨recalled, ?_⟩
          rw [endsLeft_pending idle]
          exact Nat.add_le_add_left fewer _
        split
        · exact keeps_finishLine survives fits _ _ (.inl rfl) _ pending
        · exact keeps_finishKey survives fits _ _ pending
      · rename_i zero
        obtain rfl : value = 0 := not_not.mp zero
        refine EndsIn.modify ((endsWithin_suspend loaded ?_ ?_ token number).weaken ?_)
        · exact (closed_attentive loaded).inner recalled (.retype fun _ => rfl)
        · exact idle
        · intro after bounded
          refine bounded.mono (Nat.zero_le _) ?_
          rw [endsLeft_of_idle idle, Array.size_modify, List.count_singleton]
          simp only [beq_iff_eq]
          split_ifs <;> omega

/-- A return ends a read, or the chances stay. -/
theorem endsWithin_returnFromRoutine (attentive : Attentive story machine)
    (idle : machine.phase.isWaiting = false) (token : Nat) (value : Int) :
    EndsIn
      (EndsWithin story token ((machine.endedOnReturn value).count token) (machine.endsLeft token))
      (fun _ => True) (returnFromRoutine value) machine := by
  have run := leave_eq machine
  cases popped : machine.work.calls.pop with
  | error failure =>
      rw [popped] at run
      refine .afterError run ⟨attentive, ?_⟩
      unfold endedOnReturn
      rw [popped]
      exact le_refl _
  | ok pair =>
      obtain ⟨frame, calls⟩ := pair
      have left : CallStack.LeftFrom calls machine.work.calls := CallStack.leftFrom_pop popped
      have closed := closed_attentive loaded
      unfold endedOnReturn
      rw [popped]
      dsimp only
      cases interrupt : frame.interrupt with
      | none =>
          have survives := survives_endsWithin loaded token 0 (machine.endsLeft token)
          have bounded : EndsWithin story token 0 (machine.endsLeft token) machine :=
            ⟨attentive, le_refl _⟩
          refine endsIn_returnFromRoutine survives popped (fun some => absurd interrupt some) ?_ ?_
            value
          · exact survives.of_allowed rfl bounded (.leave left)
          · exact survives.of_allowed rfl bounded (.goBack popped)
      | some number =>
          -- The chance of the routine that is left pays for ending the read or for waiting again.
          rw [popped] at run
          refine .after run ?_
          rw [interrupt]
          have exchanged := endsLeft_pop popped token
          have returned := endsWithin_interruptReturned loaded
            (closed.of_allowed trivial attentive (.leave left)) idle token number value
          refine returned.weaken fun after bounded => bounded.mono ?_ ?_
          · simp
          · rw [interrupt] at exchanged
            exact exchanged.le

/-! ## Other games -/

private theorem endsWithin_resumeAfterSave (attentive : Attentive story machine)
    (idle : machine.phase.isWaiting = false) (token : Nat) (pc : Int) :
    EndsIn (EndsWithin story token 0 (machine.endsLeft token)) (fun _ => True) (resumeAfterSave pc)
      machine := by
  refine endsIn_resumeAfterSave (survives_follows loaded token machine)
    (fun _ follows => follows.endsWithin) (.refl attentive) (fun value => ?_) pc
  have returned := endsWithin_returnFromRoutine loaded attentive idle token value
  exact returned.weaken fun _ bounded => bounded.mono (Nat.zero_le _) (le_refl _)

/-- The routines of a game in a file interrupt no read. -/
theorem endsWithin_restore (attentive : Attentive story machine)
    (idle : machine.phase.isWaiting = false) (token : Nat) :
    EndsIn (EndsWithin story token 0 (machine.endsLeft token)) (fun _ => True) restore machine := by
  have survives := survives_endsWithin loaded token 0 (machine.endsLeft token)
  refine endsIn_restore survives.survivesAside ⟨attentive, le_refl _⟩ ?_
  intro fetched data game bounded same _ decoded size
  obtain ⟨-, kept, -⟩ := SaveFile.decode_eq_ok decoded
  have fewer : (fetched.withSnapshot game).endsLeft token ≤ fetched.endsLeft token := by
    refine endsLeft_withSnapshot fun frame member => ?_
    rw [interrupt_kept kept member]
    exact nofun
  have phase : (fetched.withSnapshot game).phase = machine.phase :=
    (phase_withSnapshot fetched game).trans (congrArg Core.phase same)
  have swapped := (closed_attentive loaded).restored trivial bounded.attentive decoded size
  have resumed := endsWithin_resumeAfterSave loaded swapped (phase ▸ idle) token game.pc
  exact resumed.weaken fun _ held =>
    held.mono (le_refl _) (fewer.trans bounded.within)

/-- An undo gives the read of a request no chance if it brings none of its routines back. -/
theorem endsWithin_restoreUndo (attentive : Attentive story machine)
    (idle : machine.phase.isWaiting = false) (apart : ¬ machine.Revives token) :
    EndsIn (EndsWithin story token 0 (machine.endsLeft token))
      (fun _ => True) restoreUndo machine := by
  have closed := closed_attentive loaded
  refine endsIn_restoreUndo ⟨attentive, le_refl _⟩ ?_ ?_
  · intro game rest newest
    exact ⟨closed.of_allowed trivial attentive (.dropUndo newest), le_refl _⟩
  · intro game rest newest size
    have swapped := closed.of_allowed trivial attentive (.undo newest size)
    have quiet : ({ machine with undo := rest }.withSnapshot game).phase.isWaiting = false :=
      (congrArg Phase.isWaiting (phase_withSnapshot _ game)).trans idle
    have fewer : ({ machine with undo := rest }.withSnapshot game).endsLeft token ≤
        machine.endsLeft token := by
      refine endsLeft_withSnapshot fun frame member same => ?_
      exact apart ⟨game, rest, frame, newest, member, same⟩
    have resumed := endsWithin_resumeAfterSave loaded swapped quiet token game.pc
    exact resumed.weaken fun _ held => held.mono (le_refl _) fewer

/-- A restart lets a read end no more often. -/
theorem endsWithin_restart (attentive : Attentive story machine) (token : Nat) :
    EndsIn (EndsWithin story token 0 (machine.endsLeft token)) (fun _ => True) restart machine := by
  have closed := closed_attentive loaded
  have noted : Attentive story
      { machine with log := machine.log.add .info "zmachine.interpreter" "Restarting" } :=
    closed.survivesAside _ _ attentive ⟨rfl, rfl⟩
  have run := restart_eq machine
  cases reloaded : Story.load machine.file.data with
  | error failure =>
      simp only [reloaded] at run
      exact .of_error run ⟨noted, le_refl _⟩
  | ok pair =>
      simp only [reloaded] at run
      have restarted := closed.of_allowed trivial noted (.restart reloaded)
      exact .of_ok run ⟨restarted, endsLeft_restarted _ _ _ token⟩ trivial

end Actions

end Machine

end StoryMachine
