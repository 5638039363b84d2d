import StoryMachine.Proofs.Assignments
import StoryMachine.Proofs.Saving

/-!
# What is kept beside the game

How faults are treated and which have been reported, the undo snapshots and the
log are kept in the margin of a game. An action ignores the margin if it neither
looks there nor writes there, except for messages to the log, and leaves the
surroundings that the story is told about as they are. Nearly all actions do: only
dealing with a fault, keeping a snapshot and going back to one do not.
-/

namespace StoryMachine

/-- A message leaves the threshold of the log. -/
theorem Log.threshold_add (log : Log) (level : LogLevel) (source message : String) :
    (log.add level source message).threshold = log.threshold := by
  unfold add
  split <;> rfl

/-- The outcome of an action in a changed state. -/
def Action.inState {σ α : Type} (change : σ → σ) :
    EStateM.Result Failure σ α → EStateM.Result Failure σ α
  | .ok a s => .ok a (change s)
  | .error failure s => .error failure (change s)

namespace Action

variable {σ α : Type}

/-- Actions with the same outcome have the same final state. -/
theorem finalState_congr {action : Action σ α} (other : Action σ α) {s t : σ}
    (same : action s = other t) :
    action.finalState s = other.finalState t := by
  unfold finalState
  rw [same]

/-- Actions with the same outcome have the same answer. -/
theorem answer_congr {action : Action σ α} (other : Action σ α) {s t : σ}
    (same : action s = other t) :
    action.answer s = other.answer t := by
  unfold answer
  rw [same]

end Action

/-- What is kept beside a game. -/
structure Margin where
  classifier : Classifier
  reports : List (String × String)
  undo : List SavedGame
  log : Log

namespace Machine

/-- The margin of a machine. -/
def margin (machine : Machine) : Margin where
  classifier := machine.classifier
  reports := machine.reports
  undo := machine.undo
  log := machine.log

/-- The machine with another margin. -/
def withMargin (machine : Machine) (margin : Margin) : Machine :=
  { machine with
    classifier := margin.classifier
    reports := margin.reports
    undo := margin.undo
    log := margin.log }

private theorem withMargin_margin (machine : Machine) : machine.withMargin machine.margin = machine :=
  rfl

/-- From a machine, the action neither looks at the margin nor writes there, except for messages to
the log, and it leaves the surroundings alone. -/
structure IgnoresMarginAt {α : Type} (action : Play α) (machine : Machine) : Prop where
  apart : ∀ margin : Margin, margin.log.threshold = machine.log.threshold →
    ∃ log : Log, log.threshold = margin.log.threshold ∧
      action (machine.withMargin margin) =
        Action.inState (·.withMargin { margin with log }) (action machine)
  surroundings : (action.finalState machine).surroundings = machine.surroundings

/-- The action ignores the margin of every machine. -/
def IgnoresMargin {α : Type} (action : Play α) : Prop :=
  ∀ machine, IgnoresMarginAt action machine

variable {α β : Type}

namespace IgnoresMarginAt

variable {action : Play α} {machine : Machine}

/-- Of the margin, only the messages of the log change. -/
theorem margin_finalState (ignores : IgnoresMarginAt action machine) :
    ∃ log : Log, log.threshold = machine.log.threshold ∧
      (action.finalState machine).margin = { machine.margin with log } := by
  obtain ⟨log, same, run⟩ := ignores.apart machine.margin rfl
  refine ⟨log, same, ?_⟩
  rw [withMargin_margin] at run
  unfold Action.finalState
  cases outcome : action machine with
  | ok a after =>
      rw [outcome] at run
      exact congrArg margin (EStateM.Result.ok.inj run).2
  | error failure after =>
      rw [outcome] at run
      exact congrArg margin (EStateM.Result.error.inj run).2

/-- An action that ignores the margin leaves the threshold of the log. -/
theorem threshold (ignores : IgnoresMarginAt action machine) :
    (action.finalState machine).log.threshold = machine.log.threshold := by
  obtain ⟨log, same, run⟩ := ignores.margin_finalState
  rw [← same]
  exact congrArg (fun margin => margin.log.threshold) run

/-- An action that ignores the margin leaves the undo snapshots. -/
theorem undo (ignores : IgnoresMarginAt action machine) :
    (action.finalState machine).undo = machine.undo := by
  obtain ⟨log, -, run⟩ := ignores.margin_finalState
  exact congrArg Margin.undo run

/-- In another margin the action answers the same and leaves the same machine, the margin apart. -/
theorem in_margin (ignores : IgnoresMarginAt action machine) {margin : Margin}
    (same : margin.log.threshold = machine.log.threshold) :
    ∃ log : Log, log.threshold = margin.log.threshold ∧
      action.answer (machine.withMargin margin) = action.answer machine ∧
      action.finalState (machine.withMargin margin) =
        (action.finalState machine).withMargin { margin with log } := by
  obtain ⟨log, kept, run⟩ := ignores.apart margin same
  refine ⟨log, kept, ?_⟩
  unfold Action.answer Action.finalState
  rw [run]
  cases action machine with
  | ok a after => exact ⟨rfl, rfl⟩
  | error failure after => exact ⟨rfl, rfl⟩

/-- What goes on from an action that ignores the margin, according to its answer. -/
theorem continued {whole rest : Play β} (head : IgnoresMarginAt action machine)
    (tail : IgnoresMarginAt rest (action.finalState machine))
    (runs : ∀ start, action.answer start = action.answer machine →
      whole start = rest (action.finalState start)) :
    IgnoresMarginAt whole machine where
  apart := by
    intro margin same
    obtain ⟨log, kept, answers, ends⟩ := head.in_margin same
    have threshold : log.threshold = (action.finalState machine).log.threshold := by
      rw [kept, same, head.threshold]
    obtain ⟨last, agrees, run⟩ := tail.apart { margin with log } threshold
    refine ⟨last, agrees.trans kept, ?_⟩
    rw [runs _ answers, runs _ rfl, ends]
    exact run
  surroundings := by
    rw [Action.finalState_congr rest (runs machine rfl)]
    exact tail.surroundings.trans head.surroundings

/-- A failure that is passed on ignores the margin. -/
theorem failed (failure : Failure) : IgnoresMarginAt (fun s => .error failure s : Play α) machine :=
  ⟨fun margin _ => ⟨margin.log, rfl, rfl⟩, rfl⟩

/-- From one machine, two actions ignore the margin one after the other. -/
theorem bind {first : Play α} {rest : α → Play β} (head : IgnoresMarginAt first machine)
    (tail : ∀ a after, first machine = .ok a after → IgnoresMarginAt (rest a) after) :
    IgnoresMarginAt (first >>= rest) machine := by
  cases answered : first.answer machine with
  | ok a =>
      refine head.continued (tail a _ (Action.eq_ok_finalState answered)) fun start same => ?_
      exact Action.bind_of_ok (Action.eq_ok_finalState (same.trans answered))
  | error failure =>
      refine head.continued (.failed failure) fun start same => ?_
      exact Action.bind_of_error (Action.eq_error_of_answer (same.trans answered))

/-- A look at the machine, of which the rest does not see the margin. -/
theorem get {rest : Machine → Play β}
    (blind : ∀ margin, rest (machine.withMargin margin) = rest machine)
    (tail : IgnoresMarginAt (rest machine) machine) :
    IgnoresMarginAt (get >>= rest) machine where
  apart := by
    intro margin same
    obtain ⟨log, kept, run⟩ := tail.apart margin same
    refine ⟨log, kept, ?_⟩
    rw [Action.get_bind, Action.get_bind, blind]
    exact run
  surroundings := tail.surroundings

/-- A change apart from the margin ignores it. -/
theorem modify {change : Machine → Machine}
    (told : (change machine).surroundings = machine.surroundings)
    (apart : ∀ margin, change (machine.withMargin margin) = (change machine).withMargin margin) :
    IgnoresMarginAt (modify change : Play PUnit) machine where
  apart margin _ := ⟨margin.log, rfl, congrArg (EStateM.Result.ok PUnit.unit) (apart margin)⟩
  surroundings := told

end IgnoresMarginAt

namespace IgnoresMargin

/-- An answer alone ignores the margin. -/
theorem pure (a : α) : IgnoresMargin (pure a : Play α) :=
  fun _ => ⟨fun margin _ => ⟨margin.log, rfl, rfl⟩, rfl⟩

/-- To raise a fault ignores the margin. -/
theorem fault (cause : Cause) : IgnoresMargin (Action.fault cause : Play α) :=
  fun _ => ⟨fun margin _ => ⟨margin.log, rfl, rfl⟩, rfl⟩

/-- To end in a breach ignores the margin. -/
theorem refuse (breach : Breach) : IgnoresMargin (Action.refuse breach : Play α) :=
  fun _ => ⟨fun margin _ => ⟨margin.log, rfl, rfl⟩, rfl⟩

/-- A question apart from the machine ignores the margin. -/
theorem lift (result : Result α) : IgnoresMargin (liftM result : Play α) := by
  intro machine
  cases result with
  | ok a => exact pure a machine
  | error failure => exact ⟨fun margin _ => ⟨margin.log, rfl, rfl⟩, rfl⟩

/-- Actions that ignore the margin ignore it one after the other. -/
theorem bind {first : Play α} {rest : α → Play β} (head : IgnoresMargin first)
    (tail : ∀ a, IgnoresMargin (rest a)) : IgnoresMargin (first >>= rest) :=
  fun machine => (head machine).bind fun a after _ => tail a after

/-- What does not look at the margin of the machine that it is given ignores the margin. -/
theorem get {rest : Machine → Play β}
    (blind : ∀ machine margin, rest (machine.withMargin margin) = rest machine)
    (tail : ∀ machine, IgnoresMargin (rest machine)) : IgnoresMargin (get >>= rest) :=
  fun machine => .get (blind machine) (tail machine machine)

/-- A change in front of the rest. -/
theorem modify_then {change : Machine → Machine} {rest : PUnit → Play β}
    (told : ∀ machine, (change machine).surroundings = machine.surroundings)
    (apart : ∀ machine margin,
      change (machine.withMargin margin) = (change machine).withMargin margin)
    (tail : ∀ u, IgnoresMargin (rest u)) : IgnoresMargin (modify change >>= rest) :=
  fun machine => .bind (.modify (told machine) (apart machine)) fun u after _ => tail u after

/-- A change apart from the margin of every machine ignores it. -/
theorem modify {change : Machine → Machine}
    (told : ∀ machine, (change machine).surroundings = machine.surroundings)
    (apart : ∀ machine margin,
      change (machine.withMargin margin) = (change machine).withMargin margin) :
    IgnoresMargin (modify change : Play PUnit) :=
  fun machine => .modify (told machine) (apart machine)

/-- A check in front of the rest. -/
theorem check {condition : Prop} [Decidable condition] {first : Play PUnit}
    {rest : PUnit → Play β} (head : IgnoresMargin first) (tail : ∀ u, IgnoresMargin (rest u)) :
    IgnoresMargin (if condition then first >>= rest else rest ()) := by
  split
  · exact head.bind tail
  · exact tail ()

end IgnoresMargin

/-! ## Primitive actions -/

/-- The workspace lies apart from the margin. -/
theorem ignoresMargin_onWork (action : Action Workspace α) : IgnoresMargin (onWork action) := by
  intro machine
  cases outcome : action machine.work with
  | ok a work =>
      have here : onWork action machine = .ok a { machine with work } := onWork_of_ok outcome
      refine ⟨fun margin _ => ⟨margin.log, rfl, ?_⟩, ?_⟩
      · rw [here]
        exact onWork_of_ok outcome
      · rw [Action.finalState_of_ok here]
        rfl
  | error failure work =>
      have here : onWork action machine = .error failure { machine with work } :=
        onWork_of_error outcome
      refine ⟨fun margin _ => ⟨margin.log, rfl, ?_⟩, ?_⟩
      · rw [here]
        exact onWork_of_error outcome
      · rw [Action.finalState_of_error here]
        rfl

/-- An edit of memory ignores the margin. -/
theorem ignoresMargin_onMemory (action : GameMemory.Edit α) : IgnoresMargin (onMemory action) :=
  ignoresMargin_onWork _

/-- A change of the header ignores the margin. -/
theorem ignoresMargin_overHeader (change : Image → Image) : IgnoresMargin (overHeader change) :=
  .modify (fun _ => rfl) fun _ _ => rfl

/-- A question about memory ignores the margin. -/
theorem ignoresMargin_ask (question : Image → Result α) : IgnoresMargin (ask question) :=
  .get (fun _ _ => rfl) fun machine => .lift (question machine.image)

/-- The check that there is a story ignores the margin. -/
theorem ignoresMargin_requireStory (breach : Breach) : IgnoresMargin (requireStory breach) := by
  refine .get (fun _ _ => rfl) fun machine => ?_
  split
  · exact .refuse breach
  · exact .pure ()

/-- A message to the log is what an action that ignores the margin may leave there. -/
theorem ignoresMargin_note (level : LogLevel) (source message : String) :
    IgnoresMargin (note level source message) := by
  intro machine
  exact ⟨fun margin _ =>
    ⟨margin.log.add level source message, Log.threshold_add _ _ _ _, rfl⟩, rfl⟩

/-- Going to an address ignores the margin. -/
theorem ignoresMargin_goTo (address : Int) : IgnoresMargin (goTo address) :=
  .modify (fun _ => rfl) fun _ _ => rfl

/-- Entering a request ignores the margin. -/
theorem ignoresMargin_newRequest (request : Nat → InputRequest) :
    IgnoresMargin (newRequest request) :=
  .get (fun _ _ => rfl) fun _ => .modify_then (fun _ => rfl) (fun _ _ => rfl) fun _ => .pure _

/-- Changing a request ignores the margin. -/
theorem ignoresMargin_changeRequest (token : Nat) (change : InputRequest → InputRequest) :
    IgnoresMargin (changeRequest token change) :=
  .modify (fun _ => rfl) fun _ _ => rfl

/-- Telling the story about its surroundings ignores the margin. -/
theorem ignoresMargin_announce : IgnoresMargin announce :=
  .get (fun _ _ => rfl) fun _ => ignoresMargin_overHeader _

end Machine

end StoryMachine
