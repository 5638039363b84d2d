import StoryMachine.Proofs.OperationsAndMargins
import StoryMachine.Proofs.EndedReads

/-!
# Incidents

An incident is a fault that a machine deals with. What the incidents of an action
are does not depend on the policy, on what has been reported or on the log: they
only enter the account of faults that stands in the margin. Machines that differ
there alone stay alike for as long as their policies go on.
-/

namespace StoryMachine

/-- A fault that a machine dealt with. -/
structure Incident where
  /-- The machine that dealt with it, but for what it reports. -/
  site : Machine
  fault : Fault
  /-- The name and the written form of the instruction, empty for a fault outside any. -/
  opcode : String
  description : String
  /-- Whether the fault kept the routine of a sound from being called. -/
  ofSound : Bool

namespace Machine

variable {α β : Type}

/-- A machine apart from its policy, what it has reported and the messages of its log. -/
def withoutReports (machine : Machine) : Machine :=
  machine.withMargin
    { classifier := { policy := .ignore, faultCount := machine.classifier.faultCount }
      reports := []
      undo := machine.undo
      log := { threshold := machine.log.threshold } }

/-- The incident of a fault of an instruction, or of one outside any. -/
def incident (machine : Machine) (fault : Fault) (instruction : Option Instruction)
    (ofSound : Bool := false) : Incident where
  site := machine.withoutReports
  fault := fault.located ((instruction.map Instruction.address).getD machine.pc)
  opcode := (instruction.map Instruction.name).getD ""
  description := (instruction.map Instruction.describe).getD ""
  ofSound

/-! ## Incidents of a run -/

/-- The incidents that follow a fault of an action. -/
def incidentsOnFault (action : Play α) (following : Fault → Machine → List Incident)
    (machine : Machine) : List Incident :=
  match action machine with
  | .error (.fault fault) failed => following fault failed
  | _ => []

/-- The incidents of an answer to a request. -/
def incidentsAnswering (token : Option Nat) (entry : Entry) (terminator : Int) (timedOut : Bool)
    (machine : Machine) : List Incident :=
  match token.bind machine.request? with
  | none => []
  | some request =>
      if machine.pending = some request.token then
        incidentsOnFault (answerRequest request entry terminator timedOut) (fun fault failed =>
          [incident { failed with pending := none, phase := .running } fault request.instruction])
          machine
      else []

/-- The incidents of a look for input. -/
def incidentsAccepting (machine : Machine) : List Incident :=
  match typed machine with
  | .ok (some text) read => read.incidentsAnswering read.pending (.text text) 13 false
  | _ => []

/-- The incidents of a sound that is over. -/
def incidentsPolling (machine : Machine) : List Incident :=
  match machine.soundOver? with
  | none => []
  | some (token, routine) =>
      let soundRoutines := machine.soundRoutines.erase (token, routine)
      let log := machine.log.add .debug "zmachine.interpreter"
        s!"Sound {token} finished, calling 0x{Numeral.hex routine}"
      incidentsOnFault
        (callRoutine (machine.story.version.unpackRoutine routine) machine.pc none [])
        (fun fault failed => [failed.incident fault none true])
        { machine with soundRoutines, log }

/-- The incidents of the instruction at the program counter. -/
def incidentsExecuting (machine : Machine) : List Incident :=
  match machine.instructionAt machine.pc with
  | .error (.fault fault) => [machine.incident fault none]
  | .error (.breach _) => []
  | .ok instruction =>
      incidentsOnFault (executeInstruction instruction)
        (fun fault failed => [failed.incident fault (some instruction)])
        (machine.taking instruction)

/-- The incidents of an action that is followed by others. -/
def incidentsThen (incidents : Machine → List Incident) (first : Play α)
    (rest : α → Machine → List Incident) (machine : Machine) : List Incident :=
  incidents machine ++
    match first machine with
    | .ok a after => rest a after
    | .error _ _ => []

/-- The incidents of a step that has found its input. -/
def incidentsContinuing (machine : Machine) : List Incident :=
  if machine.phase = .running then
    incidentsThen incidentsPolling pollSounds (fun _ => incidentsExecuting) machine
  else []

/-- The incidents of a step up to its instruction. -/
def incidentsListening : Machine → List Incident :=
  incidentsThen (fun _ => []) (requireStory .notInitialized) fun _ => incidentsAccepting

/-- The incidents of a step. -/
def incidentsStepping : Machine → List Incident :=
  incidentsThen incidentsListening listen fun _ => incidentsContinuing

/-- The incidents of an event. -/
def Event.incidents (machine : Machine) : Event → List Incident
  | .step => machine.incidentsStepping
  | .answer token entry terminator timedOut =>
      machine.incidentsAnswering token entry terminator timedOut
  | .quit => []
  | .outside _ _ _ _ _ => []

/-- The incidents of a run, the first one first. -/
def incidents (machine : Machine) : List Event → List Incident
  | [] => []
  | event :: rest => event.incidents machine ++ (event.apply machine).incidents rest

end Machine

/-! ## Accounts of faults -/

/-- What a machine keeps about its faults: its policy with what it has seen, and the reports. -/
structure Account where
  classifier : Classifier
  reports : List (String × String)

namespace Account

/-- The account after an incident. -/
def hear (account : Account) (incident : Incident) : Account :=
  let (_, notice, classifier) := account.classifier.classify incident.fault incident.opcode
  { classifier
    reports :=
      if notice = .warning then (incident.fault.message, incident.description) :: account.reports
      else account.reports }

/-- An incident leaves the policy as it is. -/
theorem policy_hear (account : Account) (incident : Incident) :
    (account.hear incident).classifier.policy = account.classifier.policy :=
  Classifier.policy_classify _ _ _

/-- Incidents leave the policy as it is. -/
theorem policy_hearAll (account : Account) (incidents : List Incident) :
    (incidents.foldl hear account).classifier.policy = account.classifier.policy := by
  induction incidents generalizing account with
  | nil => rfl
  | cons incident rest ih => exact (ih _).trans (account.policy_hear incident)

end Account

/-- The margin of a machine that is like this one but for what it reports. -/
structure Margin.Suits (margin : Margin) (machine : Machine) : Prop where
  undo : margin.undo = machine.undo
  faultCount : margin.classifier.faultCount = machine.classifier.faultCount
  threshold : margin.log.threshold = machine.log.threshold

/-- Every fault is counted. -/
theorem Classifier.faultCount_classify (classifier : Classifier) (fault : Fault)
    (opcode : String) :
    (classifier.classify fault opcode).2.2.faultCount = classifier.faultCount + 1 := by
  unfold classify
  dsimp only
  split
  · rfl
  split
  · rfl
  · rfl
  · rfl
  · split
    · rfl
    · rfl

/-- A policy that goes on does so after every fault that allows it. -/
theorem Classifier.recovery_classify {classifier : Classifier} (goesOn : classifier.policy ≠ .abort)
    (fault : Fault) (opcode : String) :
    (classifier.classify fault opcode).1 = if fault.recoverable then .proceed else .halt := by
  by_cases recoverable : fault.recoverable = true
  · rw [if_pos recoverable]
    exact proceeds_of_recoverable recoverable goesOn opcode
  · rw [if_neg recoverable]
    unfold classify
    rw [Bool.not_eq_true] at recoverable
    rw [recoverable]
    rfl

namespace Machine

variable {α β : Type} {machine : Machine} {margin : Margin}

/-- The account of a machine. -/
def account (machine : Machine) : Account where
  classifier := machine.classifier
  reports := machine.reports

/-- A margin that suits the machine does not show without its reports. -/
theorem withoutReports_withMargin (suits : margin.Suits machine) :
    (machine.withMargin margin).withoutReports = machine.withoutReports := by
  unfold withoutReports withMargin
  dsimp only
  rw [suits.undo, suits.faultCount, suits.threshold]

/-- Machines that are alike but for their reports differ in their margins only. -/
theorem withMargin_of_withoutReports {other : Machine}
    (same : other.withoutReports = machine.withoutReports) :
    other.margin.Suits machine ∧ other = machine.withMargin other.margin := by
  refine ⟨⟨?_, ?_, ?_⟩, ?_⟩
  · exact congrArg (·.undo) same
  · exact congrArg (·.classifier.faultCount) same
  · exact congrArg (·.log.threshold) same
  · exact congrArg (·.withMargin other.margin) same

/-! ## Handling -/

/-- From two machines an action has the same incidents and the same answer, and it leaves machines
that are alike. -/
structure Alike (incidents : Machine → List Incident) (action : Play α)
    (machine other : Machine) : Prop where
  incidents : incidents other = incidents machine
  answer : action.answer other = action.answer machine
  withoutReports :
    (action.finalState other).withoutReports = (action.finalState machine).withoutReports

/-- After the incidents the machine and the one in the margin go on. -/
def GoOn (incidents : List Incident) (machine : Machine) (margin : Margin) : Prop :=
  machine.classifier.policy ≠ .abort ∧ margin.classifier.policy ≠ .abort ∨ incidents = []

/-- The incidents of an action are the given ones. They enter the account, and from machines that
are alike the action does the same, up to the first incident if one of them aborts. -/
structure Handles (incidents : Machine → List Incident) (action : Play α) : Prop where
  account : ∀ machine,
    (action.finalState machine).account = (incidents machine).foldl Account.hear machine.account
  first : ∀ machine margin, margin.Suits machine →
    (incidents (machine.withMargin margin)).head? = (incidents machine).head?
  alike : ∀ machine margin, margin.Suits machine → GoOn (incidents machine) machine margin →
    Alike incidents action machine (machine.withMargin margin)

/-- An action without incidents. -/
abbrev Quiet (action : Play α) : Prop :=
  Handles (fun _ => []) action

/-- An action that ignores the margin has no incidents. -/
theorem IgnoresMargin.quiet {action : Play α} (ignores : IgnoresMargin action) : Quiet action where
  account machine := by
    obtain ⟨log, -, same⟩ := (ignores machine).margin_finalState
    exact congrArg (fun margin => Account.mk margin.classifier margin.reports) same
  first _ _ _ := rfl
  alike machine margin suits _ := by
    obtain ⟨log, kept, answers, ends⟩ := (ignores machine).in_margin suits.threshold
    obtain ⟨own, threshold, same⟩ := (ignores machine).margin_finalState
    refine ⟨rfl, answers, ?_⟩
    rw [ends]
    refine withoutReports_withMargin ⟨?_, ?_, ?_⟩
    · exact suits.undo.trans (congrArg Margin.undo same).symm
    · exact suits.faultCount.trans (congrArg (·.classifier.faultCount) same).symm
    · exact (kept.trans suits.threshold).trans (ignores machine).threshold.symm

/-- What ends like actions from machines that are alike. -/
theorem Alike.transport {incidents own : Machine → List Incident} {action whole : Play α}
    {first second machine other : Machine} (alike : Alike incidents action first second)
    (here : whole machine = action first) (there : whole other = action second)
    (same : own other = own machine) : Alike own whole machine other where
  incidents := same
  answer := by
    rw [Action.answer_congr action here, Action.answer_congr action there]
    exact alike.answer
  withoutReports := by
    rw [Action.finalState_congr action here, Action.finalState_congr action there]
    exact alike.withoutReports

namespace Handles

variable {incidents : Machine → List Incident}

/-- The policy of a machine stays. -/
theorem policy {action : Play α} (handles : Handles incidents action) (machine : Machine) :
    (action.finalState machine).classifier.policy = machine.classifier.policy :=
  (congrArg (·.classifier.policy) (handles.account machine)).trans
    (Account.policy_hearAll machine.account _)

/-- Machines that are alike are treated alike. -/
theorem alike_of_withoutReports {action : Play α} (handles : Handles incidents action)
    {machine other : Machine} (same : other.withoutReports = machine.withoutReports)
    (goOn : GoOn (incidents machine) machine other.margin) :
    Alike incidents action machine other := by
  obtain ⟨suits, eq⟩ := withMargin_of_withoutReports same
  rw [eq]
  exact handles.alike machine other.margin suits goOn

/-- From machines that are alike, an action has the same first incident. -/
theorem first_of_withoutReports {action : Play α} (handles : Handles incidents action)
    {machine other : Machine} (same : other.withoutReports = machine.withoutReports) :
    (incidents other).head? = (incidents machine).head? := by
  obtain ⟨suits, eq⟩ := withMargin_of_withoutReports same
  rw [eq]
  exact handles.first machine other.margin suits

/-- Policies that go on do so after an action. -/
theorem goOn {action : Play α} (handles : Handles incidents action)
    (goesOn : machine.classifier.policy ≠ .abort ∧ margin.classifier.policy ≠ .abort) :
    (action.finalState machine).classifier.policy ≠ .abort ∧
      (action.finalState (machine.withMargin margin)).margin.classifier.policy ≠ .abort :=
  ⟨(handles.policy machine).trans_ne goesOn.1, (handles.policy _).trans_ne goesOn.2⟩

/-- The incidents of one action after the other are those of the first and, if that answers, of the
second. -/
theorem bind {first : Play α} {rest : α → Play β} {following : α → Machine → List Incident}
    (head : Handles incidents first) (tail : ∀ a, Handles (following a) (rest a)) :
    Handles (incidentsThen incidents first following) (first >>= rest) where
  account machine := by
    have heard := head.account machine
    unfold incidentsThen
    rw [List.foldl_append, ← heard]
    cases outcome : first machine with
    | ok a after =>
        rw [Action.finalState_of_ok outcome]
        dsimp only
        rw [← (tail a).account after,
          Action.finalState_congr (rest a) (Action.bind_of_ok outcome)]
    | error failure after =>
        rw [Action.finalState_of_error outcome,
          Action.finalState_of_error (Action.bind_of_error outcome)]
        rfl
  first machine margin suits := by
    have begins := head.first machine margin suits
    unfold incidentsThen
    cases started : incidents machine with
    | cons incident later =>
        rw [started] at begins
        obtain ⟨rest, eq⟩ := List.head?_eq_some_iff.mp begins
        rw [eq]
        rfl
    | nil =>
        obtain ⟨same, answers, withoutReports⟩ := head.alike machine margin suits (.inr started)
        rw [same, started, List.nil_append, List.nil_append]
        cases answered : first.answer machine with
        | error failure =>
            rw [Action.eq_error_of_answer answered,
              Action.eq_error_of_answer (answers.trans answered)]
        | ok a =>
            rw [Action.eq_ok_finalState answered,
              Action.eq_ok_finalState (answers.trans answered)]
            exact (tail a).first_of_withoutReports withoutReports
  alike machine margin suits goOn := by
    have first_goOn : GoOn (incidents machine) machine margin :=
      goOn.imp_right fun none => (List.append_eq_nil_iff.mp none).1
    obtain ⟨same, answers, withoutReports⟩ := head.alike machine margin suits first_goOn
    cases answered : first.answer machine with
    | error failure =>
        have here := Action.eq_error_of_answer answered
        have there := Action.eq_error_of_answer (answers.trans answered)
        refine ⟨?_, ?_, ?_⟩
        · unfold incidentsThen
          rw [same, here, there]
        · unfold Action.answer
          rw [Action.bind_of_error here, Action.bind_of_error there]
        · rw [Action.finalState_of_error (Action.bind_of_error here),
            Action.finalState_of_error (Action.bind_of_error there)]
          exact withoutReports
    | ok a =>
        have here := Action.eq_ok_finalState answered
        have there := Action.eq_ok_finalState (answers.trans answered)
        have later := (tail a).alike_of_withoutReports withoutReports <| goOn.imp head.goOn
          fun none => by
          unfold incidentsThen at none
          rw [here] at none
          exact (List.append_eq_nil_iff.mp none).2
        refine later.transport (Action.bind_of_ok here) (Action.bind_of_ok there) ?_
        unfold incidentsThen
        rw [same, here, there]
        exact congrArg _ later.incidents

/-- Incidents may be told in another way. -/
theorem of_eq {own : Machine → List Incident} {action : Play α} (handles : Handles incidents action)
    (same : ∀ machine, own machine = incidents machine) : Handles own action := by
  rw [show own = incidents from funext same]
  exact handles

/-- A look at the machine, of which the rest does not see what is reported. -/
theorem get (rest : Machine → Play β) (following : Machine → Machine → List Incident)
    (tail : ∀ machine, Handles (following machine) (rest machine))
    (blind : ∀ machine margin, margin.Suits machine →
      rest (machine.withMargin margin) = rest machine ∧
        following (machine.withMargin margin) = following machine) :
    Handles (fun machine => following machine machine) (get >>= rest) where
  account machine := (tail machine).account machine
  first machine margin suits := by
    rw [congrFun (blind machine margin suits).2 (machine.withMargin margin)]
    exact (tail machine).first machine margin suits
  alike machine margin suits goOn := by
    obtain ⟨same, none⟩ := blind machine margin suits
    have later := (tail machine).alike machine margin suits goOn
    exact later.transport rfl (congrFun same _) ((congrFun none _).trans later.incidents)

/-- A fault of a quiet action is handled. -/
theorem onFault {action : Play α} {handler : Fault → Play α}
    {following : Fault → Machine → List Incident} (quiet : Quiet action)
    (handled : ∀ fault, Handles (following fault) (handler fault)) :
    Handles (incidentsOnFault action following) (action.onFault handler) where
  account machine := by
    unfold incidentsOnFault
    have heard : (action.finalState machine).account = machine.account := quiet.account machine
    cases outcome : action machine with
    | ok a after =>
        rw [Action.finalState_of_ok outcome] at heard
        rw [Action.finalState_of_ok (Action.onFault_of_ok outcome)]
        exact heard
    | error failure failed =>
        rw [Action.finalState_of_error outcome] at heard
        cases failure with
        | breach breach =>
            rw [Action.finalState_of_error (Action.onFault_of_breach outcome)]
            exact heard
        | fault fault =>
            rw [Action.finalState_congr (handler fault) (Action.onFault_of_fault outcome)]
            dsimp only
            rw [← heard, ← (handled fault).account failed]
  first machine margin suits := by
    obtain ⟨-, answers, withoutReports⟩ := quiet.alike machine margin suits (.inr rfl)
    unfold incidentsOnFault
    cases answered : action.answer machine with
    | ok a =>
        rw [Action.eq_ok_finalState answered, Action.eq_ok_finalState (answers.trans answered)]
    | error failure =>
        rw [Action.eq_error_of_answer answered,
          Action.eq_error_of_answer (answers.trans answered)]
        cases failure with
        | breach breach => rfl
        | fault fault => exact (handled fault).first_of_withoutReports withoutReports
  alike machine margin suits goOn := by
    unfold incidentsOnFault at goOn ⊢
    obtain ⟨-, answers, withoutReports⟩ := quiet.alike machine margin suits (.inr rfl)
    cases answered : action.answer machine with
    | ok a =>
        have here := Action.eq_ok_finalState answered
        have there := Action.eq_ok_finalState (answers.trans answered)
        have ended := (IgnoresMargin.pure a).quiet.alike_of_withoutReports withoutReports (.inr rfl)
        refine ended.transport (Action.onFault_of_ok here) (Action.onFault_of_ok there) ?_
        rw [here, there]
    | error failure =>
        have here := Action.eq_error_of_answer answered
        have there := Action.eq_error_of_answer (answers.trans answered)
        cases failure with
        | breach breach =>
            have refuses : IgnoresMargin (Action.refuse breach : Play α) := .refuse breach
            have ended := refuses.quiet.alike_of_withoutReports withoutReports (.inr rfl)
            refine ended.transport (Action.onFault_of_breach here) (Action.onFault_of_breach there)
              ?_
            rw [here, there]
        | fault fault =>
            rw [here] at goOn
            have later := (handled fault).alike_of_withoutReports withoutReports
              (goOn.imp_left quiet.goOn)
            refine later.transport (Action.onFault_of_fault here) (Action.onFault_of_fault there) ?_
            rw [here, there]
            exact later.incidents

end Handles

namespace Quiet

/-- Actions without incidents have none one after the other. -/
theorem bind {first : Play α} {rest : α → Play β} (head : Quiet first)
    (tail : ∀ a, Quiet (rest a)) : Quiet (first >>= rest) := by
  have none : incidentsThen (fun _ => []) first (fun _ _ => []) = fun _ => [] := by
    funext machine
    unfold incidentsThen
    split
    · rfl
    · rfl
  have both := Handles.bind head tail
  rw [none] at both
  exact both

/-- What looks only at the suited part of the machine has no incidents if the rest has none. -/
theorem get {rest : Machine → Play β}
    (blind : ∀ machine margin, margin.Suits machine →
      rest (machine.withMargin margin) = rest machine)
    (tail : ∀ machine, Quiet (rest machine)) : Quiet (get >>= rest) :=
  Handles.get rest _ tail fun machine margin suits => ⟨blind machine margin suits, rfl⟩

/-- A change that does not depend on what is reported and keeps the account. -/
theorem modify {change : Machine → Machine}
    (account : ∀ machine, (change machine).account = machine.account)
    (withoutReports : ∀ machine margin, margin.Suits machine →
      (change (machine.withMargin margin)).withoutReports = (change machine).withoutReports) :
    Quiet (modify change : Play PUnit) where
  account := account
  first _ _ _ := rfl
  alike machine margin suits _ := ⟨rfl, rfl, withoutReports machine margin suits⟩

end Quiet

end Machine

end StoryMachine
