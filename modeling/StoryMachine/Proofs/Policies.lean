import StoryMachine.Proofs.FaultHandling

/-!
# Policies

The policy of a machine decides what it reports of its faults, and no more: under
all policies that go on, a run has the same incidents and comes through the same
states. A machine that aborts does the same up to its first incident and halts
there, unless the fault kept the routine of a sound from being called.
-/

namespace StoryMachine

open StoryMachine.Action (Ensures Keeps)

namespace Incident

/-- What is reported of an incident. -/
def report (incident : Incident) : String × String :=
  (incident.fault.message, incident.description)

/-- Faults of the same kind in the same opcode. -/
def resembles (incident other : Incident) : Bool :=
  (incident.fault.kind, incident.opcode) == (other.fault.kind, other.opcode)

end Incident

/-- The incidents that a policy reports. A policy that warns once does so for the first of those
that resemble each other. -/
def Policy.reported (policy : Policy) (incidents : List Incident) : List Incident :=
  let recoverable := incidents.filter (·.fault.recoverable)
  match policy with
  | ignore => []
  | continueWarnOnce => recoverable.eraseDupsBy Incident.resembles
  | continueWarnAlways => recoverable
  | abort => []

namespace Account

variable {account : Account} {incident : Incident}

/-- Only a policy that warns reports anything. -/
theorem reports_silent (silent : account.classifier.policy = .ignore ∨
    account.classifier.policy = .abort) (incidents : List Incident) :
    (incidents.foldl hear account).reports = account.reports := by
  induction incidents generalizing account with
  | nil => rfl
  | cons incident rest ih =>
      have same : (account.hear incident).reports = account.reports := by
        unfold hear Classifier.classify
        rcases silent with policy | policy
        · rw [policy]
          cases incident.fault.recoverable <;> rfl
        · rw [policy]
          cases incident.fault.recoverable <;> rfl
      rw [List.foldl_cons, ih, same]
      rw [account.policy_hear incident]
      exact silent

/-- A policy that warns always reports every fault that it can go on after. -/
theorem reports_always (always : account.classifier.policy = .continueWarnAlways)
    (incidents : List Incident) :
    (incidents.foldl hear account).reports =
      ((incidents.filter (·.fault.recoverable)).map Incident.report).reverse ++
        account.reports := by
  induction incidents generalizing account with
  | nil => rfl
  | cons incident rest ih =>
      rw [List.foldl_cons, ih ((account.policy_hear incident).trans always)]
      cases recoverable : incident.fault.recoverable with
      | false =>
          have same : (account.hear incident).reports = account.reports := by
            unfold hear Classifier.classify
            rw [recoverable]
            rfl
          rw [same, List.filter_cons_of_neg (by simp [recoverable])]
      | true =>
          have same : (account.hear incident).reports = incident.report :: account.reports := by
            unfold hear Classifier.classify
            rw [recoverable, always]
            rfl
          have kept : (incident :: rest).filter (·.fault.recoverable) =
              incident :: rest.filter (·.fault.recoverable) :=
            List.filter_cons_of_pos recoverable
          rw [same, kept, List.map_cons, List.reverse_cons, List.append_assoc]
          rfl

/-- A policy that warns once has seen what it has reported. -/
structure Warned (account : Account) (seen : List Incident) : Prop where
  policy : account.classifier.policy = .continueWarnOnce
  reported : account.classifier.reported = seen.map fun old => (old.fault.kind, old.opcode)
  reports : account.reports = seen.map Incident.report

/-- Whether a policy that warns once has warned. -/
theorem Warned.contains {seen : List Incident} (warned : account.Warned seen)
    (incident : Incident) :
    account.classifier.reported.contains (incident.fault.kind, incident.opcode) =
      seen.any incident.resembles := by
  rw [warned.reported, List.contains_eq_any_beq, List.any_map]
  rfl

private theorem Warned.hear_old {seen : List Incident} (warned : account.Warned seen)
    (old : incident.fault.recoverable = false ∨ seen.any incident.resembles = true) :
    (account.hear incident).Warned seen := by
  have known := warned.contains incident
  obtain ⟨⟨policy, reported, count⟩, reports⟩ := account
  obtain rfl : policy = .continueWarnOnce := warned.policy
  have counted : Account.hear ⟨⟨.continueWarnOnce, reported, count⟩, reports⟩ incident =
      ⟨⟨.continueWarnOnce, reported, count + 1⟩, reports⟩ := by
    unfold hear Classifier.classify
    cases recoverable : incident.fault.recoverable with
    | false => rfl
    | true =>
        rw [known.trans (old.resolve_left (by simp [recoverable]))]
        rfl
  rw [counted]
  exact ⟨rfl, warned.reported, warned.reports⟩

private theorem Warned.hear_new {seen : List Incident} (warned : account.Warned seen)
    (recoverable : incident.fault.recoverable = true)
    (new : seen.any incident.resembles = false) :
    (account.hear incident).Warned (incident :: seen) := by
  have unknown := (warned.contains incident).trans new
  obtain ⟨⟨policy, reported, count⟩, reports⟩ := account
  obtain rfl : policy = .continueWarnOnce := warned.policy
  have warns : Account.hear ⟨⟨.continueWarnOnce, reported, count⟩, reports⟩ incident =
      ⟨⟨.continueWarnOnce, (incident.fault.kind, incident.opcode) :: reported, count + 1⟩,
        incident.report :: reports⟩ := by
    unfold hear Classifier.classify
    rw [recoverable, unknown]
    rfl
  rw [warns]
  exact ⟨rfl, congrArg _ warned.reported, congrArg _ warned.reports⟩

private theorem reports_once {seen : List Incident} (warned : account.Warned seen)
    (incidents : List Incident) :
    (incidents.foldl hear account).reports =
      ((List.eraseDupsBy.loop Incident.resembles (incidents.filter (·.fault.recoverable)) seen).map
        Incident.report).reverse := by
  induction incidents generalizing account seen with
  | nil =>
      rw [List.foldl_nil, warned.reports, List.filter_nil, List.eraseDupsBy.loop, List.map_reverse,
        List.reverse_reverse]
  | cons incident rest ih =>
      rw [List.foldl_cons]
      cases recoverable : incident.fault.recoverable with
      | false =>
          rw [ih (warned.hear_old (.inl recoverable)),
            List.filter_cons_of_neg (by simp [recoverable])]
      | true =>
          have kept : (incident :: rest).filter (·.fault.recoverable) =
              incident :: rest.filter (·.fault.recoverable) :=
            List.filter_cons_of_pos recoverable
          rw [kept, List.eraseDupsBy.loop]
          cases known : seen.any incident.resembles with
          | true => exact ih (warned.hear_old (.inr known))
          | false => exact ih (warned.hear_new recoverable known)

private theorem faultCount_hearAll (account : Account) (incidents : List Incident) :
    (incidents.foldl hear account).classifier.faultCount =
      account.classifier.faultCount + incidents.length := by
  induction incidents generalizing account with
  | nil => rfl
  | cons incident rest ih =>
      rw [List.foldl_cons, ih]
      have counted : (account.hear incident).classifier.faultCount =
          account.classifier.faultCount + 1 :=
        Classifier.faultCount_classify _ _ _
      rw [counted, List.length_cons]
      omega

/-- A policy reports of the incidents that an account has heard. -/
theorem reports_hearAll (policy : Policy) (incidents : List Incident) :
    (incidents.foldl hear { classifier := { policy }, reports := [] }).reports.reverse =
      (policy.reported incidents).map Incident.report := by
  cases policy with
  | ignore =>
      rw [reports_silent (.inl rfl)]
      rfl
  | abort =>
      rw [reports_silent (.inr rfl)]
      rfl
  | continueWarnAlways =>
      rw [reports_always rfl, List.append_nil, List.reverse_reverse]
      rfl
  | continueWarnOnce =>
      have warned : Warned { classifier := { policy := .continueWarnOnce }, reports := [] } [] :=
        ⟨rfl, rfl, rfl⟩
      rw [reports_once warned, List.reverse_reverse]
      rfl

end Account

namespace Machine

variable {machine : Machine} {incident : Incident}

/-! ## Aborting -/

/-- The machine has halted with the fault of an incident. But for that, the count of faults and its
written streams it is where the incident happened. -/
structure StoppedAt (machine : Machine) (incident : Incident) : Prop where
  phase : machine.phase = .halted
  fault : machine.fault = some incident.fault
  site : machine.withoutReports =
    { incident.site with
      phase := .halted
      fault := some incident.fault
      classifier.faultCount := incident.site.classifier.faultCount + 1
      transcript := machine.transcript
      script := machine.script }

/-- Writing out the streams changes nothing else. -/
theorem finalState_flush (machine : Machine) :
    ∃ transcript script, flush.finalState machine = { machine with transcript, script } := by
  have written (part : Machine → Option Sink) (withPart : Option Sink → Machine → Machine)
      (kept : ∀ (sink : Option Sink) (transcript script : Option Sink),
        ∃ transcript' script', withPart sink { machine with transcript, script } =
          { machine with transcript := transcript', script := script' }) :
      Keeps (fun after => ∃ transcript script, after = { machine with transcript, script })
        (flushSink part withPart) := by
    refine .get fun _ _ => ?_
    split
    · exact .pure trivial
    · refine Ensures.bind (.lift fun _ _ => trivial) fun sink _ => .modify ?_
      rintro _ ⟨transcript, script, rfl⟩
      exact kept _ transcript script
  have flushes :
      Keeps (fun after => ∃ transcript script, after = { machine with transcript, script }) flush :=
    .seq (written _ _ fun sink _ script => ⟨sink, script, rfl⟩) fun _ =>
      written _ _ fun sink transcript _ => ⟨transcript, sink, rfl⟩
  exact flushes.finalState ⟨machine.transcript, machine.script, rfl⟩

/-- A machine that aborts stops at every fault that it deals with. -/
theorem stoppedAt_handleFault (aborts : machine.classifier.policy = .abort) (fault : Fault)
    (instruction : Option Instruction) (ofSound : Bool) :
    ((handleFault fault instruction).finalState machine).StoppedAt
      (machine.incident fault instruction ofSound) := by
  obtain ⟨log, kept, run⟩ := handleFault_eq fault instruction ofSound machine
  have halts : (machine.classifier.classify (machine.incident fault instruction ofSound).fault
      (machine.incident fault instruction ofSound).opcode).1 = .halt := by
    unfold Classifier.classify
    rw [aborts]
    split <;> rfl
  have stops (fault : Fault) : recover .halt fault instruction = (do
      modify fun machine => { machine with fault := some fault }
      halt) := by
    cases instruction <;> rfl
  obtain ⟨transcript, script, flushed⟩ := finalState_flush
    { machine.reporting (machine.account.hear (machine.incident fault instruction ofSound)) log with
      fault := some (machine.incident fault instruction ofSound).fault
      phase := .halted }
  rw [halts, stops] at run
  have ended := (Action.finalState_congr flush run).trans flushed
  rw [ended]
  refine ⟨rfl, rfl, ?_⟩
  have counted : ((machine.account.hear
      (machine.incident fault instruction ofSound)).classifier).faultCount =
        machine.classifier.faultCount + 1 :=
    Classifier.faultCount_classify _ _ _
  unfold withoutReports reporting
  dsimp only
  rw [counted, kept]
  rfl

/-! ## The first incident of a machine that aborts -/

private theorem of_head?_incidentsOnFault {α : Type} {action : Play α}
    {following : Fault → Machine → List Incident}
    (first : (incidentsOnFault action following machine).head? = some incident) :
    ∃ fault failed, action machine = .error (.fault fault) failed ∧
      (following fault failed).head? = some incident := by
  unfold incidentsOnFault at first
  split at first
  · rename_i fault failed broke
    exact ⟨fault, failed, broke, first⟩
  · cases first

private theorem stoppedAt_completeInput (aborts : machine.classifier.policy = .abort)
    {token : Option Nat} {entry : Entry} {terminator : Int} {timedOut : Bool}
    (first : (machine.incidentsAnswering token entry terminator timedOut).head? = some incident) :
    ((completeInput token entry terminator timedOut).finalState machine).StoppedAt incident := by
  unfold incidentsAnswering at first
  cases found : token.bind machine.request? with
  | none =>
      rw [found] at first
      cases first
  | some request =>
      rw [found] at first
      dsimp only at first
      split at first
      · rename_i asked
        obtain ⟨fault, failed, broke, same⟩ := of_head?_incidentsOnFault first
        obtain rfl := Option.some.inj same
        have policy : Classifier.policy
            (classifier { failed with pending := none, phase := .running }) = .abort := by
          have answers := ignoresMargin_answerRequest request entry terminator timedOut
          have kept := answers.quiet.policy machine
          rw [Action.finalState_of_error broke] at kept
          exact kept.trans aborts
        have run : completeInput token entry terminator timedOut machine =
            handleFault fault request.instruction
              { failed with pending := none, phase := .running } := by
          unfold completeInput
          rw [Action.get_bind, found]
          dsimp only
          rw [if_pos asked]
          exact Action.onFault_of_fault broke
        rw [Action.finalState_congr _ run]
        exact stoppedAt_handleFault policy _ _ _
      · cases first

/-- The first incident after a quiet action happens in what goes on from it. -/
theorem of_head?_incidentsThen {α β : Type} {first : Play α} (rest : α → Play β)
    {following : α → Machine → List Incident} (quiet : Quiet first)
    (aborts : machine.classifier.policy = .abort)
    (begins : (incidentsThen (fun _ => []) first following machine).head? = some incident) :
    ∃ a after, first machine = .ok a after ∧ after.classifier.policy = .abort ∧
      (following a after).head? = some incident ∧
      (first >>= rest).finalState machine = (rest a).finalState after := by
  unfold incidentsThen at begins
  have kept := quiet.policy machine
  cases outcome : first machine with
  | error failure after =>
      rw [outcome] at begins
      cases begins
  | ok a after =>
      rw [outcome] at begins
      rw [Action.finalState_of_ok outcome] at kept
      refine ⟨a, after, rfl, kept.trans aborts, begins, ?_⟩
      exact Action.finalState_congr (rest a) (Action.bind_of_ok outcome)

private theorem stoppedAt_acceptInput (aborts : machine.classifier.policy = .abort)
    (first : machine.incidentsAccepting.head? = some incident) :
    (acceptInput.finalState machine).StoppedAt incident := by
  have kept := ignoresMargin_typed.quiet.policy machine
  unfold incidentsAccepting at first
  rw [acceptInput_eq]
  rcases outcome : typed machine with ⟨_ | text, read⟩ | ⟨failure, read⟩
  · rw [outcome] at first
    cases first
  · rw [outcome] at first
    rw [Action.finalState_of_ok outcome] at kept
    have run : (typed >>= answerTyped) machine =
        completeInput read.pending (.text text) 13 false read :=
      Action.bind_of_ok outcome
    rw [Action.finalState_congr _ run]
    exact stoppedAt_completeInput (kept.trans aborts) first
  · rw [outcome] at first
    cases first

private theorem stoppedAt_listen (aborts : machine.classifier.policy = .abort)
    (first : machine.incidentsListening.head? = some incident) :
    (listen.finalState machine).StoppedAt incident := by
  obtain ⟨u, after, -, aborts, first, run⟩ := of_head?_incidentsThen (fun _ => acceptInput)
    (ignoresMargin_requireStory _).quiet aborts first
  have run : listen.finalState machine = acceptInput.finalState after := run
  rw [run]
  exact stoppedAt_acceptInput aborts first

private theorem stoppedAt_execute (aborts : machine.classifier.policy = .abort)
    (first : machine.incidentsExecuting.head? = some incident) :
    (execute.finalState machine).StoppedAt incident := by
  unfold incidentsExecuting at first
  rcases decoded : machine.instructionAt machine.pc with (fault | breach) | instruction
  · rw [decoded] at first
    obtain rfl := Option.some.inj first
    have run : execute machine = handleFault fault none machine := by
      rw [execute_taking, Action.get_bind, decoded]
    rw [Action.finalState_congr _ run]
    exact stoppedAt_handleFault aborts fault none false
  · rw [decoded] at first
    cases first
  · rw [decoded] at first
    obtain ⟨fault, failed, broke, same⟩ := of_head?_incidentsOnFault first
    obtain rfl := Option.some.inj same
    have kept := (quiet_executeInstruction instruction).policy (machine.taking instruction)
    rw [Action.finalState_of_error broke] at kept
    have run : execute machine = handleFault fault (some instruction) failed :=
      (execute_eq decoded).trans (Action.onFault_of_fault broke)
    rw [Action.finalState_congr _ run]
    exact stoppedAt_handleFault (kept.trans aborts) fault (some instruction) false

/-- The incidents of a sound keep its routine from being called. -/
theorem ofSound_of_mem_incidentsPolling (listed : incident ∈ machine.incidentsPolling) :
    incident.ofSound = true := by
  unfold incidentsPolling at listed
  split at listed
  · cases listed
  · unfold incidentsOnFault at listed
    dsimp only at listed
    split at listed
    · rw [List.mem_singleton.mp listed]
      rfl
    · cases listed

private theorem stoppedAt_continues (aborts : machine.classifier.policy = .abort)
    (first : machine.incidentsContinuing.head? = some incident) (apart : incident.ofSound = false) :
    (continues.finalState machine).StoppedAt incident := by
  unfold incidentsContinuing at first
  split at first
  · rename_i running
    unfold incidentsThen at first
    cases sounds : machine.incidentsPolling with
    | cons sound rest =>
        rw [sounds] at first
        obtain rfl := Option.some.inj first
        have ofSound := ofSound_of_mem_incidentsPolling (sounds ▸ List.mem_cons_self)
        rw [ofSound] at apart
        cases apart
    | nil =>
        rw [sounds, List.nil_append] at first
        have kept := handles_pollSounds.policy machine
        cases outcome : pollSounds machine with
        | error failure polled =>
            rw [outcome] at first
            cases first
        | ok u polled =>
            rw [outcome] at first
            rw [Action.finalState_of_ok outcome] at kept
            have run : continues machine = execute polled := by
              unfold continues
              rw [Action.get_bind, if_pos running]
              exact Action.bind_of_ok outcome
            rw [Action.finalState_congr _ run]
            exact stoppedAt_execute (kept.trans aborts) first
  · cases first

private theorem stoppedAt_step (aborts : machine.classifier.policy = .abort)
    (first : machine.incidentsStepping.head? = some incident) (apart : incident.ofSound = false) :
    (step.finalState machine).StoppedAt incident := by
  have kept := handles_listen.policy machine
  have stages : step = listen >>= fun _ => continues := step_eq
  unfold incidentsStepping incidentsThen at first
  rw [stages]
  cases heard : machine.incidentsListening with
  | cons earlier rest =>
      rw [heard] at first
      obtain rfl := Option.some.inj first
      have stopped := stoppedAt_listen aborts (congrArg List.head? heard)
      cases outcome : listen machine with
      | error failure after =>
          rw [Action.finalState_of_error outcome] at stopped
          have run : (listen >>= fun _ => continues) machine = .error failure after :=
            Action.bind_of_error outcome
          rw [Action.finalState_of_error run]
          exact stopped
      | ok u after =>
          -- The machine has halted, so that nothing goes on from here.
          rw [Action.finalState_of_ok outcome] at stopped
          have ended : continues after = .ok () after := by
            unfold continues
            rw [Action.get_bind, stopped.phase]
            rfl
          have run : (listen >>= fun _ => continues) machine = .ok () after :=
            (Action.bind_of_ok outcome).trans ended
          rw [Action.finalState_of_ok run]
          exact stopped
  | nil =>
      rw [heard, List.nil_append] at first
      cases outcome : listen machine with
      | error failure after =>
          rw [outcome] at first
          cases first
      | ok u after =>
          rw [outcome] at first
          rw [Action.finalState_of_ok outcome] at kept
          have run : (listen >>= fun _ => continues) machine = continues after :=
            Action.bind_of_ok outcome
          rw [Action.finalState_congr _ run]
          exact stoppedAt_continues (kept.trans aborts) first apart

/-- A machine that aborts stops at the first incident of an event. -/
theorem stoppedAt_event (aborts : machine.classifier.policy = .abort) {event : Event}
    (first : (event.incidents machine).head? = some incident) (apart : incident.ofSound = false) :
    (event.apply machine).StoppedAt incident := by
  cases event with
  | step => exact stoppedAt_step aborts first apart
  | answer token entry terminator timedOut => exact stoppedAt_completeInput aborts first
  | quit => cases first
  | outside storage disk input sound screen => cases first

/-! ## Runs under a policy -/

/-- The machine started under a policy. -/
def startedUnder (fresh : Machine) (policy : Policy) : Machine :=
  reset.finalState { fresh with classifier := { policy }, reports := [] }

private theorem account_startedUnder (fresh : Machine) (policy : Policy) :
    (fresh.startedUnder policy).account = { classifier := { policy }, reports := [] } := by
  unfold startedUnder Action.finalState
  rw [reset_eq]
  dsimp only
  cases Story.load fresh.file.data with
  | error failure => rfl
  | ok loaded =>
      unfold opened begun
      rfl

private theorem withoutReports_startedUnder (fresh : Machine) (policy other : Policy) :
    (fresh.startedUnder other).withoutReports = (fresh.startedUnder policy).withoutReports := by
  unfold startedUnder Action.finalState
  rw [reset_eq, reset_eq]
  dsimp only
  cases Story.load fresh.file.data with
  | error failure => rfl
  | ok loaded =>
      unfold opened begun
      rfl

/-- The policy decides only what is reported. A run counts its incidents and reports those that its
policy demands; under policies that go on it has the same incidents and comes through the same
states. A machine that aborts comes through the same states up to the first incident, and halts
there with its fault, unless the fault kept the routine of a sound from being called. -/
theorem policy_decides_reports (fresh : Machine) (events : List Event) :
    (∀ policy : Policy,
      let incidents := (fresh.startedUnder policy).incidents events
      let reached := (fresh.startedUnder policy).after events
      reached.classifier.faultCount = incidents.length ∧
        reached.reports.reverse = (policy.reported incidents).map Incident.report) ∧
      (∀ policy other : Policy, policy ≠ .abort → other ≠ .abort →
        (fresh.startedUnder other).incidents events =
            (fresh.startedUnder policy).incidents events ∧
          ((fresh.startedUnder other).after events).withoutReports =
            ((fresh.startedUnder policy).after events).withoutReports) ∧
      ∀ policy : Policy, (fresh.startedUnder policy).incidents events = [] →
        ((fresh.startedUnder .abort).after events).withoutReports =
            ((fresh.startedUnder policy).after events).withoutReports ∧
          ∀ (event : Event) (incident : Incident),
            (event.incidents ((fresh.startedUnder policy).after events)).head? = some incident →
              incident.ofSound = false →
              (event.apply ((fresh.startedUnder .abort).after events)).StoppedAt incident := by
  have policies (policy : Policy) :
      ((fresh.startedUnder policy).after events).account =
        ((fresh.startedUnder policy).incidents events).foldl Account.hear
          { classifier := { policy }, reports := [] } := by
    rw [account_after, account_startedUnder]
  have started (policy : Policy) : (fresh.startedUnder policy).classifier.policy = policy :=
    congrArg (·.classifier.policy) (fresh.account_startedUnder policy)
  refine ⟨?_, ?_, ?_⟩
  · intro policy
    have heard := policies policy
    constructor
    · refine (congrArg (·.classifier.faultCount) heard).trans ?_
      rw [Account.faultCount_hearAll]
      exact Nat.zero_add _
    · rw [← Account.reports_hearAll]
      exact congrArg (·.reports.reverse) heard
  · intro policy other goesOn otherGoesOn
    refine alike_after events (fresh.withoutReports_startedUnder policy other) (.inl ⟨?_, ?_⟩)
    · rw [started]
      exact goesOn
    · rw [← started other] at otherGoesOn
      exact otherGoesOn
  · intro policy none
    have started := fresh.withoutReports_startedUnder policy .abort
    have same := (alike_after events started (.inr none)).2
    refine ⟨same, ?_⟩
    intro event incident first apart
    refine stoppedAt_event ?_ ((event.first same).trans first) apart
    have heard := congrArg (·.classifier.policy) (policies .abort)
    exact heard.trans (Account.policy_hearAll _ _)

/-- The sample story with a division by zero, which would be stored in the first global. -/
def dividingStory : Array UInt8 :=
  (sampleStory.toList.take 80 ++ [0x17, 5, 0, 16, 0xba] ++ sampleStory.toList.drop 85).toArray

/-- The sample machine with that story. -/
def dividing : Machine :=
  { sample with file.data := dividingStory }

/-- The only incident of its first step. -/
theorem incidents_dividing :
    ∃ incident, (dividing.startedUnder .ignore).incidents [.step] = [incident] ∧
      incident.ofSound = false ∧ incident.fault.recoverable = true := by
  have single : ((dividing.startedUnder .ignore).incidents [.step]).length = 1 := by
    decide +kernel
  have apart : ((dividing.startedUnder .ignore).incidents [.step]).all (!·.ofSound) = true := by
    decide +kernel
  have recoverable :
      ((dividing.startedUnder .ignore).incidents [.step]).all (·.fault.recoverable) = true := by
    decide +kernel
  obtain ⟨incident, only⟩ := List.length_eq_one_iff.mp single
  rw [only, List.all_cons, List.all_nil, Bool.and_true] at apart recoverable
  exact ⟨incident, only, by simpa using apart, recoverable⟩

/-- The division is counted, a machine that ignores it does not report it, one that warns does, and
one that aborts halts. -/
theorem policy_decides_reports_dividing :
    ((dividing.startedUnder .ignore).after [.step]).classifier.faultCount = 1 ∧
      ((dividing.startedUnder .ignore).after [.step]).reports = [] ∧
      ((dividing.startedUnder .continueWarnAlways).after [.step]).reports.length = 1 ∧
      ((dividing.startedUnder .continueWarnOnce).after [.step]).withoutReports =
        ((dividing.startedUnder .ignore).after [.step]).withoutReports ∧
      ((dividing.startedUnder .abort).after [.step]).phase = .halted := by
  obtain ⟨incident, only, apart, recoverable⟩ := incidents_dividing
  obtain ⟨reports, same, -⟩ := policy_decides_reports dividing [.step]
  obtain ⟨-, -, aborts⟩ := policy_decides_reports dividing []
  have first : (Event.incidents (dividing.startedUnder .ignore) .step).head? = some incident := by
    have begins := congrArg List.head? only
    rw [incidents, incidents, List.append_nil] at begins
    exact begins
  refine ⟨?_, ?_, ?_, ?_, ?_⟩
  · rw [(reports .ignore).1, only]
    rfl
  · exact List.reverse_eq_nil_iff.mp (reports .ignore).2
  · have reported := congrArg List.length (reports .continueWarnAlways).2
    rw [List.length_reverse, (same .ignore _ (by decide) (by decide)).1, only] at reported
    rw [reported, Policy.reported]
    simp [recoverable]
  · exact (same .ignore .continueWarnOnce (by decide) (by decide)).2
  · exact ((aborts .ignore rfl).2 .step incident first apart).phase

end Machine

end StoryMachine
