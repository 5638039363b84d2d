import StoryMachine.Proofs.Incidents

/-!
# Dealing with faults

A machine deals with a fault by entering it in its account and going on as its
policy decides. Every action of a step is put together from this and from quiet
actions, so the incidents of a run enter the account one by one, and machines that
are alike stay so as long as they go on.
-/

namespace StoryMachine

namespace Machine

variable {α β : Type} {machine : Machine} {margin : Margin}

/-! ## Dealing with faults -/

private theorem report_eq (notice : Notice) (fault : Fault) (description : String) (machine : Machine) :
    ∃ log : Log, log.threshold = machine.log.threshold ∧
      report notice fault description machine =
        .ok () { machine with
          log
          reports :=
            if notice = .warning then (fault.message, description) :: machine.reports
            else machine.reports } := by
  cases notice with
  | silent => exact ⟨machine.log, rfl, rfl⟩
  | warning => exact ⟨_, Log.threshold_add _ _ _ _, rfl⟩
  | failure => exact ⟨_, Log.threshold_add _ _ _ _, rfl⟩

/-- What a machine does after it has decided about a fault. -/
def recover (recovery : Recovery) (fault : Fault) (instruction : Option Instruction) : Play Unit :=
  match recovery, instruction with
  | .proceed, some instruction => goTo instruction.nextAddress
  | _, _ => do
      modify fun machine => { machine with fault := some fault }
      halt

/-- Going on after a fault ignores the margin, once it is known how. -/
theorem ignoresMargin_recover (recovery : Recovery) (fault : Fault)
    (instruction : Option Instruction) :
    IgnoresMargin (recover recovery fault instruction) := by
  unfold recover
  split
  · exact ignoresMargin_goTo _
  · exact .modify_then (fun _ => rfl) (fun _ _ => rfl) fun _ => ignoresMargin_halt

/-- The machine with an account and a log. -/
def reporting (machine : Machine) (account : Account) (log : Log) : Machine :=
  { machine with classifier := account.classifier, reports := account.reports, log }

/-- Dealing with a fault enters it in the account and goes on as the policy decides. -/
theorem handleFault_eq (fault : Fault) (instruction : Option Instruction) (ofSound : Bool)
    (machine : Machine) :
    let incident := machine.incident fault instruction ofSound
    ∃ log : Log, log.threshold = machine.log.threshold ∧
      handleFault fault instruction machine =
        recover (machine.classifier.classify incident.fault incident.opcode).1 incident.fault
          instruction (machine.reporting (machine.account.hear incident) log) := by
  intro incident
  obtain ⟨log, kept, reported⟩ :=
    report_eq (machine.classifier.classify incident.fault incident.opcode).2.1 incident.fault
      incident.description
      { machine with
        classifier := (machine.classifier.classify incident.fault incident.opcode).2.2 }
  refine ⟨log, kept, ?_⟩
  unfold handleFault
  rw [Action.get_bind]
  dsimp only
  rw [Action.modify_bind]
  exact Action.bind_of_ok reported

private theorem incident_withMargin (suits : margin.Suits machine) (fault : Fault)
    (instruction : Option Instruction) (ofSound : Bool) :
    (machine.withMargin margin).incident fault instruction ofSound =
      machine.incident fault instruction ofSound := by
  unfold incident
  rw [withoutReports_withMargin suits]
  rfl

/-- Machines that are alike are so after the same incident. -/
theorem withoutReports_reporting (suits : margin.Suits machine)
    (incident : Incident) {log other : Log}
    (kept : log.threshold = machine.log.threshold)
    (agrees : other.threshold = margin.log.threshold) :
    ((machine.withMargin margin).reporting
      ((machine.withMargin margin).account.hear incident) other).withoutReports =
        (machine.reporting (machine.account.hear incident) log).withoutReports := by
  have counted (account : Account) :
      (account.hear incident).classifier.faultCount = account.classifier.faultCount + 1 :=
    Classifier.faultCount_classify _ _ _
  have suited : ((machine.withMargin margin).reporting
      ((machine.withMargin margin).account.hear incident) other).margin.Suits
        (machine.reporting (machine.account.hear incident) log) := by
    refine ⟨suits.undo, ?_, (agrees.trans suits.threshold).trans kept.symm⟩
    have same : (machine.withMargin margin).account.classifier.faultCount =
        machine.account.classifier.faultCount := suits.faultCount
    exact (counted _).trans ((congrArg (· + 1) same).trans (counted _).symm)
  exact withoutReports_withMargin suited

private theorem handles_handleFault (fault : Fault) (instruction : Option Instruction) (ofSound : Bool) :
    Handles (fun machine => [machine.incident fault instruction ofSound])
      (handleFault fault instruction) where
  account machine := by
    obtain ⟨log, -, run⟩ := handleFault_eq fault instruction ofSound machine
    rw [Action.finalState_congr (recover _ _ _) run]
    exact (ignoresMargin_recover _ _ _).quiet.account (machine.reporting _ log)
  first machine margin suits :=
    congrArg some (incident_withMargin suits fault instruction ofSound)
  alike machine margin suits goOn := by
    obtain ⟨goesOn, otherGoesOn⟩ := goOn.resolve_right (List.cons_ne_nil _ _)
    replace otherGoesOn : (machine.withMargin margin).classifier.policy ≠ .abort := otherGoesOn
    have incident := incident_withMargin suits fault instruction ofSound
    obtain ⟨log, kept, here⟩ := handleFault_eq fault instruction ofSound machine
    obtain ⟨other, agrees, there⟩ :=
      handleFault_eq fault instruction ofSound (machine.withMargin margin)
    rw [incident, Classifier.recovery_classify otherGoesOn,
      ← Classifier.recovery_classify goesOn _ (machine.incident fault instruction ofSound).opcode]
      at there
    generalize (machine.classifier.classify _ _).1 = recovery at here there
    have ignores :=
      ignoresMargin_recover recovery (machine.incident fault instruction ofSound).fault instruction
    have later := ignores.quiet.alike_of_withoutReports
      (withoutReports_reporting suits (machine.incident fault instruction ofSound) kept agrees)
      (.inr rfl)
    exact later.transport here there (congrArg (fun incident => [incident]) incident)

/-! ## Instructions -/

private theorem quiet_saveUndo (instruction : Instruction) : Quiet (saveUndo instruction) := by
  refine .modify (fun _ => rfl) fun machine margin suits => ?_
  have suited : Margin.Suits
      { margin with
        undo := (machine.snapshot instruction.resultAddress :: margin.undo).take maxUndo }
      { machine with
        undo := (machine.snapshot instruction.resultAddress :: machine.undo).take maxUndo } :=
    ⟨congrArg (fun undo => (machine.snapshot instruction.resultAddress :: undo).take maxUndo)
      suits.undo, suits.faultCount, suits.threshold⟩
  exact withoutReports_withMargin suited

private theorem quiet_restoreUndo : Quiet restoreUndo := by
  refine .get (fun machine margin suits => ?_) fun machine => ?_
  · have undo : (machine.withMargin margin).undo = machine.undo := suits.undo
    rw [undo]
  · split
    · exact (IgnoresMargin.pure false).quiet
    · rename_i game undo _
      refine .bind (.modify (fun _ => rfl) fun machine margin suits => ?_) fun _ => ?_
      · have suited : Margin.Suits { margin with undo } { machine with undo } :=
          ⟨rfl, suits.faultCount, suits.threshold⟩
        exact withoutReports_withMargin suited
      · have resumes := IgnoresMargin.bind (ignoresMargin_applySnapshot game) fun _ =>
          (ignoresMargin_resumeAfterSave game.pc).answered fun _ => true
        exact resumes.quiet

private theorem quiet_perform (instruction : Instruction) (values : List Int) :
    Quiet (perform instruction values) := by
  by_cases saves : instruction.opcode.operation = .saveUndo
  · unfold perform
    refine .get (fun _ _ _ => rfl) fun machine => ?_
    simp only [saves]
    exact .bind (quiet_saveUndo instruction) fun _ => (IgnoresMargin.pure _).quiet
  by_cases restores : instruction.opcode.operation = .restoreUndo
  · unfold perform
    refine .get (fun _ _ _ => rfl) fun machine => ?_
    simp only [restores]
    refine .bind quiet_restoreUndo fun restored => IgnoresMargin.quiet ?_
    split
    · exact .pure _
    · exact .pure _
  · exact (ignoresMargin_perform ⟨saves, restores⟩ values).quiet

/-- An instruction has no incidents of its own: its fault is handled around it. -/
theorem quiet_executeInstruction (instruction : Instruction) :
    Quiet (executeInstruction instruction) :=
  .bind (ignoresMargin_operandValues instruction).quiet fun values =>
    .bind (quiet_perform instruction values)
      fun next => (ignoresMargin_settle instruction next).quiet

/-! ## Steps -/

/-- To take an instruction in hand ignores the margin. -/
theorem ignoresMargin_taking (instruction : Instruction) :
    IgnoresMargin (modify (·.taking instruction) : Play PUnit) := by
  intro machine
  refine ⟨fun margin _ => ⟨((machine.withMargin margin).taking instruction).log, ?_, rfl⟩, rfl⟩
  unfold taking
  dsimp only
  split
  · exact Log.threshold_add _ _ _ _
  · rfl

/-- To execute is to decode what stands at the program counter, to take it in hand and to handle its
fault. -/
theorem execute_taking :
    execute = (do
      let machine ← get
      match machine.instructionAt machine.pc with
      | .error (.fault fault) => handleFault fault none
      | .error (.breach breach) => Action.refuse breach
      | .ok instruction =>
          modify (·.taking instruction)
          (executeInstruction instruction).onFault fun fault =>
            handleFault fault (some instruction)) := by
  funext machine
  rw [Action.get_bind]
  cases decoded : machine.instructionAt machine.pc with
  | ok instruction => exact execute_eq decoded
  | error failure =>
      unfold execute
      rw [Action.get_bind, decoded]
      cases failure with
      | fault fault => rfl
      | breach breach => rfl

/-- The incidents of the instruction that is found on a machine. -/
def incidentsExecutingAs (seen : Machine) : Machine → List Incident :=
  match seen.instructionAt seen.pc with
  | .error (.fault fault) => fun machine => [machine.incident fault none]
  | .error (.breach _) => fun _ => []
  | .ok instruction =>
      incidentsThen (fun _ => []) (modify (·.taking instruction) : Play PUnit) fun _ =>
        incidentsOnFault (executeInstruction instruction) fun fault failed =>
          [failed.incident fault (some instruction)]

private theorem handles_execute : Handles incidentsExecuting execute := by
  rw [execute_taking]
  refine Handles.of_eq (Handles.get _ incidentsExecutingAs (fun machine => ?_)
    fun _ _ _ => ⟨rfl, rfl⟩) fun machine => ?_
  · unfold incidentsExecutingAs
    split
    · exact handles_handleFault _ none false
    · exact (IgnoresMargin.refuse _).quiet
    · rename_i instruction _
      exact .bind (ignoresMargin_taking instruction).quiet fun _ =>
        .onFault (quiet_executeInstruction instruction) fun fault =>
          handles_handleFault fault (some instruction) false
  · unfold incidentsExecuting incidentsExecutingAs
    rcases machine.instructionAt machine.pc with (fault | breach) | instruction
    · rfl
    · rfl
    · rfl

/-- The incidents of the sound that is found to be over on a machine. -/
def incidentsPollingAs (seen : Machine) : Machine → List Incident :=
  match seen.soundOver? with
  | none => fun _ => []
  | some (token, routine) =>
      let soundRoutines := seen.soundRoutines.erase (token, routine)
      incidentsThen (fun _ => [])
        (modify fun machine => { machine with soundRoutines } : Play PUnit) fun _ =>
        incidentsThen (fun _ => []) (note .debug "zmachine.interpreter"
          s!"Sound {token} finished, calling 0x{Numeral.hex routine}") fun _ =>
          incidentsOnFault
            (callRoutine (seen.story.version.unpackRoutine routine) seen.pc none [])
            fun fault failed => [failed.incident fault none true]

/-- The incidents of looking for sounds are those of the routines that cannot be called. -/
theorem handles_pollSounds : Handles incidentsPolling pollSounds := by
  refine Handles.of_eq (Handles.get _ incidentsPollingAs (fun machine => ?_)
    fun _ _ _ => ⟨rfl, rfl⟩) fun machine => ?_
  · unfold incidentsPollingAs
    rcases machine.soundOver? with _ | ⟨token, routine⟩
    · exact (IgnoresMargin.pure ()).quiet
    · have forgets : IgnoresMargin (modify fun other =>
          { other with soundRoutines := machine.soundRoutines.erase (token, routine) } :
            Play PUnit) :=
        .modify (fun _ => rfl) fun _ _ => rfl
      refine .bind forgets.quiet fun _ => .bind (ignoresMargin_note _ _ _).quiet fun _ => ?_
      exact .onFault (ignoresMargin_callRoutine _ _ _ _ _).quiet fun fault =>
        handles_handleFault fault none true
  · unfold incidentsPolling incidentsPollingAs
    rcases machine.soundOver? with _ | ⟨token, routine⟩
    · rfl
    · rfl

/-- The incidents of an answer to the request that is found on a machine. -/
def incidentsAnsweringAs (token : Option Nat) (entry : Entry) (terminator : Int) (timedOut : Bool)
    (seen : Machine) : Machine → List Incident :=
  match token.bind seen.request? with
  | none => fun _ => []
  | some request =>
      if seen.pending = some request.token then
        incidentsOnFault (answerRequest request entry terminator timedOut) fun fault =>
          incidentsThen (fun _ => [])
            (modify fun machine => { machine with pending := none, phase := .running } : Play PUnit)
            fun _ failed => [failed.incident fault request.instruction]
      else fun _ => []

private theorem handles_completeInput (token : Option Nat) (entry : Entry) (terminator : Int)
    (timedOut : Bool) :
    Handles (incidentsAnswering token entry terminator timedOut)
      (completeInput token entry terminator timedOut) := by
  refine Handles.of_eq (Handles.get _ (incidentsAnsweringAs token entry terminator timedOut)
    (fun machine => ?_) fun _ _ _ => ⟨rfl, rfl⟩) fun machine => ?_
  · unfold incidentsAnsweringAs
    rcases token.bind machine.request? with _ | request
    · exact (IgnoresMargin.refuse _).quiet
    dsimp only
    by_cases asked : machine.pending = some request.token
    · rw [if_pos asked, if_pos asked]
      have abandons : IgnoresMargin (modify fun machine =>
          { machine with pending := none, phase := .running } : Play PUnit) :=
        .modify (fun _ => rfl) fun _ _ => rfl
      refine .onFault (ignoresMargin_answerRequest _ _ _ _).quiet fun fault => ?_
      exact .bind abandons.quiet fun _ => handles_handleFault fault request.instruction false
    · rw [if_neg asked, if_neg asked]
      exact (IgnoresMargin.refuse _).quiet
  · unfold incidentsAnswering incidentsAnsweringAs
    rcases token.bind machine.request? with _ | request
    · rfl
    · dsimp only
      split
      · rfl
      · rfl

/-- Reading what is typed ignores the margin. -/
theorem ignoresMargin_typed : IgnoresMargin typed := by
  refine .get (fun _ _ => rfl) fun machine => ?_
  split
  · exact ignoresMargin_readInput _ _
  · exact ignoresMargin_readInput _ _
  · exact .pure none

private theorem handles_answerTyped (entry : Option Text) :
    Handles (fun machine =>
      match entry with
      | none => []
      | some text => machine.incidentsAnswering machine.pending (.text text) 13 false)
      (answerTyped entry) := by
  cases entry with
  | none => exact (IgnoresMargin.pure ()).quiet
  | some text =>
      exact .get _ (fun machine => incidentsAnswering machine.pending (.text text) 13 false)
        (fun machine => handles_completeInput _ _ _ _) fun _ _ _ => ⟨rfl, rfl⟩

private theorem handles_acceptInput : Handles incidentsAccepting acceptInput := by
  rw [acceptInput_eq]
  refine Handles.of_eq (.bind ignoresMargin_typed.quiet handles_answerTyped) fun machine => ?_
  unfold incidentsAccepting incidentsThen
  rcases typed machine with ⟨_ | text, read⟩ | ⟨failure, read⟩
  · rfl
  · rfl
  · rfl

/-- The incidents of looking for input are those of the answer that it is given. -/
theorem handles_listen : Handles incidentsListening listen :=
  .bind (ignoresMargin_requireStory _).quiet fun _ => handles_acceptInput

private theorem handles_continues : Handles incidentsContinuing continues := by
  refine Handles.of_eq (.get _ (fun machine =>
    if machine.phase = .running then
      incidentsThen incidentsPolling pollSounds fun _ => incidentsExecuting
    else fun _ => [])
    (fun machine => ?_) fun _ _ _ => ⟨rfl, rfl⟩) fun machine => ?_
  · by_cases running : machine.phase = .running
    · rw [if_pos running, if_pos running]
      exact .bind handles_pollSounds fun _ => handles_execute
    · rw [if_neg running, if_neg running]
      exact (IgnoresMargin.pure ()).quiet
  · unfold incidentsContinuing
    split
    · rfl
    · rfl

private theorem handles_step : Handles incidentsStepping step := by
  rw [step_eq]
  exact .bind handles_listen fun _ => handles_continues

/-! ## Events and runs -/

/-- The incidents of an event enter the account. -/
theorem Event.account (event : Event) (machine : Machine) :
    (event.apply machine).account =
      (event.incidents machine).foldl Account.hear machine.account := by
  cases event with
  | step => exact handles_step.account machine
  | answer token entry terminator timedOut => exact (handles_completeInput _ _ _ _).account machine
  | quit => exact ignoresMargin_quit.quiet.account machine
  | outside storage disk input sound screen => rfl

/-- Machines that are alike have the same first incident. -/
theorem Event.first (event : Event) {machine other : Machine}
    (same : other.withoutReports = machine.withoutReports) :
    (event.incidents other).head? = (event.incidents machine).head? := by
  cases event with
  | step => exact handles_step.first_of_withoutReports same
  | answer token entry terminator timedOut =>
      exact (handles_completeInput _ _ _ _).first_of_withoutReports same
  | quit => rfl
  | outside storage disk input sound screen => rfl

/-- An event leaves machines alike that were so, if they go on after its incidents. -/
theorem Event.alike (event : Event) {machine other : Machine}
    (same : other.withoutReports = machine.withoutReports)
    (goOn : GoOn (event.incidents machine) machine other.margin) :
    event.incidents other = event.incidents machine ∧
      (event.apply other).withoutReports = (event.apply machine).withoutReports := by
  cases event with
  | step =>
      have alike := handles_step.alike_of_withoutReports same goOn
      exact ⟨alike.incidents, alike.withoutReports⟩
  | answer token entry terminator timedOut =>
      have alike := (handles_completeInput _ _ _ _).alike_of_withoutReports same goOn
      exact ⟨alike.incidents, alike.withoutReports⟩
  | quit =>
      have alike := ignoresMargin_quit.quiet.alike_of_withoutReports same (.inr rfl)
      exact ⟨rfl, alike.withoutReports⟩
  | outside storage disk input sound screen =>
      obtain ⟨suits, eq⟩ := withMargin_of_withoutReports same
      have suited : other.margin.Suits { machine with storage, disk, input, sound, screen } :=
        ⟨suits.undo, suits.faultCount, suits.threshold⟩
      rw [eq]
      exact ⟨rfl, withoutReports_withMargin suited⟩

/-- The incidents of a run enter the account. -/
theorem account_after (machine : Machine) (events : List Event) :
    (machine.after events).account =
      (machine.incidents events).foldl Account.hear machine.account := by
  induction events generalizing machine with
  | nil => rfl
  | cons event rest ih =>
      unfold incidents
      rw [List.foldl_append, ← event.account machine]
      exact ih (event.apply machine)

/-- Machines that are alike stay so in a run, if they go on after its incidents. -/
theorem alike_after {machine other : Machine} (events : List Event)
    (same : other.withoutReports = machine.withoutReports)
    (goOn : GoOn (machine.incidents events) machine other.margin) :
    other.incidents events = machine.incidents events ∧
      (other.after events).withoutReports = (machine.after events).withoutReports := by
  induction events generalizing machine other with
  | nil => exact ⟨rfl, same⟩
  | cons event rest ih =>
      unfold incidents at goOn ⊢
      have now : GoOn (event.incidents machine) machine other.margin :=
        goOn.imp_right fun none => (List.append_eq_nil_iff.mp none).1
      obtain ⟨incidents, withoutReports⟩ := event.alike same now
      have policy (machine : Machine) :
          (event.apply machine).classifier.policy = machine.classifier.policy :=
        (congrArg (·.classifier.policy) (event.account machine)).trans
          (Account.policy_hearAll machine.account _)
      have later : GoOn ((event.apply machine).incidents rest) (event.apply machine)
          (event.apply other).margin :=
        goOn.imp (fun both => ⟨(policy machine).trans_ne both.1, (policy other).trans_ne both.2⟩)
          fun none => (List.append_eq_nil_iff.mp none).2
      obtain ⟨others, ends⟩ := ih withoutReports later
      exact ⟨congrArg₂ (· ++ ·) incidents others, ends⟩

end Machine

end StoryMachine
