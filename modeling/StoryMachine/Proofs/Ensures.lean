import StoryMachine.Effect

/-!
# Invariants of actions

An action ensures an invariant if the invariant survives it, also when it fails
half way, and if every answer it gives has a stated property. The rules follow
the way actions are put together, so that a property of a long action is a
property of the few primitive ones that change the state.
-/

namespace StoryMachine

namespace Action

variable {σ τ α β : Type} {I : σ → Prop} {Q : α → Prop} {R : β → Prop}

/-- From a state, the action ends where the invariant holds, whether or not it fails, and its answer
has a property. -/
@[irreducible] def EndsIn (I : σ → Prop) (Q : α → Prop) (action : Action σ α) (s : σ) : Prop :=
  match action s with
  | .ok a s => I s ∧ Q a
  | .error _ s => I s

/-- The invariant survives the action, whether or not it fails, and its answers have a property. -/
def Ensures (I : σ → Prop) (Q : α → Prop) (action : Action σ α) : Prop :=
  ∀ s, I s → EndsIn I Q action s

/-- The invariant survives the action, whatever it answers. -/
abbrev Keeps (I : σ → Prop) (action : Action σ α) : Prop :=
  Ensures I (fun _ => True) action

/-- An action that answers leaves its final state. -/
theorem eq_ok_finalState {action : Action σ α} {s : σ} {a : α}
    (answers : action.answer s = .ok a) : action s = .ok a (action.finalState s) := by
  unfold answer at answers
  unfold finalState
  cases outcome : action s with
  | ok b s =>
      rw [outcome] at answers
      cases answers
      rfl
  | error e s =>
      rw [outcome] at answers
      cases answers

/-- An action that does not answer fails, and leaves its final state. -/
theorem eq_error_finalState {action : Action σ α} {s : σ} (fails : (action.answer s).isOk = false) :
    ∃ failure, action s = .error failure (action.finalState s) := by
  unfold answer at fails
  unfold finalState
  cases outcome : action s with
  | ok a s =>
      rw [outcome] at fails
      cases fails
  | error failure s => exact ⟨failure, rfl⟩

/-- An action that answers with a failure fails with it, and leaves its final state. -/
theorem eq_error_of_answer {action : Action σ α} {s : σ} {failure : Failure}
    (answers : action.answer s = .error failure) :
    action s = .error failure (action.finalState s) := by
  unfold answer at answers
  unfold finalState
  cases outcome : action s with
  | ok a s =>
      rw [outcome] at answers
      cases answers
  | error reason s =>
      rw [outcome] at answers
      cases answers
      rfl

/-- The state that a success leaves is the final one. -/
theorem finalState_of_ok {action : Action σ α} {s s' : σ} {a : α} (outcome : action s = .ok a s') :
    action.finalState s = s' := by
  simp only [finalState, outcome]

/-- The state that a failure leaves is the final one. -/
theorem finalState_of_error {action : Action σ α} {s s' : σ} {failure : Failure}
    (outcome : action s = .error failure s') : action.finalState s = s' := by
  simp only [finalState, outcome]

/-- After a success the rest goes on from where it ended. -/
theorem bind_of_ok {first : Action σ α} {rest : α → Action σ β} {s s' : σ} {a : α}
    (outcome : first s = .ok a s') : (first >>= rest) s = rest a s' := by
  simp only [bind, EStateM.bind, outcome]

/-- After a failure there is no rest. -/
theorem bind_of_error {first : Action σ α} {rest : α → Action σ β} {s s' : σ} {failure : Failure}
    (outcome : first s = .error failure s') : (first >>= rest) s = .error failure s' := by
  simp only [bind, EStateM.bind, outcome]

/-- After a success the final state is that of the rest. -/
theorem finalState_bind_of_ok {first : Action σ α} {rest : α → Action σ β} {s s' : σ} {a : α}
    (outcome : first s = .ok a s') : (first >>= rest).finalState s = (rest a).finalState s' := by
  simp only [finalState, bind_of_ok outcome]

/-- The handler of faults is not asked after a success. -/
theorem onFault_of_ok {action : Action σ α} {handler : Fault → Action σ α} {s s' : σ} {a : α}
    (outcome : action s = .ok a s') : action.onFault handler s = .ok a s' := by
  simp only [onFault, outcome]

/-- A fault is handled from the state that it leaves. -/
theorem onFault_of_fault {action : Action σ α} {handler : Fault → Action σ α} {s s' : σ}
    {fault : Fault} (outcome : action s = .error (.fault fault) s') :
    action.onFault handler s = handler fault s' := by
  simp only [onFault, outcome]

/-- A breach gets past the handler of faults. -/
theorem onFault_of_breach {action : Action σ α} {handler : Fault → Action σ α} {s s' : σ}
    {breach : Breach} (outcome : action s = .error (.breach breach) s') :
    action.onFault handler s = .error (.breach breach) s' := by
  simp only [onFault, outcome]

/-- A handled action fails in a breach of its own or in its handler. -/
theorem onFault_eq_error {action : Action σ α} {handler : Fault → Action σ α} {s s'' : σ}
    {failure : Failure} (outcome : action.onFault handler s = .error failure s'') :
    (∃ breach, failure = .breach breach ∧ action s = .error failure s'') ∨
      ∃ fault s', action s = .error (.fault fault) s' ∧ handler fault s' = .error failure s'' := by
  cases begun : action s with
  | ok a s' =>
      rw [onFault_of_ok begun] at outcome
      cases outcome
  | error reason s' =>
      cases reason with
      | fault fault =>
          rw [onFault_of_fault begun] at outcome
          exact .inr ⟨fault, s', rfl, outcome⟩
      | breach breach =>
          rw [onFault_of_breach begun] at outcome
          cases outcome
          exact .inl ⟨breach, rfl, rfl⟩

/-- A question changes nothing. -/
theorem lift_eq_ok {result : Result α} {s s' : σ} {a : α}
    (outcome : (result : Action σ α) s = .ok a s') : result = .ok a ∧ s' = s := by
  cases result with
  | ok b =>
      cases outcome
      exact ⟨rfl, rfl⟩
  | error failure => cases outcome

theorem get_eq (s : σ) : (get : Action σ σ) s = .ok s s :=
  rfl

theorem modify_eq (change : σ → σ) (s : σ) :
    (modify change : Action σ PUnit) s = .ok () (change s) :=
  rfl

/-- What follows is given the state. -/
theorem get_bind (rest : σ → Action σ β) (s : σ) : ((get : Action σ σ) >>= rest) s = rest s s :=
  rfl

/-- What follows goes on from the changed state. -/
theorem modify_bind (change : σ → σ) (rest : PUnit → Action σ β) (s : σ) :
    ((modify change : Action σ PUnit) >>= rest) s = rest () (change s) :=
  rfl

/-- What follows is given the answer of a question. -/
theorem lift_bind (a : α) (rest : α → Action σ β) (s : σ) :
    ((liftM (.ok a : Result α) : Action σ α) >>= rest) s = rest a s :=
  rfl

/-- An action that succeeded in two steps. -/
theorem bind_eq_ok {first : Action σ α} {rest : α → Action σ β} {s s'' : σ} {b : β}
    (outcome : (first >>= rest) s = .ok b s'') :
    ∃ a s', first s = .ok a s' ∧ rest a s' = .ok b s'' := by
  cases begun : first s with
  | ok a s' =>
      rw [bind_of_ok begun] at outcome
      exact ⟨a, s', rfl, outcome⟩
  | error failure s' =>
      rw [bind_of_error begun] at outcome
      cases outcome

/-- An action after another that is taken only on a condition. -/
theorem check_eq_ok {condition : Prop} [Decidable condition] {first : Action σ PUnit}
    {rest : PUnit → Action σ β} {s s'' : σ} {b : β}
    (outcome : (if condition then first >>= rest else rest ()) s = .ok b s'') :
    ∃ s', (s' = s ∨ first s = .ok () s') ∧ rest () s' = .ok b s'' := by
  split at outcome
  · obtain ⟨u, s', begun, outcome⟩ := bind_eq_ok outcome
    exact ⟨s', .inr begun, outcome⟩
  · exact ⟨s, .inl rfl, outcome⟩

/-- An action that failed in one of two steps. -/
theorem bind_eq_error {first : Action σ α} {rest : α → Action σ β} {s s'' : σ} {failure : Failure}
    (outcome : (first >>= rest) s = .error failure s'') :
    first s = .error failure s'' ∨ ∃ a s', first s = .ok a s' ∧ rest a s' = .error failure s'' := by
  cases begun : first s with
  | ok a s' =>
      rw [bind_of_ok begun] at outcome
      exact .inr ⟨a, s', rfl, outcome⟩
  | error reason s' =>
      rw [bind_of_error begun] at outcome
      cases outcome
      exact .inl rfl

namespace EndsIn

/-- A success ends where it leaves the state. -/
theorem of_ok {action : Action σ α} {s s' : σ} {a : α} (outcome : action s = .ok a s')
    (holds : I s') (answer : Q a) : EndsIn I Q action s := by
  unfold EndsIn
  rw [outcome]
  exact ⟨holds, answer⟩

/-- A failure ends where it leaves the state, and answers nothing. -/
theorem of_error {action : Action σ α} {s s' : σ} {failure : Failure}
    (outcome : action s = .error failure s') (holds : I s') : EndsIn I Q action s := by
  unfold EndsIn
  rw [outcome]
  exact holds

/-- However the action ends, the final state has the property. -/
theorem finalState {action : Action σ α} {s : σ} (reached : EndsIn I Q action s) :
    I (action.finalState s) := by
  unfold EndsIn at reached
  unfold Action.finalState
  cases outcome : action s with
  | ok a s =>
      rw [outcome] at reached
      exact reached.1
  | error e s =>
      rw [outcome] at reached
      exact reached

/-- Actions with the same outcome end alike. -/
theorem of_eq {action other : Action σ α} {s t : σ} (same : action s = other t)
    (reached : EndsIn I Q other t) : EndsIn I Q action s := by
  unfold EndsIn at reached ⊢
  rw [same]
  exact reached

/-- The properties of the state and of the answer may be weakened together. -/
theorem mono {J : σ → Prop} {Q' : α → Prop} {action : Action σ α} {s : σ}
    (reached : EndsIn I Q action s) (weaker : ∀ s, I s → J s) (answers : ∀ a, Q a → Q' a) :
    EndsIn J Q' action s := by
  unfold EndsIn at reached ⊢
  cases outcome : action s with
  | ok a s =>
      rw [outcome] at reached
      exact ⟨weaker s reached.1, answers a reached.2⟩
  | error e s =>
      rw [outcome] at reached
      exact weaker s reached

/-- The property of the state may be weakened, and that of the answer dropped. -/
theorem weaken {J : σ → Prop} {action : Action σ α} {s : σ} (reached : EndsIn I Q action s)
    (weaker : ∀ s, I s → J s) : EndsIn J (fun _ => True) action s :=
  reached.mono weaker fun _ _ => trivial

/-- Two invariants in one. -/
theorem and {J : σ → Prop} {action : Action σ α} {s : σ} (left : EndsIn I Q action s)
    (right : EndsIn J (fun _ => True) action s) : EndsIn (fun s => I s ∧ J s) Q action s := by
  unfold EndsIn at left right ⊢
  cases outcome : action s with
  | ok a s =>
      rw [outcome] at left right
      exact ⟨⟨left.1, right.1⟩, left.2⟩
  | error e s =>
      rw [outcome] at left right
      exact ⟨left, right⟩

/-- The rest, after a first action with a known outcome. -/
theorem after {first : Action σ α} {rest : α → Action σ β} {s s' : σ} {a : α}
    (outcome : first s = .ok a s') (tail : EndsIn I R (rest a) s') :
    EndsIn I R (first >>= rest) s := by
  unfold EndsIn at tail ⊢
  simpa only [Bind.bind, EStateM.bind, outcome] using tail

/-- A first action that failed is the end. -/
theorem afterError {first : Action σ α} {rest : α → Action σ β} {s s' : σ} {failure : Failure}
    (outcome : first s = .error failure s') (holds : I s') :
    EndsIn I R (first >>= rest) s := by
  simp only [EndsIn, Bind.bind, EStateM.bind, outcome]
  exact holds

/-- One action after the other, where the second needs less. -/
theorem bind {J : σ → Prop} {first : Action σ α} {rest : α → Action σ β} {s : σ}
    (head : EndsIn I Q first s) (weaker : ∀ s, I s → J s)
    (tail : ∀ a s, I s → Q a → EndsIn J R (rest a) s) : EndsIn J R (first >>= rest) s := by
  unfold EndsIn at head
  cases outcome : first s with
  | ok a s =>
      rw [outcome] at head
      exact .after outcome (tail a s head.1 head.2)
  | error e s =>
      rw [outcome] at head
      exact .afterError outcome (weaker s head)

/-- To go on with the state is to go on from it. -/
theorem get {rest : σ → Action σ β} {s : σ} (tail : EndsIn I R (rest s) s) :
    EndsIn I R (get >>= rest) s :=
  .after rfl tail

/-- To change the state and go on is to go on from the changed state. -/
theorem modify {change : σ → σ} {rest : PUnit → Action σ β} {s : σ}
    (tail : EndsIn I R (rest ()) (change s)) : EndsIn I R (modify change >>= rest) s :=
  .after rfl tail

/-- A question in front of the rest, which is needed only for its answer. -/
theorem lift (result : Result α) {rest : α → Action σ β} {s : σ} (holds : I s)
    (tail : ∀ a, result = .ok a → EndsIn I R (rest a) s) :
    EndsIn I R ((liftM result : Action σ α) >>= rest) s := by
  cases outcome : result with
  | ok a => exact .after rfl (tail a outcome)
  | error e => exact .afterError rfl holds

/-- A handler of faults goes on where the action failed. -/
theorem onFault {action : Action σ α} {handler : Fault → Action σ α} {s : σ}
    (reached : EndsIn I Q action s) (handled : ∀ fault, Ensures I Q (handler fault)) :
    EndsIn I Q (action.onFault handler) s := by
  unfold EndsIn at reached
  cases outcome : action s with
  | ok a after =>
      rw [outcome] at reached
      exact .of_ok (onFault_of_ok outcome) reached.1 reached.2
  | error failure after =>
      rw [outcome] at reached
      cases failure with
      | fault fault => exact .of_eq (onFault_of_fault outcome) (handled fault after reached)
      | breach breach => exact .of_error (onFault_of_breach outcome) reached

end EndsIn

namespace Ensures

/-- An invariant that an action keeps holds of its final state. -/
theorem finalState {action : Action σ α} (ensures : Ensures I Q action) {s : σ} (holds : I s) :
    I (action.finalState s) :=
  (ensures s holds).finalState

/-- After a success the invariant holds, and the answer has its property. -/
theorem of_ok {action : Action σ α} (ensures : Ensures I Q action) {s s' : σ} {a : α}
    (holds : I s) (outcome : action s = .ok a s') : I s' ∧ Q a := by
  have reached := ensures s holds
  unfold EndsIn at reached
  rw [outcome] at reached
  exact reached

/-- The property of the answer may be weakened. -/
theorem weaken {Q' : α → Prop} {action : Action σ α} (ensures : Ensures I Q action)
    (weaker : ∀ a, Q a → Q' a) : Ensures I Q' action :=
  fun s holds => (ensures s holds).mono (fun _ held => held) weaker

/-- An answer alone keeps every invariant. -/
theorem pure {a : α} (answer : Q a) : Ensures I Q (pure a : Action σ α) :=
  fun _ holds => .of_ok rfl holds answer

/-- To raise a fault keeps every invariant. -/
theorem fault (cause : Cause) : Ensures I Q (Action.fault cause : Action σ α) :=
  fun _ holds => .of_error rfl holds

/-- To end in a breach keeps every invariant. -/
theorem refuse (breach : Breach) : Ensures I Q (Action.refuse breach : Action σ α) :=
  fun _ holds => .of_error rfl holds

/-- A question leaves the state alone. -/
theorem lift {result : Result α} (answers : ∀ a, result = .ok a → Q a) :
    Ensures I Q (liftM result : Action σ α) := by
  intro s holds
  cases result with
  | ok a => exact .of_ok rfl holds (answers a rfl)
  | error e => exact .of_error rfl holds

/-- A change of the state keeps an invariant that survives it. -/
theorem modify {change : σ → σ} (kept : ∀ s, I s → I (change s)) :
    Keeps I (modify change : Action σ PUnit) :=
  fun s holds => .of_ok rfl (kept s holds) trivial

/-- Actions that keep an invariant keep it one after the other. -/
theorem bind {first : Action σ α} {rest : α → Action σ β} (head : Ensures I Q first)
    (tail : ∀ a, Q a → Ensures I R (rest a)) : Ensures I R (first >>= rest) := by
  intro s holds
  have reached := head s holds
  unfold EndsIn at reached
  cases outcome : first s with
  | ok a s =>
      rw [outcome] at reached
      exact .after outcome (tail a reached.2 s reached.1)
  | error e s =>
      rw [outcome] at reached
      exact .afterError outcome reached

/-- One action after the other, when the answer of the first does not matter. -/
theorem seq {first : Action σ α} {rest : α → Action σ β} (head : Keeps I first)
    (tail : ∀ a, Ensures I R (rest a)) : Ensures I R (first >>= rest) :=
  head.bind fun a _ => tail a

/-- A look at the state, of which the invariant is known. -/
theorem get {rest : σ → Action σ β} (tail : ∀ s, I s → Ensures I R (rest s)) :
    Ensures I R (get >>= rest) :=
  fun s holds => .get (tail s holds s holds)

/-- A check in front of the rest. -/
theorem check {condition : Prop} [Decidable condition] {refusal : Action σ PUnit}
    {rest : PUnit → Action σ β} (refused : Keeps I refusal) (tail : ∀ u, Ensures I R (rest u)) :
    Ensures I R (if condition then refusal >>= rest else rest ()) := by
  split
  · exact refused.seq tail
  · exact tail ()

/-- A check that ends in a fault, so that the rest knows that the condition does not hold. -/
theorem excluded {condition : Prop} [Decidable condition] {cause : Cause}
    {rest : PUnit → Action σ β} (tail : ¬ condition → Ensures I R (rest ())) :
    Ensures I R (if condition then Action.fault cause >>= rest else rest ()) := by
  split
  · exact fun s holds => .afterError rfl holds
  · rename_i fails
    exact tail fails

/-- A handler is needed only for the faults of an action that the invariant survives. -/
theorem onFault {action : Action σ α} {handler : Fault → Action σ α} (ensures : Ensures I Q action)
    (handled : ∀ fault, Ensures I Q (handler fault)) : Ensures I Q (action.onFault handler) :=
  fun s holds => (ensures s holds).onFault handled

/-- An action on a part of the state, for what the invariant says of that part. -/
theorem focus [Inhabited τ] {part : σ → τ} {withPart : τ → σ → σ} {action : Action τ α}
    (put_put : ∀ t t' s, withPart t (withPart t' s) = withPart t s)
    (put_part : ∀ s, withPart (part s) s = s)
    (within : ∀ s, I s → Ensures (fun t => I (withPart t s)) Q action) :
    Ensures I Q (action.focus part withPart) := by
  intro s holds
  have start : I (withPart (part s) s) := by rwa [put_part]
  have reached := within s holds (part s) start
  unfold EndsIn at reached
  cases outcome : action (part s) with
  | ok a t =>
      rw [outcome] at reached
      simpa only [EndsIn, Action.focus, outcome, put_put] using reached
  | error e t =>
      rw [outcome] at reached
      simpa only [EndsIn, Action.focus, outcome, put_put] using reached

end Ensures

end Action

end StoryMachine
