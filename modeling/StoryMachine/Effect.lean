import StoryMachine.Fault

/-!
# Actions that can fail

A question about a value either has an answer or fails. An action on a state
also keeps, when it fails, what it had already done to the state: a story can see
the half of a table that was written before a fault.
-/

namespace StoryMachine

/-- An answer, or the reason why there is none. -/
abbrev Result := Except Failure

/-- An action on a state; a failed action keeps the state that it reached. -/
abbrev Action (σ α : Type) := EStateM Failure σ α

namespace Result

/-- The failure of a broken rule. -/
def fault {α : Type} (cause : Cause) : Result α :=
  .error (.ofCause cause)

/-- The failure of a refused request. -/
def refuse {α : Type} (breach : Breach) : Result α :=
  .error (.breach breach)

end Result

namespace Action

variable {σ τ α : Type}

/-- Answers a question without touching the state. -/
def ofResult : Result α → Action σ α
  | .ok a => fun s => .ok a s
  | .error e => fun s => .error e s

instance : MonadLift Result (EStateM Failure σ) where
  monadLift := ofResult

/-- The failing action of a broken rule. -/
def fault (cause : Cause) : Action σ α :=
  fun s => .error (.ofCause cause) s

/-- The failing action of a refused request. -/
def refuse (breach : Breach) : Action σ α :=
  fun s => .error (.breach breach) s

/-- The state that an action leaves behind, whether or not it failed. -/
def finalState (action : Action σ α) (s : σ) : σ :=
  match action s with
  | .ok _ s => s
  | .error _ s => s

/-- The answer of an action, without the state. -/
def answer (action : Action σ α) (s : σ) : Result α :=
  match action s with
  | .ok a _ => .ok a
  | .error e _ => .error e

/-- Runs an action, and a handler in place of the rest when a rule was broken. Breaches pass. -/
def onFault (action : Action σ α) (handler : Fault → Action σ α) : Action σ α :=
  fun s =>
    match action s with
    | .ok a s => .ok a s
    | .error (.fault fault) s => handler fault s
    | .error (.breach breach) s => .error (.breach breach) s

/-- An action on a part of the state. The part is taken out while the action runs. -/
def focus [Inhabited τ] (part : σ → τ) (withPart : τ → σ → σ) (action : Action τ α) : Action σ α :=
  fun s =>
    let inner := part s
    let s := withPart default s
    match action inner with
    | .ok a inner => .ok a (withPart inner s)
    | .error e inner => .error e (withPart inner s)

end Action

end StoryMachine
