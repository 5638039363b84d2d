import StoryMachine.Fault

/-!
# Recovery policies

What happens to a fault: a fault from which the machine cannot recover halts it,
and so does every fault under the policy `abort`. Otherwise the machine goes on,
and the policy decides only whether the fault is reported.
-/

namespace StoryMachine

/-- How recoverable faults are treated. -/
inductive Policy where
  | ignore
  | continueWarnOnce
  | continueWarnAlways
  | abort
deriving DecidableEq, Repr

namespace Policy

/-- The written name of a policy. -/
def label : Policy → String
  | ignore => "ignore"
  | continueWarnOnce => "continue_warn_once"
  | continueWarnAlways => "continue_warn_always"
  | abort => "abort"

/-- The policy with the given written name. -/
def ofLabel? (name : String) : Option Policy :=
  [ignore, continueWarnOnce, continueWarnAlways, abort].find? (·.label == name)

instance : Inhabited Policy := ⟨continueWarnOnce⟩

end Policy

/-- What the machine does after a fault. -/
inductive Recovery where
  | proceed
  | halt
deriving DecidableEq, Repr

/-- Who hears of a fault. -/
inductive Notice where
  /-- Nobody. -/
  | silent
  /-- The log and the host, as a warning. -/
  | warning
  /-- The log, as an error. -/
  | failure
deriving DecidableEq, Repr

/-- A policy with the faults that it has seen. -/
structure Classifier where
  policy : Policy
  reported : List (FaultKind × String) := []
  faultCount : Nat := 0
deriving DecidableEq, Repr, Inhabited

namespace Classifier

/-- Forgets the faults seen so far. -/
def reset (classifier : Classifier) : Classifier :=
  { policy := classifier.policy }

/-- Counts a fault of the named opcode and decides what follows from it. A policy that warns once
warns once for each kind of fault and opcode. -/
def classify (classifier : Classifier) (fault : Fault) (opcode : String) :
    Recovery × Notice × Classifier :=
  let counted := { classifier with faultCount := classifier.faultCount + 1 }
  if !fault.recoverable then (.halt, .failure, counted)
  else
    match classifier.policy with
    | .abort => (.halt, .failure, counted)
    | .ignore => (.proceed, .silent, counted)
    | .continueWarnAlways => (.proceed, .warning, counted)
    | .continueWarnOnce =>
        if classifier.reported.contains (fault.kind, opcode) then (.proceed, .silent, counted)
        else
          (.proceed, .warning,
            { counted with reported := (fault.kind, opcode) :: counted.reported })

end Classifier

end StoryMachine
