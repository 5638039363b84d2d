import Mathlib.Data.Int.ModEq
import Mathlib.Data.Rat.Floor
import StoryMachine.Proofs.Mishaps
import StoryMachine.Proofs.WordOperands

/-!
# Arithmetic on words

Operands are words, read with or without a sign, and results are folded into words where they are
stored. Sums, differences and products are exact up to that folding, a quotient and its remainder
fit together, a shift multiplies by a power of two and rounds down, and a variable is counted up or
down in its place.
-/

namespace StoryMachine

open StoryMachine.Action (Keeps)

/-! ## Words -/

namespace Word

/-- A number is made a word modulo 65536. -/
theorem natCast_ofInt (value : Int) : (ofInt value : Int) = value % 65536 := by
  unfold ofInt
  omega

private theorem ofInt_emod (value : Int) : ofInt (value % 65536) = ofInt value := by
  unfold ofInt
  rw [Int.emod_emod_of_dvd _ (Int.dvd_refl _)]

private theorem signed_emod (value : Int) : signed (value % 65536) = signed value := by
  unfold signed
  rw [ofInt_emod]

/-- A signed reading differs from its number by whole words. -/
theorem emod_signed (value : Int) : signed value % 65536 = value % 65536 := by
  rw [← natCast_ofInt, ofInt_signed, natCast_ofInt]

private theorem signed_of_bounds {value : Int} (least : -32768 ≤ value) (most : value ≤ 32767) :
    signed value = value := by
  unfold signed
  have folded := natCast_ofInt value
  split <;> omega

private theorem signed_signed_add (value change : Int) :
    signed (signed value + change) = signed (value + change) := by
  rw [← signed_emod, Int.add_emod, emod_signed, ← Int.add_emod, signed_emod]

private theorem signed_eq_zero {value : Int} (word : IsWord value) : signed value = 0 ↔ value = 0 := by
  unfold IsWord at word
  have folded := natCast_ofInt value
  unfold signed
  split <;> omega

end Word

/-! ## Quotients and powers of two -/

/-- The only quotient of two signed words that is none itself is that of the least by minus one. -/
theorem tdiv_bounds {a b : Int} (least : -32768 ≤ a) (most : a ≤ 32767)
    (plain : ¬ (a = -32768 ∧ b = -1)) : -32768 ≤ a.tdiv b ∧ a.tdiv b ≤ 32767 := by
  have size : (a.tdiv b).natAbs = a.natAbs / b.natAbs := Int.natAbs_tdiv a b
  obtain zero | one | more : b.natAbs = 0 ∨ b.natAbs = 1 ∨ 2 ≤ b.natAbs := by omega
  · rw [zero, Nat.div_zero] at size
    omega
  · obtain rfl | rfl := Int.natAbs_eq_iff.mp one
    · rw [Nat.cast_one, Int.tdiv_one]
      omega
    · rw [Nat.cast_one, Int.tdiv_neg, Int.tdiv_one]
      omega
  · have small : a.natAbs / b.natAbs ≤ a.natAbs / 2 := Nat.div_le_div_left more (by decide)
    omega

private theorem tmod_bounds (a b : Int) (divisor : b ≠ 0) :
    |a.tmod b| < |b| ∧ (a.tmod b = 0 ∨ (a.tmod b).sign = a.sign) := by
  have size := Int.natAbs_tmod a b
  have less : a.natAbs % b.natAbs < b.natAbs := Nat.mod_lt _ (Int.natAbs_pos.mpr divisor)
  refine ⟨by rw [Int.abs_eq_natAbs, Int.abs_eq_natAbs]; omega, ?_⟩
  obtain negative | rfl | positive := lt_trichotomy a 0
  · have mirrored := Int.tmod_nonneg b (show 0 ≤ -a by omega)
    rw [Int.neg_tmod] at mirrored
    obtain zero | below : a.tmod b = 0 ∨ a.tmod b < 0 := by omega
    · exact .inl zero
    · exact .inr (by rw [Int.sign_eq_neg_one_of_neg below, Int.sign_eq_neg_one_of_neg negative])
  · exact .inl (Int.zero_tmod b)
  · have signed := Int.tmod_nonneg b positive.le
    obtain zero | above : a.tmod b = 0 ∨ 0 < a.tmod b := by omega
    · exact .inl zero
    · exact .inr (by rw [Int.sign_eq_one_of_pos above, Int.sign_eq_one_of_pos positive])

private theorem floor_mul_two_pow (number : Int) {places : Int} (left : 0 ≤ places) :
    ⌊(number : ℚ) * 2 ^ places⌋ = number * 2 ^ places.toNat := by
  obtain ⟨count, rfl⟩ := Int.eq_ofNat_of_zero_le left
  rw [Int.toNat_natCast, zpow_natCast]
  exact_mod_cast Int.floor_intCast (number * 2 ^ count : Int)

private theorem floor_div_two_pow (number : Int) {places : Int} (right : places < 0) :
    ⌊(number : ℚ) * 2 ^ places⌋ = number.fdiv (2 ^ places.natAbs : Nat) := by
  obtain ⟨count, rfl⟩ : ∃ count : Nat, places = -count := ⟨places.natAbs, by omega⟩
  rw [zpow_neg, zpow_natCast, ← div_eq_mul_inv, Int.natAbs_neg, Int.natAbs_natCast]
  have floor := Rat.floor_intCast_div_natCast number (2 ^ count)
  rw [Int.fdiv_eq_ediv_of_nonneg _ (Int.natCast_nonneg _), ← floor]
  norm_cast

/-! ## Changing a variable in its place -/

namespace Workspace

variable {workspace : Workspace} {number : Int}

/-- A variable takes the word of a number. -/
theorem assigned_congr {value other : Int} (same : Word.ofInt value = Word.ofInt other) :
    workspace.assigned number value = workspace.assigned number other := by
  unfold assigned Frame.push GameMemory.withWord
  rw [same]

/-- A variable that can be changed in its place: the top of the stack can if there is one. -/
def Changeable (workspace : Workspace) (number : Int) : Prop :=
  (number = 0 → workspace.calls.current.stack ≠ []) ∧
    (number ≠ 0 → workspace.Assignable number)

instance (workspace : Workspace) (number : Int) : Decidable (workspace.Changeable number) :=
  inferInstanceAs (Decidable ((_ → _) ∧ (_ → _)))

/-- The workspace with another value in a variable; at the top of the stack it replaces the old
one. -/
def changed (workspace : Workspace) (number value : Int) : Workspace :=
  if number = 0 then
    { workspace with
      calls.current.stack := (Word.ofInt value : Int) :: workspace.calls.current.stack.tail }
  else workspace.assigned number value

private theorem changed_congr {value other : Int} (same : Word.ofInt value = Word.ofInt other) :
    workspace.changed number value = workspace.changed number other := by
  unfold changed
  rw [same, assigned_congr same]

private theorem setVariable_indirect (other : number ≠ 0) (value : Int) (indirect : Bool) :
    setVariable number value indirect workspace = setVariable number value false workspace := by
  unfold setVariable
  rw [if_neg other, if_neg other]

private theorem keeps_getVariable_indirect (K : Workspace → Prop) (number : Int) :
    Keeps K (getVariable number true) := by
  unfold getVariable
  refine .seq (.lift fun _ _ => trivial) fun _ => ?_
  split
  · exact .get fun _ _ => .lift fun _ _ => trivial
  split
  · exact .get fun _ _ => .lift fun _ _ => trivial
  · exact keeps_getGlobal _

/-- Writing the stack through a reference replaces its top, and needs one. -/
theorem setVariable_top (value : Int) :
    setVariable 0 value true workspace =
      match workspace.calls.current.stack with
      | [] => .error (.ofCause .replaceEmpty) workspace
      | _ :: _ => .ok () (workspace.changed 0 value) := by
  have run : setVariable 0 value true workspace =
      ((liftM (workspace.calls.current.setTop value) : Action Workspace Frame) >>= setCurrent)
        workspace := rfl
  rw [run]
  unfold Frame.setTop changed
  cases stack : workspace.calls.current.stack with
  | nil => rfl
  | cons old rest => rfl

/-- Reading the stack through a reference looks at its top, and needs one. -/
theorem getVariable_top :
    getVariable 0 true workspace =
      match workspace.calls.current.stack with
      | [] => .error (.ofCause .peekEmpty) workspace
      | value :: _ => .ok value workspace := by
  have run : getVariable 0 true workspace =
      (liftM workspace.calls.current.top : Action Workspace Int) workspace := rfl
  rw [run]
  unfold Frame.top
  cases stack : workspace.calls.current.stack with
  | nil => rfl
  | cons value rest => rfl

private theorem setVariable_changed (inside : workspace.memory.Whole)
    (changeable : workspace.Changeable number) (value : Int) :
    setVariable number value true workspace = .ok () (workspace.changed number value) := by
  by_cases top : number = 0
  · subst top
    obtain ⟨old, rest, stack⟩ := List.exists_cons_of_ne_nil (changeable.1 rfl)
    rw [setVariable_top, stack]
  · rw [setVariable_indirect top, changed, if_neg top]
    exact setVariable_of_assignable inside (changeable.2 top) value

/-- What a change put into a variable is read back, and the stack is as high as before. -/
theorem getVariable_changed (inside : workspace.memory.Whole)
    (changeable : workspace.Changeable number) (value : Int) :
    getVariable number true (workspace.changed number value) =
        .ok (value % 65536) (workspace.changed number value) ∧
      (workspace.changed number value).calls.current.stack.length =
        workspace.calls.current.stack.length := by
  rw [← Word.natCast_ofInt]
  by_cases top : number = 0
  · subst top
    obtain ⟨old, rest, stack⟩ := List.exists_cons_of_ne_nil (changeable.1 rfl)
    refine ⟨getVariable_top, ?_⟩
    unfold changed
    rw [if_pos rfl, stack]
    rfl
  · unfold changed
    rw [if_neg top]
    refine ⟨getVariable_assigned inside (changeable.2 top) value, ?_⟩
    unfold assigned
    rw [if_neg top]
    split <;> rfl

/-- Reading a variable in its place changes nothing. -/
theorem getVariable_indirect (workspace : Workspace) (number : Int) :
    (∃ value, getVariable number true workspace = .ok value workspace) ∨
      ∃ fault, getVariable number true workspace = .error (.fault fault) workspace := by
  have kept := keeps_getVariable_indirect (· = workspace) number workspace rfl
  unfold Action.EndsIn at kept
  cases outcome : getVariable number true workspace with
  | ok value after =>
      rw [outcome] at kept
      obtain ⟨rfl, -⟩ := kept
      exact .inl ⟨value, rfl⟩
  | error failure after =>
      rw [outcome] at kept
      obtain ⟨fault, rfl⟩ : failure.IsFault := failsWith_getVariable number true _ _ _ outcome
      obtain rfl := kept
      exact .inr ⟨fault, rfl⟩

/-- A global is the word that stands in its place. -/
theorem getGlobal_of_word {index : Int} {word : Nat}
    (read : workspace.memory.word (workspace.globalAddress index) = .ok word) :
    getGlobal index workspace = .ok word workspace := by
  unfold getGlobal
  rw [Action.get_bind, read]
  rfl

/-- A variable that can be changed has a value. -/
theorem exists_getVariable (inside : workspace.memory.Whole)
    (changeable : workspace.Changeable number) :
    ∃ value, getVariable number true workspace = .ok value workspace := by
  by_cases top : number = 0
  · subst top
    obtain ⟨value, rest, stack⟩ := List.exists_cons_of_ne_nil (changeable.1 rfl)
    exact ⟨value, by rw [getVariable_top, stack]⟩
  have assignable := changeable.2 top
  have checked : checkVariable number = .ok () := by
    unfold Assignable firstGlobal at assignable
    exact if_neg (by omega)
  obtain rfl | ⟨least, small, present⟩ | ⟨large, most, place, stop⟩ := assignable
  · exact absurd rfl top
  · have index : (number - 1).toNat < workspace.calls.current.locals.length := by omega
    have read : workspace.calls.current.getLocal number =
        .ok workspace.calls.current.locals[(number - 1).toNat] := by
      unfold Frame.getLocal
      rw [if_pos least, List.getElem?_eq_getElem index]
    refine ⟨workspace.calls.current.locals[(number - 1).toNat], ?_⟩
    unfold getVariable
    rw [checked, if_neg top, if_pos small]
    exact congrFun (congrArg Action.ofResult read) workspace
  · unfold GameMemory.Whole at inside
    have first := Image.byte_of_holds
      (show workspace.memory.Holds (workspace.globalAddress (number - firstGlobal)) by
        unfold Image.Holds
        omega)
    have second := Image.byte_of_holds
      (show workspace.memory.Holds (workspace.globalAddress (number - firstGlobal) + 1) by
        unfold Image.Holds
        omega)
    have read := getGlobal_of_word (Image.word_of_bytes first second)
    refine ⟨_, Eq.trans ?_ read⟩
    unfold getVariable
    rw [checked, if_neg top, if_neg (by omega)]
    rfl

/-- A variable that cannot be changed has no value, or cannot take another. -/
theorem change_refused (inside : workspace.memory.Whole)
    (refused : ¬ workspace.Changeable number) :
    (∃ fault, getVariable number true workspace = .error (.fault fault) workspace) ∨
      ∃ value, getVariable number true workspace = .ok value workspace ∧
        ∀ next, ∃ fault, setVariable number next true workspace = .error
          (.fault fault) workspace := by
  obtain ⟨value, read⟩ | broken := getVariable_indirect workspace number
  · refine .inr ⟨value, read, fun next => ?_⟩
    by_cases top : number = 0
    · subst top
      have empty : workspace.calls.current.stack = [] := by
        by_contra stack
        exact refused ⟨fun _ => stack, absurd rfl⟩
      rw [setVariable_top, empty]
      exact ⟨_, rfl⟩
    · rw [setVariable_indirect top]
      refine setVariable_of_not_assignable inside (fun assignable => ?_) next
      exact refused ⟨fun zero => absurd zero top, fun _ => assignable⟩
  · exact .inl broken

end Workspace

/-! ## Instructions -/

/-- The number that an operation makes of two numbers, if it does. -/
def Operation.result? (operation : Operation) (a b : Int) : Option Int :=
  match operation with
  | .add => some (a + b)
  | .subtract => some (a - b)
  | .multiply => some (a * b)
  | .divide => if b = 0 then none else some (a.tdiv b)
  | .remainder => if b = 0 then none else some (a.tmod b)
  | .logicalShift | .arithmeticShift =>
      if b < -15 ∨ 15 < b then none
      else if 0 ≤ b then some (a * Nat.pow 2 b.toNat % 65536)
      else some (a.fdiv (Nat.pow 2 b.natAbs))
  | _ => none

namespace Machine

variable {machine read : Machine} {instruction : Instruction} {operation : Operation}
  {words : List Int}

private theorem shift_of_result? {a b value beyond : Int}
    (result : Operation.logicalShift.result? a b = some value) :
    shift instruction a b beyond machine = .ok (.store value) machine := by
  unfold Operation.result? at result
  unfold shift
  dsimp only at result
  split_ifs at result with far left
  · cases result
    rw [if_neg far, if_pos left]
    rfl
  · cases result
    rw [if_neg far, if_neg left]
    rfl

private theorem perform_of_result? {a b value : Int}
    (result : instruction.opcode.operation.result? a b = some value) :
    perform instruction [a, b] machine = .ok (.store value) machine := by
  unfold perform
  rw [Action.get_bind]
  cases operates : instruction.opcode.operation with
  | add | subtract | multiply =>
      rw [operates] at result
      cases result
      rfl
  | divide | remainder =>
      rw [operates] at result
      unfold Operation.result? at result
      dsimp only at result
      split_ifs at result with zero
      cases result
      rw [if_neg (show ¬ [a, b].getD 1 0 = 0 from zero)]
      rfl
  | logicalShift | arithmeticShift =>
      rw [operates] at result
      exact shift_of_result? result
  | _ =>
      rw [operates] at result
      cases result

/-- The result of an operation on words, whatever instruction performs it: it is in the variable
that the instruction names, and nothing else has changed; or there is no such variable, and nothing
has. -/
def Stores (operation : Operation) (words : List Int) (result : Int) : Prop :=
  ∀ (instruction : Instruction) (machine read : Machine) (target : Int),
    Performs operation words instruction machine read → instruction.storeTo = some target →
      (read.work.Assignable target →
        executeInstruction instruction machine = .ok () { read with
          work := read.work.assigned target result, pc := instruction.nextAddress } ∧
        Workspace.getVariable target true (read.work.assigned target result) =
          .ok result (read.work.assigned target result)) ∧
      (¬ read.work.Assignable target →
        ∃ fault, executeInstruction instruction machine = .error (.fault fault) read)

/-- An operation on words is a fault, which changes nothing. -/
def Breaks (operation : Operation) (words : List Int) (kind : FaultKind) : Prop :=
  ∀ (instruction : Instruction) (machine read : Machine),
    Performs operation words instruction machine read →
      ∃ fault : Fault, executeInstruction instruction machine = .error (.fault fault) read ∧
        fault.kind = kind

/-- An operation adds to the variable that its first operand names, in its place, and goes on by the
signed reading of the new value; or the variable cannot be changed, and nothing is. -/
def Counts (operation : Operation) (change : Int) (words : List Int)
    (goOn : Instruction → Int → Play Unit) : Prop :=
  ∀ (instruction : Instruction) (machine read : Machine) (number : Int),
    Performs operation (number :: words) instruction machine read →
      (read.work.Changeable number → ∃ value,
        Workspace.getVariable number true read.work = .ok value read.work ∧
        executeInstruction instruction machine = goOn instruction (Word.signed (value + change))
          { read with work := read.work.changed number (value + change) } ∧
        Workspace.getVariable number true (read.work.changed number (value + change)) =
          .ok ((value + change) % 65536) (read.work.changed number (value + change)) ∧
        (read.work.changed number (value + change)).calls.current.stack.length =
          read.work.calls.current.stack.length) ∧
      (¬ read.work.Changeable number →
        ∃ fault, executeInstruction instruction machine = .error (.fault fault) read)

private theorem stores_of_result? {a b value : Int} (first second : Sense)
    (known : operation.senses? = some [first, second])
    (result : operation.result? (first.apply a) (second.apply b) = some value) :
    Stores operation [a, b] (value % 65536) := by
  intro instruction machine read target performs named
  have given : operandValues instruction machine = .ok [first.apply a, second.apply b] read :=
    performs.values known (Nat.le_refl 2)
  rw [← performs.operates] at result
  have performed : perform instruction [first.apply a, second.apply b] read =
      .ok (.store value) read := perform_of_result? result
  have run : executeInstruction instruction machine =
      storeResult instruction value read := by
    unfold executeInstruction
    rw [Action.bind_of_ok given, Action.bind_of_ok performed]
    rfl
  unfold storeResult at run
  rw [named] at run
  rw [run, Workspace.assigned_congr (Word.ofInt_emod value)]
  refine ⟨fun assignable => ⟨?_, ?_⟩, fun refused => ?_⟩
  · have stored := onWork_of_ok
      (Workspace.setVariable_of_assignable performs.whole assignable value)
    exact (Action.bind_of_ok stored).trans rfl
  · rw [← Word.natCast_ofInt]
    exact Workspace.getVariable_assigned performs.whole assignable value
  · obtain ⟨fault, failed⟩ :=
      Workspace.setVariable_of_not_assignable performs.whole refused value
    exact ⟨fault, Action.bind_of_error (onWork_of_error failed)⟩

/-- A division by zero is refused before anything is stored. -/
theorem breaks_divide_zero (a : Int)
    (divides : operation = .divide ∨ operation = .remainder) :
    Breaks operation [a, 0] .arithmetic := by
  intro instruction machine read performs
  have known : operation.senses? = some [.signed, .signed] := by
    obtain rfl | rfl := divides <;> rfl
  have given := performs.values known (Nat.le_refl 2)
  rw [← performs.operates] at divides
  have failed : perform instruction [Word.signed a, 0] read =
      .error (.ofCause (.divisionByZero instruction.name (Word.signed a))) read :=
    perform_divide_zero divides rfl
  unfold executeInstruction
  rw [Action.bind_of_ok given]
  exact ⟨_, Action.bind_of_error failed, rfl⟩

/-! ## Counting -/

private theorem changeVariable_eq {number value : Int} (whole : machine.work.memory.Whole)
    (changeable : machine.work.Changeable number)
    (got : Workspace.getVariable number true machine.work = .ok value machine.work)
    (change : Int) :
    changeVariable number change machine = .ok (Word.signed (value + change))
      { machine with work := machine.work.changed number (value + change) } := by
  have folded : Word.ofInt (Word.signed (value + change)) = Word.ofInt (value + change) :=
    Word.ofInt_signed _
  have read : onWork (Workspace.getVariable number true) machine = .ok value machine :=
    onWork_of_ok got
  have set := onWork_of_ok
    (Workspace.setVariable_changed whole changeable (Word.signed (value + change)))
  rw [Workspace.changed_congr folded] at set
  unfold changeVariable
  rw [Action.bind_of_ok read, Word.signed_signed_add, Action.bind_of_ok set]
  rfl

end Machine

/-- By how much an operation changes a variable, if it counts. -/
def Operation.count? : Operation → Option Int
  | .increment | .incrementCheck => some 1
  | .decrement | .decrementCheck => some (-1)
  | _ => none

/-- How a counting operation goes on by the new value and its second operand. -/
def Operation.afterCount (operation : Operation) (value b : Int) : Next :=
  match operation with
  | .incrementCheck => .branch (value > b)
  | .decrementCheck => .branch (value < b)
  | _ => .proceed

namespace Machine

private theorem perform_of_count? {number change value : Int} (rest : List Int)
    (counts : instruction.opcode.operation.count? = some change)
    (whole : machine.work.memory.Whole) (changeable : machine.work.Changeable number)
    (got : Workspace.getVariable number true machine.work = .ok value machine.work) :
    perform instruction (number :: rest) machine =
      .ok (instruction.opcode.operation.afterCount (Word.signed (value + change)) (rest.getD 0 0))
        { machine with work := machine.work.changed number (value + change) } := by
  have read : onWork (Workspace.getVariable number true) machine = .ok value machine :=
    onWork_of_ok got
  have set (next : Int) : onWork (Workspace.setVariable number next true) machine =
      .ok () { machine with work := machine.work.changed number next } :=
    onWork_of_ok (Workspace.setVariable_changed whole changeable next)
  unfold perform
  rw [Action.get_bind]
  cases operates : instruction.opcode.operation with
  | increment | decrement =>
      rw [operates] at counts
      cases counts
      exact (Action.bind_of_ok read).trans (Action.bind_of_ok (set _))
  | incrementCheck | decrementCheck =>
      rw [operates] at counts
      cases counts
      exact Action.bind_of_ok (changeVariable_eq whole changeable got _)
  | _ =>
      rw [operates] at counts
      cases counts

private theorem perform_of_count?_refused {number change : Int} (rest : List Int)
    (counts : instruction.opcode.operation.count? = some change)
    (whole : machine.work.memory.Whole) (refused : ¬ machine.work.Changeable number) :
    ∃ fault, perform instruction (number :: rest) machine = .error (.fault fault) machine := by
  unfold perform
  rw [Action.get_bind]
  obtain ⟨fault, failed⟩ | ⟨value, got, failing⟩ := Workspace.change_refused whole refused
  · have unread : onWork (Workspace.getVariable number true) machine =
        .error (.fault fault) machine := onWork_of_error failed
    refine ⟨fault, ?_⟩
    cases operates : instruction.opcode.operation with
    | increment | decrement => exact Action.bind_of_error unread
    | incrementCheck | decrementCheck =>
        exact Action.bind_of_error (Action.bind_of_error unread)
    | _ =>
        rw [operates] at counts
        cases counts
  · have read : onWork (Workspace.getVariable number true) machine = .ok value machine :=
      onWork_of_ok got
    have unset (next : Int) : ∃ fault, onWork (Workspace.setVariable number next true) machine =
        .error (.fault fault) machine := by
      obtain ⟨fault, failed⟩ := failing next
      exact ⟨fault, onWork_of_error failed⟩
    cases operates : instruction.opcode.operation with
    | increment | decrement =>
        obtain ⟨fault, failed⟩ := unset _
        exact ⟨fault, (Action.bind_of_ok read).trans (Action.bind_of_error failed)⟩
    | incrementCheck | decrementCheck =>
        obtain ⟨fault, failed⟩ := unset _
        exact ⟨fault, Action.bind_of_error
          ((Action.bind_of_ok read).trans (Action.bind_of_error failed))⟩
    | _ =>
        rw [operates] at counts
        cases counts

private theorem counts_of_count? {change : Int} (senses : List Sense)
    (known : operation.senses? = some (.unsigned :: senses))
    (enough : senses.length ≤ words.length) (counts : operation.count? = some change) :
    Counts operation change words fun instruction value =>
      settle instruction (operation.afterCount value ((Opcode.numbers senses words).getD 0 0)) := by
  intro instruction machine read number performs
  have given : operandValues instruction machine =
      .ok (number :: Opcode.numbers senses words) read :=
    performs.values known (Nat.succ_le_succ enough)
  have counting := performs.operates ▸ counts
  unfold executeInstruction
  rw [Action.bind_of_ok given]
  refine ⟨fun changeable => ?_, fun refused => ?_⟩
  · obtain ⟨value, got⟩ := Workspace.exists_getVariable performs.whole changeable
    have performed := perform_of_count? (Opcode.numbers senses words) counting
      performs.whole changeable got
    rw [performs.operates] at performed
    exact ⟨value, got, Action.bind_of_ok performed,
      Workspace.getVariable_changed performs.whole changeable _⟩
  · obtain ⟨fault, failed⟩ := perform_of_count?_refused
      (Opcode.numbers senses words) counting performs.whole refused
    exact ⟨fault, Action.bind_of_error failed⟩

/-! ## The whole of arithmetic -/

/-- What the operations on two words `a` and `b` do. -/
structure WordArithmetic (a b : Int) : Prop where
  /-- Sums, differences and products are exact up to whole words. -/
  sum : Stores .add [a, b] ((Word.signed a + Word.signed b) % 65536)
  difference : Stores .subtract [a, b] ((Word.signed a - Word.signed b) % 65536)
  product : Stores .multiply [a, b] ((Word.signed a * Word.signed b) % 65536)
  /-- A quotient and its rest make up the dividend; only the quotient of the least number by minus
  one does not fit its word. -/
  division : b ≠ 0 → ∃ quotient rest,
    Stores .divide [a, b] quotient ∧ Stores .remainder [a, b] rest ∧
    |Word.signed rest| < |Word.signed b| ∧
    (Word.signed rest = 0 ∨ (Word.signed rest).sign = (Word.signed a).sign) ∧
    (¬ (Word.signed a = -32768 ∧ Word.signed b = -1) →
      Word.signed a = Word.signed b * Word.signed quotient + Word.signed rest) ∧
    Word.signed a % 65536 =
      (Word.signed b * Word.signed quotient + Word.signed rest) % 65536
  zero : b = 0 → Breaks .divide [a, b] .arithmetic ∧ Breaks .remainder [a, b] .arithmetic
  /-- A shift multiplies by a power of two and rounds down. -/
  shifts : -15 ≤ Word.signed b → Word.signed b ≤ 15 →
    Stores .arithmeticShift [a, b] (⌊(Word.signed a : ℚ) * 2 ^ Word.signed b⌋ % 65536) ∧
    Stores .logicalShift [a, b] (⌊(a : ℚ) * 2 ^ Word.signed b⌋ % 65536)
  increment : Counts .increment 1 [] fun instruction _ => goTo instruction.nextAddress
  decrement : Counts .decrement (-1) [] fun instruction _ => goTo instruction.nextAddress
  /-- The branch of a count depends on the signed reading of what is in the variable now. -/
  increment_check : Counts .incrementCheck 1 [b] fun instruction value =>
    followBranch instruction (value > Word.signed b)
  decrement_check : Counts .decrementCheck (-1) [b] fun instruction value =>
    followBranch instruction (value < Word.signed b)

private theorem stores_shift {a b : Int} (sense : Sense)
    (shifts : operation = .arithmeticShift ∨ operation = .logicalShift)
    (known : operation.senses? = some [sense, .signed])
    (least : -15 ≤ Word.signed b) (most : Word.signed b ≤ 15) :
    Stores operation [a, b] (⌊(sense.apply a : ℚ) * 2 ^ Word.signed b⌋ % 65536) := by
  have near : ¬ (Word.signed b < -15 ∨ 15 < Word.signed b) := by omega
  have shifted : operation.result? (sense.apply a) (Word.signed b) =
      if 0 ≤ Word.signed b then
        some (sense.apply a * Nat.pow 2 (Word.signed b).toNat % 65536)
      else some ((sense.apply a).fdiv (Nat.pow 2 (Word.signed b).natAbs)) := by
    obtain rfl | rfl := shifts <;> exact if_neg near
  by_cases left : 0 ≤ Word.signed b
  · rw [if_pos left] at shifted
    have stores := stores_of_result? sense .signed known shifted
    rw [Int.emod_emod_of_dvd _ (Int.dvd_refl _)] at stores
    rw [floor_mul_two_pow _ left]
    exact_mod_cast stores
  · rw [if_neg left] at shifted
    rw [floor_div_two_pow _ (Int.not_le.mp left)]
    exact stores_of_result? sense .signed known shifted

private theorem division_of_words {a b : Int} (divisor : Word.signed b ≠ 0) :
    ∃ quotient rest,
      Stores .divide [a, b] quotient ∧ Stores .remainder [a, b] rest ∧
      |Word.signed rest| < |Word.signed b| ∧
      (Word.signed rest = 0 ∨ (Word.signed rest).sign = (Word.signed a).sign) ∧
      (¬ (Word.signed a = -32768 ∧ Word.signed b = -1) →
        Word.signed a = Word.signed b * Word.signed quotient + Word.signed rest) ∧
      Word.signed a % 65536 =
        (Word.signed b * Word.signed quotient + Word.signed rest) % 65536 := by
  have least := Word.signed_lower a
  have most := Word.signed_upper a
  have narrow : |Word.signed b| ≤ 32768 := by
    have lower := Word.signed_lower b
    have upper := Word.signed_upper b
    exact abs_le.mpr ⟨lower, by omega⟩
  obtain ⟨small, sign⟩ := tmod_bounds (Word.signed a) (Word.signed b) divisor
  have bounds := abs_lt.mp (small.trans_le narrow)
  have rest : Word.signed ((Word.signed a).tmod (Word.signed b) % 65536) =
      (Word.signed a).tmod (Word.signed b) := by
    rw [Word.signed_emod, Word.signed_of_bounds (by omega) (by omega)]
  have whole := Int.mul_tdiv_add_tmod (Word.signed a) (Word.signed b)
  refine ⟨_, _, stores_of_result? .signed .signed rfl (if_neg divisor),
    stores_of_result? .signed .signed rfl (if_neg divisor), ?_⟩
  simp only [Sense.apply_signed, rest]
  refine ⟨small, sign, fun plain => ?_, ?_⟩
  · obtain ⟨low, high⟩ := tdiv_bounds least most plain
    rw [Word.signed_emod, Word.signed_of_bounds low high, whole]
  · have folded : Word.signed ((Word.signed a).tdiv (Word.signed b) % 65536) ≡
        (Word.signed a).tdiv (Word.signed b) [ZMOD 65536] := by
      rw [Word.signed_emod]
      exact Word.emod_signed _
    have together := (folded.mul_left (Word.signed b)).add_right
      ((Word.signed a).tmod (Word.signed b))
    rw [whole] at together
    exact together.symm

/-- Arithmetic on words, whatever instruction does it and wherever its operands and its result
are. -/
theorem word_arithmetic (a : Int) {b : Int} (word : Word.IsWord b) : WordArithmetic a b where
  sum := stores_of_result? .signed .signed rfl rfl
  difference := stores_of_result? .signed .signed rfl rfl
  product := stores_of_result? .signed .signed rfl rfl
  division := fun divisor => division_of_words (mt (Word.signed_eq_zero word).mp divisor)
  zero := by
    rintro rfl
    exact ⟨breaks_divide_zero a (.inl rfl), breaks_divide_zero a (.inr rfl)⟩
  shifts := fun least most =>
    ⟨stores_shift .signed (.inl rfl) rfl least most,
      stores_shift .unsigned (.inr rfl) rfl least most⟩
  increment := counts_of_count? [] rfl (Nat.le_refl 0) rfl
  decrement := counts_of_count? [] rfl (Nat.le_refl 0) rfl
  increment_check := counts_of_count? [.signed] rfl (Nat.le_refl 1) rfl
  decrement_check := counts_of_count? [.signed] rfl (Nat.le_refl 1) rfl

/-- A shift of the top of the stack by one place to the right. -/
def halving : Instruction where
  address := 0
  form := .extended
  opcode :=
    { group := .extended, number := 3, name := "art_shift", operation := .arithmeticShift,
      stores := true, senses := [.signed, .signed], least := 2 }
  operands := [⟨.variable, 0⟩, ⟨.large, 0xffff⟩]
  storeTo := some 0
  resultAddress := 6
  nextAddress := 7

/-- A machine with minus seven on the stack. -/
def oddity : Machine :=
  { sample with work.calls.current.stack := [0xfff9] }

/-- Half of minus seven is rounded down to minus four. -/
theorem word_arithmetic_halving :
    Word.IsWord 0xffff ∧
      executeInstruction halving oddity =
        .ok () { oddity with work.calls.current.stack := [0xfffc], pc := 7 } := by
  have word : Word.IsWord 0xffff := ⟨by decide, by decide⟩
  have performs : Performs .arithmeticShift [0xfff9, 0xffff] halving oddity
      { oddity with work.calls.current.stack := [] } :=
    ⟨by decide, rfl, .cons rfl (.cons rfl (.nil _)), Int.le_refl 0⟩
  have result : ⌊(Word.signed 0xfff9 : ℚ) * 2 ^ Word.signed 0xffff⌋ % 65536 = 0xfffc := by
    rw [floor_div_two_pow _ (by decide)]
    decide
  have shifted := ((word_arithmetic 0xfff9 word).shifts (by decide) (by decide)).1 halving oddity _
    0 performs rfl
  rw [result] at shifted
  exact ⟨word, (shifted.1 (.inl rfl)).1⟩

end Machine

end StoryMachine
