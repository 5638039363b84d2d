import StoryMachine.Proofs.TwoPhaseReads

/-!
# Operands that are words

An instruction reads its operands from the first to the last, each as a word, and its opcode says
which of the words it takes with a sign. What an operation is given is therefore a function of the
words alone, wherever they stood.
-/

namespace StoryMachine

namespace Sense

/-- The number that a word stands for. -/
def apply (sense : Sense) (word : Int) : Int :=
  match sense with
  | .signed => Word.signed word
  | .unsigned => word

@[simp] theorem apply_signed (word : Int) : signed.apply word = Word.signed word :=
  rfl

@[simp] theorem apply_unsigned (word : Int) : unsigned.apply word = word :=
  rfl

end Sense

namespace Operation

/-- How the operations on numbers and tables take their operands. -/
def senses? : Operation → Option (List Sense)
  | .add | .subtract | .multiply | .divide | .remainder | .arithmeticShift =>
      some [.signed, .signed]
  | .logicalShift => some [.unsigned, .signed]
  | .increment | .decrement => some [.unsigned]
  | .incrementCheck | .decrementCheck => some [.unsigned, .signed]
  | .copyTable => some [.unsigned, .unsigned, .signed]
  | _ => none

end Operation

namespace Opcode

/-- Every opcode of such an operation takes its operands in the same way, and needs all of them. -/
theorem form_of_senses? :
    ∀ opcode ∈ Opcode.all, ∀ senses ∈ opcode.operation.senses?,
      opcode.senses = senses ∧ opcode.least = senses.length := by
  decide

/-- Words as the opcode takes them: those beyond the listed senses are taken without a sign. -/
def numbers (senses : List Sense) (words : List Int) : List Int :=
  List.zipWith Sense.apply senses words ++ words.drop senses.length

private theorem sense_of_senses {opcode : Opcode} {front rest : List Sense} {sense : Sense}
    (form : opcode.senses = front ++ sense :: rest) : opcode.sense front.length = sense := by
  unfold Opcode.sense
  rw [form, List.getD_eq_getElem?_getD, List.getElem?_append_right (Nat.le_refl _), Nat.sub_self]
  rfl

private theorem sense_beyond {opcode : Opcode} {index : Nat} (beyond : opcode.senses.length ≤ index) :
    opcode.sense index = .unsigned :=
  List.getD_eq_default _ _ beyond

end Opcode

namespace Machine

variable {machine read : Machine} {instruction : Instruction} {operands : List Operand}
  {words : List Int}

/-- Operands are read to words, one after the other. -/
inductive ReadsWords : List Operand → Machine → List Int → Machine → Prop where
  | nil (machine : Machine) : ReadsWords [] machine [] machine
  | cons {operand : Operand} {rest : List Operand} {machine next after : Machine} {word : Int}
      {words : List Int} (first : operandValue .unsigned operand machine = .ok word next)
      (others : ReadsWords rest next words after) :
      ReadsWords (operand :: rest) machine (word :: words) after

private theorem operandValue_of_unsigned {operand : Operand} {word : Int}
    (given : operandValue .unsigned operand machine = .ok word read) (sense : Sense) :
    operandValue sense operand machine = .ok (sense.apply word) read := by
  cases sense with
  | unsigned => exact given
  | signed =>
      unfold operandValue at given ⊢
      dsimp only at given ⊢
      by_cases kind : operand.kind = .variable
      · rw [if_pos kind] at given ⊢
        obtain ⟨value, between, got, done⟩ := Action.bind_eq_ok given
        cases done
        exact Action.bind_of_ok got
      · rw [if_neg kind] at given ⊢
        cases given
        rfl

namespace ReadsWords

private theorem length (reads : ReadsWords operands machine words read) :
    words.length = operands.length := by
  induction reads with
  | nil => rfl
  | cons first others ih => rw [List.length_cons, List.length_cons, ih]

private theorem valuesBeyond (reads : ReadsWords operands machine words read) {opcode : Opcode}
    {index : Nat} (beyond : opcode.senses.length ≤ index) :
    operandValuesFrom opcode index operands machine = .ok words read := by
  induction reads generalizing index with
  | nil => rfl
  | cons first others ih =>
      unfold operandValuesFrom
      rw [Opcode.sense_beyond beyond, Action.bind_of_ok first,
        Action.bind_of_ok (ih (Nat.le_succ_of_le beyond))]
      rfl

private theorem valuesFrom (reads : ReadsWords operands machine words read) {opcode : Opcode}
    {front senses : List Sense} (form : opcode.senses = front ++ senses) :
    operandValuesFrom opcode front.length operands machine =
      .ok (Opcode.numbers senses words) read := by
  induction reads generalizing front senses with
  | nil => cases senses <;> rfl
  | @cons operand rest machine next after word words first others ih =>
      cases senses with
      | nil =>
          rw [List.append_nil] at form
          exact (ReadsWords.cons first others).valuesBeyond (by rw [form])
      | cons sense senses =>
          have value := operandValue_of_unsigned first (opcode.sense front.length)
          have longer : opcode.senses = (front ++ [sense]) ++ senses := by simpa using form
          have later := ih longer
          rw [List.length_append, List.length_singleton] at later
          unfold operandValuesFrom
          rw [Action.bind_of_ok value, Action.bind_of_ok later, Opcode.sense_of_senses form]
          rfl

/-- An instruction with enough operands is given the numbers that their words stand for. -/
theorem values (reads : ReadsWords instruction.operands machine words read)
    (listed : instruction.opcode ∈ Opcode.all) {senses : List Sense}
    (known : instruction.opcode.operation.senses? = some senses)
    (enough : senses.length ≤ words.length) :
    operandValues instruction machine = .ok (Opcode.numbers senses words) read := by
  obtain ⟨form, least⟩ := Opcode.form_of_senses? _ listed senses known
  rw [reads.length] at enough
  unfold operandValues
  dsimp only
  rw [least, if_neg (Nat.not_lt.mpr enough)]
  exact reads.valuesFrom (show instruction.opcode.senses = [] ++ senses from form)

/-- Reading words takes values off the stack and changes nothing else. -/
theorem eq_dropTop (reads : ReadsWords operands machine words read) :
    read = machine.dropTop (operands.map Operand.popCount).sum := by
  induction reads with
  | nil => rfl
  | cons first others ih =>
      rw [ih, operandValue_eq_ok first, List.map_cons, List.sum_cons]
      unfold dropTop
      rw [Workspace.dropTop_dropTop]

end ReadsWords

/-- An instruction performs an operation on words, which are read first. -/
structure Performs (operation : Operation) (words : List Int) (instruction : Instruction)
    (machine read : Machine) : Prop where
  listed : instruction.opcode ∈ Opcode.all
  operates : instruction.opcode.operation = operation
  reads : ReadsWords instruction.operands machine words read
  whole : read.work.memory.Whole

namespace Performs

variable {operation : Operation}

/-- The operands of an operation are read as it senses them. -/
theorem values (performs : Performs operation words instruction machine read)
    {senses : List Sense} (known : operation.senses? = some senses)
    (enough : senses.length ≤ words.length) :
    operandValues instruction machine = .ok (Opcode.numbers senses words) read :=
  performs.reads.values performs.listed (performs.operates ▸ known) enough

/-- Reading the operands leaves memory as it is. -/
theorem memory_eq (performs : Performs operation words instruction machine read) :
    read.work.memory = machine.work.memory := by
  rw [performs.reads.eq_dropTop]
  rfl

end Performs

end Machine

end StoryMachine
