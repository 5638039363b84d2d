import StoryMachine.Proofs.Alphabets
import StoryMachine.Proofs.Protection

/-!
# Breaches

Which actions can end in a breach, and so get past the handler of faults. Writing
memory, variables and frames ends in none, as long as dynamic memory lies inside
the image; nor does anything else that a machine in good order does, but for the
few cases that are named.
-/

namespace StoryMachine

open StoryMachine.Action (Ensures Keeps)
open StoryMachine.Result (Faults)

/-- A failure that gets past the handler of faults. -/
def Failure.IsBreach (failure : Failure) : Prop :=
  ∃ breach, failure = .breach breach

namespace Action

variable {σ τ α β : Type} {I : σ → Prop} {P : Failure → σ → Prop} {Q : α → Prop}

/-- From a state where the invariant holds, every failure of the action has a property, together
with the state that it leaves. -/
def FailsOnly (I : σ → Prop) (P : Failure → σ → Prop) (action : Action σ α) : Prop :=
  ∀ (s s' : σ) (failure : Failure), I s → action s = .error failure s' → P failure s'

/-- From a state where the invariant holds, the action fails only if a rule is broken. -/
abbrev FaultsOnly (I : σ → Prop) (action : Action σ α) : Prop :=
  FailsOnly I (fun failure _ => failure.IsFault) action

namespace FailsOnly

/-- How an action fails from any state, it fails from the states of an invariant. -/
theorem of_failsWith {action : Action σ α} {R : Failure → Prop} (fails : FailsWith R action)
    (weaker : ∀ failure s, R failure → P failure s) : FailsOnly I P action :=
  fun s s' failure _ failed => weaker failure s' (fails s s' failure failed)

/-- An action that fails only if a rule is broken does so from every state. -/
theorem of_faults {action : Action σ α} (fails : FailsWith Failure.IsFault action) :
    FaultsOnly I action :=
  of_failsWith fails fun _ _ fault => fault

/-- An answer alone does not fail. -/
theorem pure (a : α) : FailsOnly I P (pure a : Action σ α) := by
  rintro s s' failure _ ⟨⟩

/-- A change of the state does not fail. -/
theorem modify (change : σ → σ) : FailsOnly I P (modify change : Action σ PUnit) := by
  rintro s s' failure _ ⟨⟩

private theorem fault {cause : Cause} (allowed : ∀ s, P (.ofCause cause) s) :
    FailsOnly I P (Action.fault cause : Action σ α) := by
  rintro s s' failure _ ⟨⟩
  exact allowed s

/-- An action that asks a question fails as the question does. -/
theorem lift {result : Result α} (fails : ∀ s, Result.FailsWith (P · s) result) :
    FailsOnly I P (liftM result : Action σ α) := by
  intro s s' failure _ failed
  cases outcome : result with
  | ok a =>
      rw [outcome] at failed
      cases failed
  | error reason =>
      rw [outcome] at failed
      cases failed
      exact fails s failure outcome

/-- An action fails as its first part does or, from where that ends, as its rest does. -/
theorem bind {first : Action σ α} {rest : α → Action σ β} (head : FailsOnly I P first)
    (kept : Ensures I Q first) (tail : ∀ a, Q a → FailsOnly I P (rest a)) :
    FailsOnly I P (first >>= rest) := by
  intro s s'' failure holds failed
  rcases bind_eq_error failed with failed | ⟨a, s', begun, failed⟩
  · exact head s s'' failure holds failed
  · obtain ⟨holds, answer⟩ := kept.of_ok holds begun
    exact tail a answer s' s'' failure holds failed

/-- One action after the other, when the answer of the first does not matter. -/
theorem seq {first : Action σ α} {rest : α → Action σ β} (head : FailsOnly I P first)
    (kept : Keeps I first) (tail : ∀ a, FailsOnly I P (rest a)) : FailsOnly I P (first >>= rest) :=
  head.bind kept fun a _ => tail a

/-- What is given the state fails as the whole does. -/
theorem get {rest : σ → Action σ β} (tail : ∀ s, I s → FailsOnly I P (rest s)) :
    FailsOnly I P (get >>= rest) :=
  fun s s' failure holds failed => tail s holds s s' failure holds failed

/-- What is made of an answer does not fail. -/
theorem answered {action : Action σ α} (fails : FailsOnly I P action) (answer : α → β) :
    FailsOnly I P (do return answer (← action)) := by
  intro s s' failure holds failed
  rcases bind_eq_error failed with failed | ⟨a, between, -, failed⟩
  · exact fails s s' failure holds failed
  · cases failed

/-- A question in front of the rest. -/
theorem ask {result : Result α} {rest : α → Action σ β}
    (fails : ∀ s, Result.FailsWith (P · s) result)
    (tail : ∀ a, result = .ok a → FailsOnly I P (rest a)) :
    FailsOnly I P ((liftM result : Action σ α) >>= rest) :=
  (lift fails).bind (.lift fun _ answered => answered) tail

/-- A check that ends in a fault. -/
theorem excluded {condition : Prop} [Decidable condition] {cause : Cause}
    {rest : PUnit → Action σ β} (allowed : ∀ s, P (.ofCause cause) s)
    (tail : FailsOnly I P (rest ())) :
    FailsOnly I P (if condition then Action.fault cause >>= rest else rest ()) := by
  split
  · rintro s s' failure _ ⟨⟩
    exact allowed s
  · exact tail

/-- An action that is taken only on a condition. -/
theorem check {condition : Prop} [Decidable condition] {action : Action σ PUnit}
    {rest : PUnit → Action σ β} (fails : FailsOnly I P action) (kept : Keeps I action)
    (tail : ∀ u, FailsOnly I P (rest u)) :
    FailsOnly I P (if condition then action >>= rest else rest ()) := by
  split
  · exact fails.seq kept tail
  · exact tail ()

/-- Only a breach passes a handler of faults that does not fail itself. -/
theorem onFault {action : Action σ α} {handler : Fault → Action σ α}
    (fails : FailsOnly I P action) (kept : Keeps I action)
    (handled : ∀ fault, FailsOnly I (fun _ _ => False) (handler fault)) :
    FailsOnly I (fun failure s => P failure s ∧ failure.IsBreach) (action.onFault handler) := by
  intro s s'' failure holds failed
  rcases onFault_eq_error failed with ⟨breach, rfl, failed⟩ | ⟨fault, s', broke, failed⟩
  · exact ⟨fails s s'' _ holds failed, breach, rfl⟩
  · have held := kept.finalState holds
    rw [finalState_of_error broke] at held
    exact (handled fault s' s'' failure held failed).elim

/-- An action on a part of the state fails as it does on the part. -/
theorem focus [Inhabited τ] {part : σ → τ} {withPart : τ → σ → σ} {action : Action τ α}
    {J : τ → Prop} (fails : FaultsOnly J action) (within : ∀ s, I s → J (part s))
    (allowed : ∀ failure s, failure.IsFault → P failure s) :
    FailsOnly I P (action.focus part withPart) := by
  intro s s' failure holds failed
  unfold Action.focus at failed
  cases outcome : action (part s) with
  | ok a t => simp only [outcome, reduceCtorEq] at failed
  | error reason t =>
      simp only [outcome, EStateM.Result.error.injEq] at failed
      exact allowed failure s' (failed.1 ▸ fails (part s) t reason (within s holds) outcome)

end FailsOnly

end Action

open StoryMachine.Action (FailsOnly FaultsOnly)

/-! ## Memory -/

namespace GameMemory

/-- Dynamic memory lies inside the image. -/
def Whole (memory : GameMemory) : Prop :=
  memory.dynamicEnd ≤ memory.size

private theorem survivesWrites_whole : SurvivesWrites Whole := by
  intro memory address byte _ _ _ whole
  unfold Whole at whole ⊢
  rw [size_withByte]
  exact whole

private theorem keeps_write_whole (address value : Int) : Keeps Whole (write address value) :=
  keeps_write survivesWrites_whole address value (by omega)

private theorem keeps_writeWord_whole (address value : Int) : Keeps Whole (writeWord address value) :=
  keeps_writeWord survivesWrites_whole address value (by omega)

/-- Writing a byte fails only by a fault. -/
theorem faultsOnly_write (address value : Int) : FaultsOnly Whole (write address value) := by
  intro memory after failure whole failed
  unfold write at failed
  unfold Whole at whole
  split at failed
  · cases failed
    exact ⟨_, rfl⟩
  split at failed
  · cases failed
  · omega

/-- Writing a word fails only by a fault. -/
theorem faultsOnly_writeWord (address value : Int) :
    FaultsOnly Whole (writeWord address value) := by
  unfold writeWord
  refine .get fun memory _ => .excluded (fun _ => ⟨_, rfl⟩) ?_
  exact .seq (faultsOnly_write _ _) (keeps_write_whole _ _) fun _ =>
    faultsOnly_write _ _

/-- Writing a run of bytes fails only by a fault. -/
theorem faultsOnly_writeRun (address : Int) (values : List Int) :
    FaultsOnly Whole (Store.writeRun address values : Edit Unit) := by
  induction values generalizing address with
  | nil => exact .pure _
  | cons value rest ih =>
      exact .seq (faultsOnly_write _ _) (keeps_write_whole _ _) fun _ => ih _

/-- Copying a table from its first byte on fails only by a fault. -/
theorem faultsOnly_copyForwards (source target : Int) (count : Nat) :
    FaultsOnly Whole (Machine.copyForwards source target count) := by
  induction count generalizing source target with
  | zero => exact .pure _
  | succ count ih =>
      refine .get fun memory _ => .ask (fun _ => memory.failsWith_byte source) fun byte _ => ?_
      exact .seq (faultsOnly_write _ _) (keeps_write_whole _ _) fun _ => ih _ _

end GameMemory

open StoryMachine.GameMemory (Whole)

namespace Dictionary

variable {dictionary : Dictionary}

private theorem faultsOnly_writeTokens (compact : dictionary.codec.Compact) (textOffset : Int)
    (skipUnknown : Bool) (address : Int) (tokens : List Token) :
    FaultsOnly Whole (dictionary.writeTokens textOffset skipUnknown address tokens :
      GameMemory.Edit Unit) := by
  induction tokens generalizing address with
  | nil => exact .pure _
  | cons token rest ih =>
      obtain ⟨start, word⟩ := token
      unfold writeTokens
      refine .get fun memory _ => .ask (fun _ => faults_lookupZscii compact _ _) fun found _ => ?_
      dsimp only
      split
      · refine .seq (GameMemory.faultsOnly_writeWord _ _) (GameMemory.keeps_writeWord_whole _ _)
          fun _ => ?_
        refine .seq (GameMemory.faultsOnly_write _ _) (GameMemory.keeps_write_whole _ _)
          fun _ => ?_
        exact .seq (GameMemory.faultsOnly_write _ _) (GameMemory.keeps_write_whole _ _)
          fun _ => ih _
      · exact ih _

/-- Splitting a line into a parse table fails only by a fault, if the dictionary packs every
word. -/
theorem faultsOnly_tokenise (compact : dictionary.codec.Compact) (chars : List Int)
    (parseTable textOffset : Int) (skipUnknown : Bool) :
    FaultsOnly Whole (dictionary.tokenise chars parseTable textOffset skipUnknown :
      GameMemory.Edit (List Token)) := by
  have room : FaultsOnly Whole (Store.byte parseTable : GameMemory.Edit Nat) :=
    .get fun memory _ => .lift fun _ => memory.failsWith_byte parseTable
  have asked : Keeps Whole (Store.byte parseTable : GameMemory.Edit Nat) :=
    .get fun memory _ => .lift fun _ _ => trivial
  unfold tokenise
  refine .seq room asked fun count => ?_
  refine .seq (GameMemory.faultsOnly_write _ _) (GameMemory.keeps_write_whole _ _) fun _ => ?_
  exact .seq (faultsOnly_writeTokens compact _ _ _ _)
    (keeps_writeTokens GameMemory.survivesWrites_whole _ _ _ _ _ (.inl rfl)) fun _ => .pure _

end Dictionary

namespace ObjectTable

variable (table : ObjectTable)

private theorem faultsOnly_setLink (link : Link) (id target : Int) :
    FaultsOnly Whole (table.setLink link id target) := by
  unfold setLink
  refine .ask (fun _ => table.failsWith_recordAddress id) fun address _ => ?_
  split
  · exact GameMemory.faultsOnly_write _ _
  · exact GameMemory.faultsOnly_writeWord _ _

/-- Changing an attribute fails only by a fault. -/
theorem faultsOnly_changeAttribute (on : Bool) (id number : Int) :
    FaultsOnly Whole (table.changeAttribute on id number) := by
  unfold changeAttribute
  refine .ask (fun _ => table.failsWith_attributePlace id number) fun place _ => ?_
  refine .get fun memory _ => .ask (fun _ => memory.failsWith_byte _) fun byte _ => ?_
  exact GameMemory.faultsOnly_write _ _

private theorem faultsOnly_setLink_bind {β : Type} (link : Link) (id target : Int)
    {rest : Unit → GameMemory.Edit β} (tail : ∀ u, FaultsOnly Whole (rest u)) :
    FaultsOnly Whole (table.setLink link id target >>= rest) :=
  .seq (table.faultsOnly_setLink link id target)
    (keeps_setLink GameMemory.survivesWrites_whole table link id target (.inl rfl)) tail

/-- Taking an object out of the tree fails only by a fault. -/
theorem faultsOnly_remove (id : Int) : FaultsOnly Whole (table.remove id) := by
  have detach : FaultsOnly Whole (do table.setLink .parent id 0; table.setLink .sibling id 0) :=
    table.faultsOnly_setLink_bind _ _ _ fun _ => table.faultsOnly_setLink _ _ _
  unfold remove
  refine .get fun memory _ => .ask (fun _ => table.failsWith_parent _ id) fun parent _ => ?_
  dsimp only
  split
  · exact .pure _
  refine .get fun memory _ => .ask (fun _ => table.failsWith_sibling _ id) fun sibling _ => ?_
  refine .get fun memory _ => .ask (fun _ => table.failsWith_child _ _) fun first _ => ?_
  split
  · exact table.faultsOnly_setLink_bind _ _ _ fun _ => detach
  · refine .get fun memory _ => ?_
    refine .ask (fun _ => table.failsWith_olderSibling _ _ _ _ _) fun older _ => ?_
    exact table.faultsOnly_setLink_bind _ _ _ fun _ => detach

/-- Putting an object into the tree fails only by a fault. -/
theorem faultsOnly_insert (id target : Int) : FaultsOnly Whole (table.insert id target) := by
  unfold insert
  refine .ask (fun _ => table.failsWith_recordAddress id) fun _ _ => ?_
  refine .ask (fun _ => table.failsWith_recordAddress target) fun _ _ => ?_
  refine .get fun memory _ => .ask (fun _ => table.failsWith_checkAncestors _ _ _ _ _) fun _ _ => ?_
  refine .seq (table.faultsOnly_remove id)
    (keeps_remove GameMemory.survivesWrites_whole table id (.inl rfl)) fun _ => ?_
  refine table.faultsOnly_setLink_bind _ _ _ fun _ => ?_
  refine .get fun memory _ => .ask (fun _ => table.failsWith_child _ _) fun first _ => ?_
  exact table.faultsOnly_setLink_bind _ _ _ fun _ => table.faultsOnly_setLink _ _ _

/-- Setting a property fails only by a fault. -/
theorem faultsOnly_putProperty (id number value : Int) :
    FaultsOnly Whole (table.putProperty id number value) := by
  unfold putProperty
  refine .get fun memory _ => .ask (fun _ => table.failsWith_propertyAddress _ _ _)
    fun address _ => ?_
  refine .excluded (fun _ => ⟨_, rfl⟩) ?_
  refine .get fun memory _ => .ask (fun _ => table.failsWith_propertyLength _ _) fun length _ => ?_
  split
  · exact GameMemory.faultsOnly_write _ _
  split
  · exact GameMemory.faultsOnly_writeWord _ _
  · exact .fault fun _ => ⟨_, rfl⟩

end ObjectTable

/-! ## Variables -/

namespace Workspace

/-- Dynamic memory of a workspace lies inside the image. -/
def Whole (workspace : Workspace) : Prop :=
  workspace.memory.Whole

/-- Pushing a value does not fail at all. -/
theorem faultsOnly_push (value : Int) : FaultsOnly Whole (push value) :=
  .get fun _ _ => .modify _

/-- Writing a variable fails only by a fault. -/
theorem faultsOnly_setVariable (number value : Int) (indirect : Bool) :
    FaultsOnly Whole (setVariable number value indirect) := by
  unfold setVariable
  refine .ask (fun _ => failsWith_checkVariable number) fun _ _ => ?_
  split
  · split
    · exact .get fun _ _ => .ask (fun _ => Frame.failsWith_setTop _ _) fun _ _ => .modify _
    · exact .get fun _ _ => .modify _
  split
  · exact .get fun _ _ => .ask (fun _ => Frame.failsWith_setLocal _ _ _) fun _ _ => .modify _
  · refine .get fun workspace _ => ?_
    exact .focus (GameMemory.faultsOnly_writeWord _ _) (fun _ whole => whole) fun _ _ fault => fault

end Workspace

end StoryMachine
