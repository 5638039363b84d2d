import StoryMachine.Proofs.Edits

/-!
# Changes of a workspace

Reading and writing variables and printing change a workspace in two ways only: a
byte of dynamic memory is written, or the locals and the stack of the current
frame are revised. Where a call returns to is fixed when its frame is made.
-/

namespace StoryMachine

open StoryMachine.Action (Ensures Keeps)

namespace Word

/-- A number that is an unsigned word. -/
def IsWord (value : Int) : Prop :=
  0 ≤ value ∧ value < 65536

/-- What is made a word is one. -/
theorem isWord_ofInt (value : Int) : IsWord (ofInt value) := by
  have bound := ofInt_lt value
  unfold IsWord
  omega

end Word

namespace Frame

/-- The same call with other values in its locals and on its stack; what is new is a word. -/
structure Revises (before after : Frame) : Prop where
  linkage : after = { before with locals := after.locals, stack := after.stack }
  locals_length : after.locals.length = before.locals.length
  local_words : ∀ value ∈ after.locals, value ∈ before.locals ∨ Word.IsWord value
  stack_words : ∀ value ∈ after.stack, value ∈ before.stack ∨ Word.IsWord value

namespace Revises

variable {frame after : Frame}

/-- A value on the stack revises a frame. -/
theorem push (value : Int) : Revises frame (frame.push value) where
  linkage := rfl
  locals_length := rfl
  local_words := fun _ member => .inl member
  stack_words := by
    intro other member
    rcases List.mem_cons.mp member with rfl | member
    · exact .inr (Word.isWord_ofInt value)
    · exact .inl member

private theorem pop {value : Int} (popped : frame.pop = .ok (value, after)) : Revises frame after := by
  unfold Frame.pop at popped
  cases stack : frame.stack with
  | nil => simp only [stack, Result.fault, reduceCtorEq] at popped
  | cons top rest =>
      simp only [stack, Except.ok.injEq, Prod.mk.injEq] at popped
      obtain ⟨-, rfl⟩ := popped
      exact ⟨rfl, rfl, fun _ member => .inl member,
        fun _ member => .inl (stack ▸ List.mem_cons_of_mem top member)⟩

/-- Another top of the stack revises a frame. -/
theorem setTop {value : Int} (replaced : frame.setTop value = .ok after) :
    Revises frame after := by
  unfold Frame.setTop at replaced
  cases stack : frame.stack with
  | nil => simp only [stack, Result.fault, reduceCtorEq] at replaced
  | cons top rest =>
      simp only [stack, Except.ok.injEq] at replaced
      subst replaced
      refine ⟨rfl, rfl, fun _ member => .inl member, ?_⟩
      intro other member
      rcases List.mem_cons.mp member with rfl | member
      · exact .inr (Word.isWord_ofInt value)
      · exact .inl (stack ▸ List.mem_cons_of_mem top member)

/-- Another value of a local revises a frame. -/
theorem setLocal {number value : Int} (assigned : frame.setLocal number value = .ok after) :
    Revises frame after := by
  unfold Frame.setLocal at assigned
  by_cases present : 1 ≤ number ∧ number ≤ frame.locals.length
  · simp only [present, and_self, ↓reduceIte, Except.ok.injEq] at assigned
    subst assigned
    refine ⟨rfl, List.length_set, ?_, fun _ member => .inl member⟩
    intro other member
    rcases List.mem_or_eq_of_mem_set member with member | rfl
    · exact .inl member
    · exact .inr (Word.isWord_ofInt value)
  · simp only [present, ↓reduceIte, Result.fault, reduceCtorEq] at assigned

end Revises

end Frame

namespace CallStack

/-- The frames from the current one to the outermost. -/
def innermostFirst (calls : CallStack) : List Frame :=
  calls.current :: calls.callers

/-- Some calls have been left. -/
def LeftFrom (after before : CallStack) : Prop :=
  after.innermostFirst <:+ before.innermostFirst

/-- To take a frame off is to leave a routine. -/
theorem leftFrom_pop {calls after : CallStack} {frame : Frame}
    (popped : calls.pop = .ok (frame, after)) : after.LeftFrom calls := by
  unfold pop at popped
  cases callers : calls.callers with
  | nil => simp only [callers, Result.fault, reduceCtorEq] at popped
  | cons caller rest =>
      simp only [callers, Except.ok.injEq, Prod.mk.injEq] at popped
      obtain ⟨-, rfl⟩ := popped
      unfold LeftFrom innermostFirst
      rw [callers]
      exact List.suffix_cons _ _

/-- To unwind calls is to leave routines. -/
theorem leftFrom_unwind {calls after : CallStack} {depth : Int}
    (unwound : calls.unwind depth = .ok after) : after.LeftFrom calls := by
  unfold unwind at unwound
  by_cases present : 1 ≤ depth ∧ depth ≤ calls.depth
  · simp only [present, and_self, ↓reduceIte] at unwound
    have suffix := List.drop_suffix (calls.depth - depth.toNat) calls.innermostFirst
    unfold innermostFirst at suffix
    cases kept : (calls.current :: calls.callers).drop (calls.depth - depth.toNat) with
    | nil =>
        simp only [kept, Except.ok.injEq] at unwound
        exact unwound ▸ List.suffix_refl _
    | cons current callers =>
        simp only [kept, Except.ok.injEq] at unwound
        rw [kept] at suffix
        exact unwound ▸ suffix
  · simp only [present, ↓reduceIte, Result.fault, reduceCtorEq] at unwound

end CallStack

namespace Workspace

/-- A property of a workspace that survives a byte written from an address on and a revised frame.
It knows that the globals do not lie below that address. -/
structure SurvivesChangesFrom (least : Nat) (K : Workspace → Prop) : Prop where
  write : ∀ (workspace : Workspace) (address : Nat) (byte : UInt8), least ≤ address →
    (address : Int) < workspace.memory.dynamicEnd → address < workspace.memory.size →
      K workspace → K { workspace with memory := workspace.memory.withByte address byte }
  revise : ∀ (workspace : Workspace) (frame : Frame), workspace.calls.current.Revises frame →
    K workspace → K { workspace with calls.current := frame }
  globals : ∀ workspace, K workspace → least = 0 ∨ least ≤ workspace.globals

variable {α : Type} {K : Workspace → Prop} {least : Nat}

/-- What every invariant of memory ensures, an invariant of workspaces does. -/
theorem ensures_onMemory {Q : α → Prop} {action : GameMemory.Edit α}
    (survives : SurvivesChangesFrom least K)
    (edit : ∀ {J : GameMemory → Prop}, GameMemory.SurvivesWritesFrom least J →
      Ensures J Q action) :
    Ensures K Q (onMemory action) := by
  refine .focus (fun _ _ _ => rfl) (fun _ => rfl) fun workspace _ => edit ?_
  intro memory address byte above dynamic inside holds
  exact survives.write { workspace with memory } address byte above dynamic inside holds

/-- Putting a value on the stack keeps what survives the changes of a workspace. -/
theorem keeps_push (survives : SurvivesChangesFrom least K) (value : Int) : Keeps K (push value) :=
  fun workspace holds => .of_ok rfl (survives.revise workspace _ (.push value) holds) trivial

/-- Taking a value off the stack keeps what survives the changes of a workspace. -/
theorem keeps_pop (survives : SurvivesChangesFrom least K) : Keeps K pop := by
  intro workspace holds
  refine .after rfl (.lift workspace.calls.current.pop holds ?_)
  rintro ⟨value, frame⟩ popped
  exact .of_ok rfl (survives.revise workspace frame (.pop popped) holds) trivial

/-- Reading a global changes nothing. -/
theorem keeps_getGlobal (index : Int) : Keeps K (getGlobal index) :=
  .get fun _ _ => .bind (.lift fun _ _ => trivial) fun _ _ => .pure trivial

private theorem keeps_setGlobal (survives : SurvivesChangesFrom least K) {index : Int}
    (positive : 0 ≤ index) (value : Int) : Keeps K (setGlobal index value) := by
  refine .get fun workspace holds => ensures_onMemory survives fun edit =>
    GameMemory.keeps_writeWord edit _ _ ?_
  have behind := survives.globals workspace holds
  unfold globalAddress
  omega

/-- Reading a variable keeps what survives the changes of a workspace. -/
theorem keeps_getVariable (survives : SurvivesChangesFrom least K) (number : Int)
    (indirect : Bool) : Keeps K (getVariable number indirect) := by
  unfold getVariable
  refine .bind (.lift fun _ _ => trivial) fun _ _ => ?_
  split
  · split
    · exact .get fun _ _ => .lift fun _ _ => trivial
    · exact keeps_pop survives
  split
  · exact .get fun _ _ => .lift fun _ _ => trivial
  · exact keeps_getGlobal _

/-- Writing a variable keeps what survives the changes of a workspace. -/
theorem keeps_setVariable (survives : SurvivesChangesFrom least K) (number value : Int)
    (indirect : Bool) : Keeps K (setVariable number value indirect) := by
  unfold setVariable
  refine .bind (.lift fun _ _ => trivial) fun _ _ => ?_
  split
  · split
    · intro workspace holds
      refine .after rfl (.lift (workspace.calls.current.setTop value) holds ?_)
      intro frame replaced
      exact .of_ok rfl (survives.revise workspace frame (.setTop replaced) holds) trivial
    · exact keeps_push survives value
  split
  · intro workspace holds
    refine .after rfl (.lift (workspace.calls.current.setLocal number value) holds ?_)
    intro frame assigned
    exact .of_ok rfl (survives.revise workspace frame (.setLocal assigned) holds) trivial
  · exact keeps_setGlobal survives (by omega) value

end Workspace

end StoryMachine
