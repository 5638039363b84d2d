import Mathlib.Data.List.Forall2
import StoryMachine.Proofs.Restoring

/-!
# Matching workspaces

Two workspaces match if a saved game cannot tell them apart, save for some bits
of memory. Storing the same result and following the same branch lead from
matching workspaces to matching ones.
-/

namespace StoryMachine

/-! ## What a saved game keeps of calls -/

@[simp] theorem Frame.kept_kept (frame : Frame) : frame.kept.kept = frame.kept :=
  rfl

namespace CallStack

variable {calls other : CallStack}

/-- What a saved game keeps of calls. -/
def kept (calls : CallStack) : CallStack where
  current := calls.current.kept
  callers := calls.callers.map Frame.kept

/-- What a saved game keeps of the calls is what it keeps of each frame. -/
theorem frames_kept (calls : CallStack) : calls.kept.frames = calls.frames.map Frame.kept := by
  unfold kept frames
  rw [List.map_append, List.map_reverse, List.map_singleton]

/-- What a saved game keeps is kept again. -/
theorem kept_kept (calls : CallStack) : calls.kept.kept = calls.kept := by
  unfold kept
  simp only [Frame.kept_kept, List.map_map, CallStack.mk.injEq, true_and]
  exact List.map_congr_left fun frame _ => frame.kept_kept

/-- The frames of the two agree, one by one. -/
def Agrees (calls other : CallStack) : Prop :=
  List.Forall₂ (fun frame other => frame.agrees other) calls.frames other.frames

/-- Calls of which the same is kept agree. -/
theorem agrees_of_kept_eq (same : calls.kept = other.kept) : calls.Agrees other := by
  have frames : calls.frames.map Frame.kept = other.frames.map Frame.kept := by
    rw [← frames_kept, ← frames_kept, same]
  rw [← List.forall₂_eq_eq_eq, List.forall₂_map_left_iff, List.forall₂_map_right_iff] at frames
  exact frames.imp fun frame other => (Frame.agrees_iff_kept frame other).mpr

private theorem pop_kept {frame : Frame} {rest : CallStack} (popped : calls.pop = .ok (frame, rest)) :
    calls.kept.pop = .ok (frame.kept, rest.kept) := by
  unfold pop at popped ⊢
  unfold kept
  cases callers : calls.callers with
  | nil =>
      rw [callers] at popped
      cases popped
  | cons caller others =>
      rw [callers] at popped
      cases popped
      rfl

end CallStack

/-! ## Matching -/

namespace Workspace

variable {apart : Nat → Nat → Prop} {left right : Workspace}

/-- A saved game could not tell the workspaces apart, save for some bits of memory. -/
structure Matches (apart : Nat → Nat → Prop) (left right : Workspace) : Prop where
  calls : left.calls.kept = right.calls.kept
  globals : left.globals = right.globals
  size : left.memory.size = right.memory.size
  bits : ∀ address bit, ¬ apart address bit →
    left.memory.peekFlag address bit = right.memory.peekFlag address bit

private theorem peekFlag_withByte_eq {memory other : GameMemory} (size : memory.size = other.size)
    {address bit : Nat} (place : Nat) (byte : UInt8)
    (same : memory.peekFlag address bit = other.peekFlag address bit) :
    (memory.withByte place byte).peekFlag address bit =
      (other.withByte place byte).peekFlag address bit := by
  unfold Image.peekFlag at same ⊢
  by_cases here : address = place
  · subst here
    rcases Nat.lt_or_ge address memory.size with inside | outside
    · rw [GameMemory.peek_withByte_self inside, GameMemory.peek_withByte_self (size ▸ inside)]
    · rw [GameMemory.withByte_of_size_le outside, GameMemory.withByte_of_size_le (size ▸ outside),
        same]
  · rw [GameMemory.peek_withByte_of_ne here, GameMemory.peek_withByte_of_ne here, same]

/-- The same word is written. -/
theorem Matches.withWord (alike : Matches apart left right) (address : Nat) (value : Int) :
    Matches apart { left with memory := left.memory.withWord address value }
      { right with memory := right.memory.withWord address value } where
  calls := alike.calls
  globals := alike.globals
  size := by
    dsimp only
    rw [GameMemory.size_withWord, GameMemory.size_withWord, alike.size]
  bits := by
    intro place bit unlike
    have first := peekFlag_withByte_eq alike.size address
      (Byte.ofInt (Word.high (Word.ofInt value))) (alike.bits place bit unlike)
    refine peekFlag_withByte_eq ?_ _ _ first
    rw [GameMemory.size_withByte, GameMemory.size_withByte, alike.size]

/-- The same change is made to the current frames, as far as a saved game keeps them. -/
theorem Matches.withCurrent (alike : Matches apart left right) (change : Frame → Frame)
    (keeps : ∀ frame, (change frame).kept = (change frame.kept).kept) :
    Matches apart { left with calls.current := change left.calls.current }
      { right with calls.current := change right.calls.current } where
  calls := by
    obtain ⟨current, callers⟩ := CallStack.mk.inj alike.calls
    unfold CallStack.kept
    dsimp only
    rw [keeps left.calls.current, keeps right.calls.current, current, callers]
  globals := alike.globals
  size := alike.size
  bits := alike.bits

/-- The same result is stored in the same variable. -/
theorem Matches.assigned (alike : Matches apart left right) (number value : Int) :
    Matches apart (left.assigned number value) (right.assigned number value) := by
  unfold Workspace.assigned
  by_cases stack : number = 0
  · rw [if_pos stack, if_pos stack]
    exact alike.withCurrent (·.push value) fun _ => rfl
  rw [if_neg stack, if_neg stack]
  by_cases small : number < firstGlobal
  · rw [if_pos small, if_pos small]
    exact alike.withCurrent
      (fun frame => { frame with locals := frame.locals.set (number - 1).toNat (Word.ofInt value) })
      fun _ => rfl
  · rw [if_neg small, if_neg small]
    have place : left.globalAddress (number - firstGlobal) =
        right.globalAddress (number - firstGlobal) := by
      unfold globalAddress
      rw [alike.globals]
    rw [place]
    exact alike.withWord _ value

private theorem Matches.stored (alike : Matches apart left right) (storeTo : Option Int) (value : Int) :
    Matches apart (left.stored storeTo value) (right.stored storeTo value) := by
  cases storeTo with
  | none => exact alike
  | some target => exact alike.assigned target value

/-- The same branch is followed. -/
theorem Matches.branch? (alike : Matches apart left right) {offset next pc pc' : Int}
    {work work' : Workspace} (leads : left.branch? offset next = some (work, pc))
    (leads' : right.branch? offset next = some (work', pc')) :
    Matches apart work work' ∧ pc = pc' := by
  unfold Workspace.branch? at leads leads'
  by_cases returns : offset = 0 ∨ offset = 1
  · rw [if_pos returns] at leads leads'
    cases popped : left.calls.pop with
    | error failure =>
        rw [popped] at leads
        cases leads
    | ok pair =>
        obtain ⟨frame, calls⟩ := pair
        cases popped' : right.calls.pop with
        | error failure =>
            rw [popped'] at leads'
            cases leads'
        | ok pair' =>
            obtain ⟨frame', calls'⟩ := pair'
            have both := CallStack.pop_kept popped
            rw [alike.calls, CallStack.pop_kept popped'] at both
            obtain ⟨sameFrame, sameCalls⟩ := Prod.mk.inj (Except.ok.inj both)
            have caller : Matches apart { left with calls } { right with calls := calls' } :=
              ⟨sameCalls.symm, alike.globals, alike.size, alike.bits⟩
            have target : frame'.storeTo = frame.storeTo :=
              show frame'.kept.storeTo = frame.kept.storeTo by rw [sameFrame]
            have returnTo : frame'.returnTo = frame.returnTo :=
              show frame'.kept.returnTo = frame.kept.returnTo by rw [sameFrame]
            rw [popped] at leads
            rw [popped'] at leads'
            dsimp only at leads leads'
            split at leads
            · split at leads'
              · cases leads
                cases leads'
                rw [target]
                exact ⟨caller.stored _ _, returnTo.symm⟩
              · cases leads'
            · cases leads
  · rw [if_neg returns] at leads leads'
    cases leads
    cases leads'
    exact ⟨alike, rfl⟩

/-- Workspaces that match follow a branch alike. -/
theorem Matches.follow? (alike : Matches apart left right) {branch : BranchTarget}
    {next pc pc' : Int} {work work' : Workspace}
    (leads : left.follow? branch next = some (work, pc))
    (leads' : right.follow? branch next = some (work', pc')) :
    Matches apart work work' ∧ pc = pc' := by
  unfold Workspace.follow? at leads leads'
  by_cases taken : branch.ifTrue = true
  · rw [if_pos taken] at leads leads'
    exact alike.branch? leads leads'
  · rw [if_neg taken] at leads leads'
    cases leads
    cases leads'
    exact ⟨alike, rfl⟩

end Workspace

end StoryMachine
