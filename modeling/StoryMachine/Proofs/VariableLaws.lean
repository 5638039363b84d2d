import StoryMachine.Proofs.Arithmetic
import StoryMachine.Proofs.LineBuffers

/-!
# Laws of variables

One numbering names the current stack, the locals of the current routine and the
globals. What is put into a variable is what is read from it next, and nothing
else can be told apart by reading: on the stack a value is put and taken, or
through a reference replaced and looked at, the locals stand apart from it, and
no two globals share a byte.
-/

namespace StoryMachine

namespace GameMemory

variable {memory before after : GameMemory} {allowed : Int → Prop}

private theorem ChangedWithin.word_eq (changed : ChangedWithin allowed before after) {address : Int}
    (first : ¬ allowed address) (second : ¬ allowed (address + 1)) :
    after.word address = before.word address := by
  unfold Image.word
  rw [changed.byte_eq first, changed.byte_eq second]

/-- The bytes of a word. -/
def InWord (address place : Int) : Prop :=
  place = address ∨ place = address + 1

private theorem changedWithin_withWord (memory : GameMemory) (address : Nat) (value : Int) :
    ChangedWithin (InWord address) memory (memory.withWord address value) :=
  ((ChangedWithin.refl _ memory).withByte (.inl rfl) _).withByte (.inr rfl) _

end GameMemory

namespace Frame

/-- Setting a local leaves the others as they were. -/
theorem getLocal_set_of_ne {frame : Frame} {number other value : Int} (least : 1 ≤ number)
    (apart : other ≠ number) :
    { frame with locals := frame.locals.set (number - 1).toNat value }.getLocal other =
      frame.getLocal other := by
  unfold getLocal
  rw [List.length_set]
  by_cases first : 1 ≤ other
  · rw [if_pos first, if_pos first, List.getElem?_set_ne (by omega)]
  · rw [if_neg first, if_neg first]

private theorem revises_drop (frame : Frame) (count : Nat) :
    frame.Revises { frame with stack := frame.stack.drop count } :=
  ⟨rfl, rfl, fun _ member => .inl member, fun _ member => .inl (List.mem_of_mem_drop member)⟩

end Frame

namespace Workspace

variable {workspace after : Workspace} {number other value : Int} {indirect reference : Bool}

/-! ## Reading -/

/-- What a variable is read as. -/
def reading (workspace : Workspace) (number : Int) (indirect : Bool) : Result Int := do
  checkVariable number
  if number = 0 then
    if indirect then workspace.calls.current.top else
      let (value, _) ← workspace.calls.current.pop
      return value
  else if number < firstGlobal then workspace.calls.current.getLocal number
  else
    let word ← workspace.memory.word (workspace.globalAddress (number - firstGlobal))
    return word

/-- Whether reading takes the top off the stack. -/
def takesTop (number : Int) (indirect : Bool) : Bool :=
  number = 0 && !indirect

/-- The outcome of a reading: the stack is one value lower if that is what was read. -/
theorem getVariable_eq (workspace : Workspace) (number : Int) (indirect : Bool) :
    getVariable number indirect workspace =
      match workspace.reading number indirect with
      | .ok value => .ok value (workspace.dropTop (takesTop number indirect).toNat)
      | .error failure => .error failure workspace := by
  unfold getVariable reading
  by_cases outside : number < 0 ∨ 255 < number
  · have unchecked : checkVariable number = .fault (.variableOutOfRange number) := if_pos outside
    rw [unchecked]
    rfl
  have checked : checkVariable number = .ok () := if_neg outside
  rw [checked, Action.lift_bind, Result.ok_bind]
  by_cases top : number = 0
  · subst top
    cases indirect with
    | true =>
        refine getVariable_top.trans ?_
        unfold Frame.top
        cases workspace.calls.current.stack <;> rfl
    | false =>
        refine (pop_eq workspace).trans ?_
        unfold Frame.pop
        cases workspace.calls.current.stack <;> rfl
  have stays : takesTop number indirect = false := by simp [takesTop, top]
  rw [stays, if_neg top, if_neg top]
  by_cases small : number < firstGlobal
  · rw [if_pos small, if_pos small]
    cases read : workspace.calls.current.getLocal number with
    | ok value => exact congrFun (congrArg Action.ofResult read) workspace
    | error failure => exact congrFun (congrArg Action.ofResult read) workspace
  · rw [if_neg small, if_neg small]
    cases read : workspace.memory.word (workspace.globalAddress (number - firstGlobal)) with
    | ok word => exact getGlobal_of_word read
    | error failure =>
        unfold getGlobal
        rw [Action.get_bind, read]
        rfl

private theorem answer_getVariable (workspace : Workspace) (number : Int) (indirect : Bool) :
    (getVariable number indirect).answer workspace = workspace.reading number indirect := by
  unfold Action.answer
  rw [getVariable_eq]
  cases workspace.reading number indirect <;> rfl

private theorem reading_local (least : 1 ≤ number) (small : number < firstGlobal) :
    workspace.reading number indirect = workspace.calls.current.getLocal number := by
  have checked : checkVariable number = .ok () := by
    unfold firstGlobal at small
    exact if_neg (by omega)
  rw [reading, checked, Result.ok_bind, if_neg (by omega), if_pos small]

private theorem reading_global (large : firstGlobal ≤ number) (most : number ≤ 255) :
    workspace.reading number indirect = do
      let word ← workspace.memory.word (workspace.globalAddress (number - firstGlobal))
      return word := by
  unfold firstGlobal at large
  have checked : checkVariable number = .ok () := if_neg (by omega)
  rw [reading, checked, Result.ok_bind, if_neg (by omega), if_neg (by unfold firstGlobal; omega)]

/-! ## Writing -/

/-- The table of the 240 globals lies in dynamic memory. -/
structure HoldsGlobals (workspace : Workspace) : Prop where
  start : 0 ≤ workspace.globals
  dynamic : workspace.globals + 2 * 240 ≤ workspace.memory.dynamicEnd
  inside : workspace.globals + 2 * 240 ≤ workspace.memory.size

/-- There is a variable of the number to write to. A reference to the stack needs a value on it. -/
def Present (workspace : Workspace) (number : Int) (indirect : Bool) : Prop :=
  (number = 0 ∧ (indirect = true → workspace.calls.current.stack ≠ [])) ∨
  (1 ≤ number ∧ number < firstGlobal ∧ number ≤ workspace.calls.current.locals.length) ∨
  (firstGlobal ≤ number ∧ number ≤ 255)

/-- The ways in which a workspace is left with a value in a variable. -/
inductive Written (workspace : Workspace) (value : Int) : Int → Bool → Workspace → Prop
  | push : workspace.Written value 0 false
      { workspace with
        calls.current.stack := (Word.ofInt value : Int) :: workspace.calls.current.stack }
  | top {old : Int} {rest : List Int} (stack : workspace.calls.current.stack = old :: rest) :
      workspace.Written value 0 true
        { workspace with calls.current.stack := (Word.ofInt value : Int) :: rest }
  | ofLocal {number : Int} {indirect : Bool} (least : 1 ≤ number) (small : number < firstGlobal)
      (present : number ≤ workspace.calls.current.locals.length) :
      workspace.Written value number indirect
        { workspace with
          calls.current.locals :=
            workspace.calls.current.locals.set (number - 1).toNat (Word.ofInt value) }
  | ofGlobal {number : Int} {indirect : Bool} {place : Nat} (large : firstGlobal ≤ number)
      (most : number ≤ 255) (found : workspace.globalAddress (number - firstGlobal) = place)
      (inside : place + 1 < workspace.memory.size) :
      workspace.Written value number indirect
        { workspace with memory := workspace.memory.withWord place value }

/-- Every global is inside the memory that can be written. -/
theorem HoldsGlobals.exists_place (globals : workspace.HoldsGlobals) (large : firstGlobal ≤ number)
    (most : number ≤ 255) :
    ∃ place : Nat, workspace.globalAddress (number - firstGlobal) = place ∧
      (place : Int) + 1 < workspace.memory.dynamicEnd ∧ place + 1 < workspace.memory.size := by
  obtain ⟨start, dynamic, inside⟩ := globals
  unfold firstGlobal at large
  have positive : 0 ≤ workspace.globalAddress (number - firstGlobal) := by
    unfold globalAddress firstGlobal
    omega
  obtain ⟨place, found⟩ := Int.eq_ofNat_of_zero_le positive
  refine ⟨place, found, ?_⟩
  unfold globalAddress firstGlobal at found
  omega

private theorem HoldsGlobals.exists_word (globals : workspace.HoldsGlobals) (large : firstGlobal ≤ number)
    (most : number ≤ 255) :
    ∃ word, workspace.memory.word (workspace.globalAddress (number - firstGlobal)) = .ok word := by
  obtain ⟨place, found, -, inside⟩ := globals.exists_place large most
  have first : workspace.memory.Holds place := ⟨Int.natCast_nonneg _, by omega⟩
  have second : workspace.memory.Holds (place + 1) := ⟨by omega, by omega⟩
  rw [found]
  exact ⟨_, Image.word_of_bytes (Image.byte_of_holds first) (Image.byte_of_holds second)⟩

/-- A variable that is there takes the value. -/
theorem setVariable_of_present (globals : workspace.HoldsGlobals)
    (present : workspace.Present number indirect) (value : Int) :
    ∃ after, setVariable number value indirect workspace = .ok () after ∧
      workspace.Written value number indirect after := by
  obtain ⟨rfl, some⟩ | ⟨least, small, few⟩ | ⟨large, most⟩ := present
  · cases indirect with
    | false => exact ⟨_, rfl, .push⟩
    | true =>
        obtain ⟨old, rest, stack⟩ := List.exists_cons_of_ne_nil (some rfl)
        refine ⟨_, ?_, .top stack⟩
        rw [setVariable_top, changed, if_pos rfl, stack]
        rfl
  · refine ⟨_, ?_, .ofLocal least small few⟩
    rw [setVariable_local ⟨least, small⟩, setLocal_eq ⟨least, few⟩]
  · obtain ⟨place, found, dynamic, inside⟩ := globals.exists_place large most
    refine ⟨_, ?_, .ofGlobal large most found inside⟩
    rw [setVariable_global ⟨large, most⟩, setGlobal, Action.get_bind, found]
    simp only [onMemory, Action.focus, GameMemory.writeWord_of_inside value dynamic inside]

/-- A variable that is not there takes nothing: the write is a fault, and all stays as it was. -/
theorem setVariable_of_absent (absent : ¬ workspace.Present number indirect) (value : Int) :
    ∃ failure : Failure, failure.HasKind .stack ∧
      setVariable number value indirect workspace = .error failure workspace := by
  unfold Present at absent
  simp only [not_or, not_and] at absent
  obtain ⟨noStack, noLocal, noGlobal⟩ := absent
  by_cases outside : number < 0 ∨ 255 < number
  · have unchecked : checkVariable number = .fault (.variableOutOfRange number) := if_pos outside
    refine ⟨.ofCause (.variableOutOfRange number), ⟨_, rfl, rfl⟩, ?_⟩
    rw [setVariable, unchecked]
    rfl
  by_cases top : number = 0
  · subst top
    have empty : indirect = true ∧ workspace.calls.current.stack = [] := by
      simpa only [Classical.not_imp, not_not] using noStack rfl
    obtain ⟨rfl, empty⟩ := empty
    refine ⟨.ofCause .replaceEmpty, ⟨_, rfl, rfl⟩, ?_⟩
    rw [setVariable_top, empty]
  by_cases small : number < firstGlobal
  · have least : 1 ≤ number := by omega
    have missing : ¬ (1 ≤ number ∧ number ≤ workspace.calls.current.locals.length) :=
      fun both => noLocal least small both.2
    refine ⟨.ofCause (.noSuchLocal number workspace.calls.current.locals.length), ⟨_, rfl, rfl⟩, ?_⟩
    rw [setVariable_local ⟨least, small⟩, Frame.setLocal, if_neg missing]
    rfl
  · exact absurd (show number ≤ 255 by omega) (noGlobal (by omega))

namespace Written

/-- What was written is read. -/
theorem reading_self (written : workspace.Written value number indirect after) :
    after.reading number indirect = .ok (value % 65536) := by
  rw [← Word.natCast_ofInt]
  cases written with
  | push => rfl
  | top stack => rfl
  | ofLocal least small present =>
      rw [reading_local least small, Frame.getLocal, if_pos least,
        List.getElem?_set_self (by omega)]
  | ofGlobal large most found inside =>
      have address (memory : GameMemory) :
          globalAddress { workspace with memory } (number - firstGlobal) = _ := found
      rw [reading_global large most, address, GameMemory.word_withWord inside]
      rfl

/-- No other variable is read as anything else than before. -/
theorem reading_of_ne (written : workspace.Written value number indirect after)
    (apart : other ≠ number) :
    after.reading other reference = workspace.reading other reference := by
  refine congrArg (checkVariable other >>= ·) (funext fun _ => ?_)
  cases written with
  | push =>
      rw [if_neg apart, if_neg apart]
      rfl
  | top stack =>
      rw [if_neg apart, if_neg apart]
      rfl
  | ofLocal least small present =>
      by_cases top : other = 0
      · rw [if_pos top, if_pos top]
        unfold Frame.pop
        cases workspace.calls.current.stack <;> rfl
      by_cases lower : other < firstGlobal
      · rw [if_neg top, if_neg top, if_pos lower, if_pos lower]
        exact Frame.getLocal_set_of_ne least apart
      · rw [if_neg top, if_neg top, if_neg lower, if_neg lower]
        rfl
  | @ofGlobal _ _ place large most found inside =>
      by_cases top : other = 0
      · rw [if_pos top, if_pos top]
      by_cases lower : other < firstGlobal
      · rw [if_neg top, if_neg top, if_pos lower, if_pos lower]
      · rw [if_neg top, if_neg top, if_neg lower, if_neg lower]
        have away : workspace.globalAddress (other - firstGlobal) + 1 < place ∨
            place + 1 < workspace.globalAddress (other - firstGlobal) := by
          rw [← found]
          unfold globalAddress
          omega
        have same : (workspace.memory.withWord place value).word
              (workspace.globalAddress (other - firstGlobal)) =
            workspace.memory.word (workspace.globalAddress (other - firstGlobal)) := by
          apply (workspace.memory.changedWithin_withWord place value).word_eq
          · unfold GameMemory.InWord
            omega
          · unfold GameMemory.InWord
            omega
        exact congrArg (· >>= fun word : Nat => (return (word : Int) : Result Int)) same

/-- A value that was put on the stack is taken off it again, all else stays where it is. -/
theorem dropTop_takesTop (written : workspace.Written value number false after) :
    after.dropTop (takesTop number false).toNat = if number = 0 then workspace else after := by
  cases written with
  | push => rfl
  | ofLocal least small present =>
      have other : number ≠ 0 := by omega
      rw [if_neg other, takesTop, decide_eq_false other]
      rfl
  | ofGlobal large most found inside =>
      have other : number ≠ 0 := by
        unfold firstGlobal at large
        omega
      rw [if_neg other, takesTop, decide_eq_false other]
      rfl

/-- Writing through a reference leaves the stack as high as it was. -/
theorem stack_length (written : workspace.Written value number true after) :
    after.calls.current.stack.length = workspace.calls.current.stack.length := by
  cases written with
  | top stack => rw [stack, List.length_cons, List.length_cons]
  | ofLocal least small present => rfl
  | ofGlobal large most found inside => rfl

end Written

/-! ## What changes -/

/-- A workspace in which nothing has changed that is not of the kind of a variable: the locals and
the stack of the current frame, or the two bytes of a global. -/
inductive ChangedAt (workspace : Workspace) (number : Int) : Workspace → Prop
  | frame {frame : Frame} (small : number < firstGlobal)
      (revises : workspace.calls.current.Revises frame) :
      workspace.ChangedAt number { workspace with calls.current := frame }
  | global {memory : GameMemory} (large : firstGlobal ≤ number)
      (changed : workspace.memory.ChangedWithin
        (GameMemory.InWord (workspace.globalAddress (number - firstGlobal))) memory) :
      workspace.ChangedAt number { workspace with memory }

private theorem ChangedAt.refl (workspace : Workspace) (number : Int) :
    workspace.ChangedAt number workspace := by
  by_cases small : number < firstGlobal
  · exact .frame small (workspace.calls.current.revises_drop 0)
  · exact .global (by omega) (.refl _ _)

private theorem changedAt_dropTop (workspace : Workspace) (number : Int) (indirect : Bool) :
    workspace.ChangedAt number (workspace.dropTop (takesTop number indirect).toNat) := by
  cases takes : takesTop number indirect with
  | false => exact .refl workspace number
  | true =>
      have top : number = 0 := by
        simp only [takesTop, Bool.and_eq_true, decide_eq_true_eq] at takes
        exact takes.1
      subst top
      exact .frame (by decide) (workspace.calls.current.revises_drop 1)

private theorem Written.changedAt (written : workspace.Written value number indirect after) :
    workspace.ChangedAt number after := by
  cases written with
  | push => exact .frame (by decide) (.push value)
  | @top old rest stack =>
      have replaced : workspace.calls.current.setTop value =
          .ok { workspace.calls.current with stack := (Word.ofInt value : Int) :: rest } := by
        rw [Frame.setTop, stack]
      exact .frame (by decide) (.setTop replaced)
  | ofLocal least small present =>
      exact .frame small (.setLocal (if_pos ⟨least, present⟩))
  | ofGlobal large most found inside =>
      refine .global large ?_
      rw [found]
      exact workspace.memory.changedWithin_withWord _ value

/-! ## Laws -/

private theorem bounds_of_checkVariable (checked : checkVariable number = .ok ()) :
    0 ≤ number ∧ number ≤ 255 := by
  unfold checkVariable at checked
  split at checked
  · cases checked
  · omega

/-- No more can go wrong when a variable is read than that it is missing: globals are always
there. -/
theorem failsWith_reading (globals : workspace.HoldsGlobals) (number : Int) (indirect : Bool) :
    Result.FailsWith (Failure.HasKind .stack) (workspace.reading number indirect) := by
  unfold reading
  rw [Result.failsWith_bind]
  refine ⟨failsWith_checkVariable number, fun _ checked => ?_⟩
  have bounds := bounds_of_checkVariable checked
  split
  · split
    · exact workspace.calls.current.failsWith_top
    · rw [Result.failsWith_bind]
      exact ⟨workspace.calls.current.failsWith_pop, fun _ _ => Result.failsWith_pure _⟩
  split
  · exact workspace.calls.current.failsWith_getLocal number
  · obtain ⟨word, read⟩ := globals.exists_word (show firstGlobal ≤ number by omega) bounds.2
    rw [read]
    exact Result.failsWith_ok _

/-- A write either leaves the value in the variable or is a fault that leaves all as it was. -/
theorem setVariable_cases (globals : workspace.HoldsGlobals) (number value : Int)
    (indirect : Bool) :
    (∃ after, setVariable number value indirect workspace = .ok () after ∧
      workspace.Written value number indirect after) ∨
    ∃ failure : Failure, failure.HasKind .stack ∧
      setVariable number value indirect workspace = .error failure workspace := by
  by_cases present : workspace.Present number indirect
  · exact .inl (setVariable_of_present globals present value)
  · exact .inr (setVariable_of_absent present value)

private theorem written_of_setVariable (globals : workspace.HoldsGlobals)
    (wrote : setVariable number value indirect workspace = .ok () after) :
    workspace.Written value number indirect after := by
  obtain ⟨other, wrote', written⟩ | ⟨failure, -, failed⟩ :=
    setVariable_cases globals number value indirect
  · rw [wrote] at wrote'
    cases wrote'
    exact written
  · rw [wrote] at failed
    cases failed

private theorem changedAt_setVariable (globals : workspace.HoldsGlobals) (number value : Int)
    (indirect : Bool) :
    workspace.ChangedAt number ((setVariable number value indirect).finalState workspace) := by
  obtain ⟨after, wrote, written⟩ | ⟨failure, -, failed⟩ :=
    setVariable_cases globals number value indirect
  · rw [Action.finalState_of_ok wrote]
    exact written.changedAt
  · rw [Action.finalState_of_error failed]
    exact .refl workspace number

private theorem changedAt_getVariable (workspace : Workspace) (number : Int) (indirect : Bool) :
    workspace.ChangedAt number ((getVariable number indirect).finalState workspace) := by
  have read := getVariable_eq workspace number indirect
  cases answer : workspace.reading number indirect with
  | ok value =>
      rw [answer] at read
      rw [Action.finalState_of_ok read]
      exact workspace.changedAt_dropTop number indirect
  | error failure =>
      rw [answer] at read
      rw [Action.finalState_of_error read]
      exact .refl workspace number

private theorem setVariable_eq_error (globals : workspace.HoldsGlobals) {failure : Failure}
    (failed : setVariable number value indirect workspace = .error failure after) :
    failure.HasKind .stack ∧ after = workspace := by
  obtain ⟨other, wrote, -⟩ | ⟨reason, kind, refused⟩ :=
    setVariable_cases globals number value indirect
  · rw [wrote] at failed
    cases failed
  · rw [refused] at failed
    cases failed
    exact ⟨kind, rfl⟩

private theorem getVariable_eq_error (globals : workspace.HoldsGlobals) {failure : Failure}
    (failed : getVariable number indirect workspace = .error failure after) :
    failure.HasKind .stack ∧ after = workspace := by
  rw [getVariable_eq] at failed
  cases answer : workspace.reading number indirect with
  | ok value =>
      rw [answer] at failed
      cases failed
  | error reason =>
      rw [answer] at failed
      cases failed
      exact ⟨failsWith_reading globals number indirect _ answer, rfl⟩

/-- What holds of a variable, of whatever kind, when a value is put into it. -/
structure VariableLaws (workspace : Workspace) (number value : Int) : Prop where
  /-- A variable that is there takes any value. -/
  succeeds : ∀ indirect, workspace.Present number indirect ↔
    ∃ after, setVariable number value indirect workspace = .ok () after
  /-- The value is read back, and on the stack all is as it was before the pair. -/
  read_back : ∀ after, setVariable number value false workspace = .ok () after →
    getVariable number false after = .ok (value % 65536) (if number = 0 then workspace else after)
  /-- Through a reference it is read back in its place, and the stack is as high as it was. -/
  read_back_indirect : ∀ after, setVariable number value true workspace = .ok () after →
    getVariable number true after = .ok (value % 65536) after ∧
      after.calls.current.stack.length = workspace.calls.current.stack.length
  /-- What any other variable is read as, or its fault, is the same as before. -/
  apart : ∀ other, other ≠ number → ∀ indirect reference,
    (getVariable other reference).answer
        ((setVariable number value indirect).finalState workspace) =
      (getVariable other reference).answer workspace
  /-- Only the current frame changes, or the two bytes of a global. -/
  confined : ∀ indirect,
    workspace.ChangedAt number ((setVariable number value indirect).finalState workspace) ∧
      workspace.ChangedAt number ((getVariable number indirect).finalState workspace)
  /-- What fails is a fault of the stack and changes nothing. -/
  failing : ∀ indirect failure after,
    setVariable number value indirect workspace = .error failure after ∨
        getVariable number indirect workspace = .error failure after →
      failure.HasKind .stack ∧ after = workspace

/-- Putting a value into a variable and reading it obey the laws, whatever the variable is. -/
theorem variable_laws (globals : workspace.HoldsGlobals) (number value : Int) :
    workspace.VariableLaws number value where
  succeeds := by
    intro indirect
    constructor
    · intro present
      obtain ⟨after, wrote, -⟩ := setVariable_of_present globals present value
      exact ⟨after, wrote⟩
    · rintro ⟨after, wrote⟩
      by_contra absent
      obtain ⟨failure, -, failed⟩ := setVariable_of_absent absent value
      rw [wrote] at failed
      cases failed
  read_back := by
    intro after wrote
    have written := written_of_setVariable globals wrote
    rw [getVariable_eq, written.reading_self, ← written.dropTop_takesTop]
  read_back_indirect := by
    intro after wrote
    have written := written_of_setVariable globals wrote
    have stays : takesTop number true = false := Bool.and_false _
    rw [getVariable_eq, written.reading_self, stays]
    exact ⟨rfl, written.stack_length⟩
  apart := by
    intro other apart indirect reference
    rw [answer_getVariable, answer_getVariable]
    obtain ⟨after, wrote, written⟩ | ⟨failure, -, failed⟩ :=
      setVariable_cases globals number value indirect
    · rw [Action.finalState_of_ok wrote]
      exact written.reading_of_ne apart
    · rw [Action.finalState_of_error failed]
  confined := fun indirect =>
    ⟨changedAt_setVariable globals number value indirect,
      workspace.changedAt_getVariable number indirect⟩
  failing := by
    rintro indirect failure after (failed | failed)
    · exact setVariable_eq_error globals failed
    · exact getVariable_eq_error globals failed

/-- A workspace with the globals at address 32, two locals and one value on the stack. -/
def shelves : Workspace where
  memory := { bytes := Array.replicate 520 0, dynamicEnd := 512, highStart := 512 }
  calls.current := { locals := [7, 8], stack := [5] }
  globals := 32

/-- Minus one is read back as the greatest word from the last global; the second local is as it was
and a third is missing, before as after. -/
theorem variable_laws_shelves :
    shelves.HoldsGlobals ∧
      (∃ after, setVariable 255 (-1) false shelves = .ok () after ∧
        getVariable 255 false after = .ok 65535 after) ∧
      (getVariable 2).answer ((setVariable 255 (-1)).finalState shelves) = .ok 8 ∧
      (getVariable 3).answer ((setVariable 255 (-1)).finalState shelves) =
        .error (.ofCause (.noSuchLocal 3 2)) := by
  have size : shelves.memory.size = 520 := Array.size_replicate
  have globals : shelves.HoldsGlobals := ⟨by decide, by decide, by rw [size]; decide⟩
  have laws := variable_laws globals 255 (-1)
  obtain ⟨after, wrote⟩ := (laws.succeeds false).mp (.inr (.inr ⟨by decide, by decide⟩))
  refine ⟨globals, ⟨after, wrote, laws.read_back after wrote⟩, ?_, ?_⟩
  · rw [laws.apart 2 (by decide) false false]
    rfl
  · rw [laws.apart 3 (by decide) false false]
    rfl

end Workspace

end StoryMachine
