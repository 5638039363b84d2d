import StoryMachine.Proofs.Saving
import StoryMachine.Proofs.SavedGames

/-!
# Which failures a restore meets

Reading a saved game fails only when a rule of its format is broken, and asking
the storage for one fails only when the file system refuses. Both are logged and
answered, so that nothing fails before a game is put in place.
-/

namespace StoryMachine

namespace Action

variable {σ τ α β : Type} {P : Failure → Prop}

/-- Every failure of the action has a property. -/
def FailsWith (P : Failure → Prop) (action : Action σ α) : Prop :=
  ∀ (s s' : σ) (failure : Failure), action s = .error failure s' → P failure

namespace FailsWith

/-- An answer alone does not fail. -/
theorem pure (a : α) : FailsWith P (pure a : Action σ α) := by
  intro s s' failure failed
  cases failed

/-- A change of the state does not fail. -/
theorem modify (change : σ → σ) : FailsWith P (modify change : Action σ PUnit) := by
  intro s s' failure failed
  cases failed

/-- Asking for the state does not fail. -/
theorem get : FailsWith P (get : Action σ σ) := by
  intro s s' failure failed
  cases failed

/-- An action that asks a question fails as the question does. -/
theorem lift {result : Result α} (fails : ∀ failure, result = .error failure → P failure) :
    FailsWith P (result : Action σ α) := by
  intro s s' failure failed
  cases outcome : result with
  | ok a =>
      rw [outcome] at failed
      cases failed
  | error other =>
      rw [outcome] at failed
      cases failed
      exact fails failure outcome

/-- An action fails as its first part does or as its rest does. -/
theorem bind {first : Action σ α} {rest : α → Action σ β} (head : FailsWith P first)
    (tail : ∀ a, FailsWith P (rest a)) : FailsWith P (first >>= rest) := by
  intro s s' failure failed
  cases begun : first s with
  | ok a between =>
      rw [bind_of_ok begun] at failed
      exact tail a between s' failure failed
  | error other between =>
      rw [bind_of_error begun] at failed
      cases failed
      exact head s s' failure begun

private theorem raised {cause : Cause} (allowed : P (.ofCause cause)) :
    FailsWith P (Action.fault cause : Action σ α) := by
  rintro s s' failure ⟨⟩
  exact allowed

/-- To end in a breach that has the property is to fail with it. -/
theorem refused {breach : Breach} (allowed : P (.breach breach)) :
    FailsWith P (Action.refuse breach : Action σ α) := by
  rintro s s' failure ⟨⟩
  exact allowed

private theorem fault (cause : Cause) :
    FailsWith Failure.IsFault (Action.fault cause : Action σ α) :=
  .raised ⟨_, rfl⟩

/-- A check that ends in a fault with the property. -/
theorem barred {condition : Prop} [Decidable condition] {cause : Cause}
    {rest : PUnit → Action σ α} (allowed : P (.ofCause cause)) (tail : FailsWith P (rest ())) :
    FailsWith P (if condition then Action.fault cause >>= rest else rest ()) := by
  split
  · exact .bind (.raised allowed) fun _ => tail
  · exact tail

/-- A check that ends in a fault. -/
theorem excluded {condition : Prop} [Decidable condition] {cause : Cause}
    {rest : PUnit → Action σ α} (tail : FailsWith Failure.IsFault (rest ())) :
    FailsWith Failure.IsFault (if condition then Action.fault cause >>= rest else rest ()) :=
  .barred ⟨_, rfl⟩ tail

/-- What is made of an answer does not fail. -/
theorem answered {action : Action σ α} (fails : FailsWith P action) (answer : α → β) :
    FailsWith P (do return answer (← action)) :=
  .bind fails fun _ => .pure _

/-- An action on a part of the state fails as it does on the part. -/
theorem focus [Inhabited τ] {part : σ → τ} {withPart : τ → σ → σ} {action : Action τ α}
    (fails : FailsWith P action) : FailsWith P (action.focus part withPart) := by
  intro s s' failure failed
  unfold Action.focus at failed
  cases outcome : action (part s) with
  | ok a t => simp only [outcome, reduceCtorEq] at failed
  | error reason t =>
      simp only [outcome, EStateM.Result.error.injEq] at failed
      exact failed.1 ▸ fails (part s) t reason outcome

private theorem weaken {Q : Failure → Prop} {action : Action σ α} (fails : FailsWith P action)
    (weaker : ∀ failure, P failure → Q failure) : FailsWith Q action :=
  fun s s' failure failed => weaker failure (fails s s' failure failed)

end FailsWith

end Action

open StoryMachine.Action (FailsWith)

private theorem Result.isFault_of_check {condition : Prop} [Decidable condition] {cause : Cause}
    {failure : Failure}
    (failed : (if condition then Result.fault cause else pure () : Result Unit) = .error failure) :
    failure.IsFault := by
  split at failed
  · exact Result.isFault_of_fault failed
  · cases failed

/-! ## Reading saved games -/

namespace Difference

private theorem unpack_eq_error {data : List UInt8} {failure : Failure}
    (failed : unpack data = .error failure) : failure.HasKind .saveRestore := by
  fun_induction unpack data with
  | case1 => cases failed
  | case2 => exact Result.hasKind_of_fault failed
  | case3 more rest ih =>
      rcases Result.bind_eq_error failed with failed | ⟨unpacked, -, failed⟩
      · exact ih failed
      · cases failed
  | case4 byte rest nonzero ih =>
      rcases Result.bind_eq_error failed with failed | ⟨unpacked, -, failed⟩
      · exact ih failed
      · cases failed

/-- A difference that cannot be undone breaks a rule of saved games. -/
theorem decompress_eq_error {data fresh : List UInt8} {failure : Failure}
    (failed : decompress data fresh = .error failure) : failure.HasKind .saveRestore := by
  unfold decompress at failed
  rcases Result.bind_eq_error failed with failed | ⟨difference, -, failed⟩
  · exact unpack_eq_error failed
  · dsimp only at failed
    split at failed
    · exact Result.hasKind_of_fault failed
    · cases failed

end Difference

namespace SaveFile

open Chunk

private theorem decodeFrames_eq_error {outermost : Bool} {position : Nat} {data : List UInt8}
    {failure : Failure} (failed : decodeFrames outermost position data = .error failure) :
    failure.IsFault := by
  fun_induction decodeFrames outermost position data with
  | case1 => cases failed
  | case2 => exact Result.isFault_of_fault failed
  | case3 =>
      rename_i ih
      rcases Result.bind_eq_error failed with failed | ⟨others, -, failed⟩
      · exact ih failed
      · cases failed
  | case4 => exact Result.isFault_of_fault failed

private theorem decodeStack_eq_error {data : List UInt8} {failure : Failure}
    (failed : decodeStack data = .error failure) : failure.IsFault := by
  rcases Result.bind_eq_error failed with failed | ⟨frames, -, failed⟩
  · exact decodeFrames_eq_error failed
  · dsimp only at failed
    split at failed
    · exact Result.isFault_of_fault failed
    · cases failed

private theorem failsWith_addChunk (fresh : List UInt8) (parts : Parts) (chunk : Chunk) :
    FailsWith Failure.IsFault (addChunk fresh parts chunk) := by
  unfold addChunk
  split
  · exact .excluded (.pure _)
  · exact .bind (.lift fun _ failed => (Difference.decompress_eq_error failed).isFault)
      fun _ => .pure _
  · exact .excluded (.pure _)
  · exact .bind (.lift fun _ => decodeStack_eq_error) fun _ => .pure _
  · exact .bind (.modify _) fun _ => .pure _

private theorem failsWith_addChunks (fresh : List UInt8) (chunks : List Chunk) :
    ∀ parts, FailsWith Failure.IsFault (addChunks fresh parts chunks) := by
  induction chunks with
  | nil => exact fun parts => .pure parts
  | cons chunk rest ih => exact fun parts => .bind (failsWith_addChunk fresh parts chunk) ih

/-- A file that cannot be read breaks a rule of the format: nothing else goes wrong. -/
theorem decode_eq_error {data fresh : List UInt8} {failure : Failure}
    (failed : decode data fresh = .error failure) : failure.IsFault := by
  have faults : FailsWith Failure.IsFault (decodeNoting data fresh) := by
    unfold decodeNoting
    refine .bind (.lift fun _ failed => (readForm_eq_error isName_formType failed).isFault)
      fun chunks => ?_
    refine .bind (failsWith_addChunks fresh chunks {}) fun parts => ?_
    split
    · exact .fault _
    · exact .fault _
    · exact .fault _
    · exact .pure _
  unfold decode Action.answer at failed
  cases outcome : decodeNoting data fresh [] with
  | ok game skipped =>
      rw [outcome] at failed
      cases failed
  | error other skipped =>
      rw [outcome] at failed
      cases failed
      exact faults [] skipped failure outcome

end SaveFile

/-! ## Asking the storage -/

/-- A refusal of the file system. -/
def Failure.IsRefusal (failure : Failure) : Prop :=
  ∃ error, failure = .breach (.system error)

namespace Disk

private theorem read_eq_error {disk : Disk} {path : String} (present : (disk.find? path).isSome)
    {failure : Failure} (failed : disk.read path = .error failure) : failure.IsRefusal := by
  have checked : checkPath path = .ok () := by
    unfold find? at present
    unfold checkPath
    split at present
    · cases present
    · rename_i clean
      exact if_neg clean
  unfold read at failed
  rw [checked, Result.ok_bind] at failed
  split at failed
  · cases failed
  · cases failed
    exact ⟨_, rfl⟩
  · cases failed
    exact ⟨_, rfl⟩
  · cases failed
    exact ⟨_, rfl⟩

end Disk

namespace Machine

private theorem failsWith_note {P : Failure → Prop} (level : LogLevel) (source message : String) :
    FailsWith P (note level source message) :=
  .modify _

private theorem failsWith_prompt {P : Failure → Prop} (message : Text) : FailsWith P (prompt message) := by
  intro machine after failure failed
  cases failed

/-- Nothing goes wrong when a line or a key is read. -/
theorem failsWith_readInput (next : Keyboard → Option Text × Keyboard) (ofCommand : Text → Text) :
    FailsWith (fun _ => False) (readInput next ofCommand) := by
  have typed : FailsWith (fun _ => False) (fromKeyboard next) :=
    .bind .get fun _ => .bind (.modify _) fun _ => .pure _
  unfold readInput
  refine .bind .get fun machine => ?_
  dsimp only
  split
  · exact typed
  · refine .bind ?_ fun command => ?_
    · unfold nextCommand echoCommand
      split
      · exact .bind (.modify _) fun _ => .pure _
      · refine .bind (.modify _) fun _ => .bind ?_ fun _ => .pure _
        split
        · exact .pure _
        · exact .modify _
        · exact .modify _
    · split
      · exact .pure _
      · exact .bind (failsWith_note _ _ _) fun _ => .bind (.modify _) fun _ => typed

private theorem failsWith_retrieve : FailsWith Failure.IsRefusal retrieve := by
  unfold retrieve
  refine .bind .get fun machine => ?_
  split
  · intro before after failure failed
    cases failed
    exact ⟨_, rfl⟩
  · exact .pure _
  · exact .pure _
  · refine .bind (failsWith_prompt _) fun name => .bind .get fun machine => ?_
    dsimp only
    split
    · exact .bind (failsWith_note _ _ _) fun _ => .pure _
    · rename_i path found
      obtain ⟨-, present⟩ := Option.filter_eq_some_iff.mp found
      exact .bind (.lift fun _ => Disk.read_eq_error present) fun data => .pure _

private theorem byteAfter_eq_error {machine : Machine} {game : SavedGame} {address : Int}
    {failure : Failure} (failed : machine.byteAfter game address = .error failure) :
    failure.IsFault := by
  unfold byteAfter at failed
  split at failed
  · cases failed
  · unfold Image.byte at failed
    split at failed
    · cases failed
    · exact Result.isFault_of_fault failed

private theorem checkResumePoint_eq_error {machine : Machine} {game : SavedGame} {failure : Failure}
    (failed : machine.checkResumePoint game = .error failure) : failure.IsFault := by
  unfold checkResumePoint at failed
  split at failed
  · exact Result.isFault_of_fault failed
  dsimp only at failed
  split at failed
  · exact Result.isFault_of_fault failed
  rcases Result.bind_eq_error failed with failed | ⟨first, -, failed⟩
  · exact byteAfter_eq_error failed
  split at failed
  · split at failed
    · exact Result.isFault_of_check failed
    · rcases Result.bind_eq_error failed with failed | ⟨second, -, failed⟩
      · exact byteAfter_eq_error failed
      · exact Result.isFault_of_check failed
  · exact Result.isFault_of_check failed

/-- A saved game is refused for a broken rule. -/
theorem accept_eq_error {machine : Machine} {data : List UInt8} {failure : Failure}
    (failed : machine.accept data = .error failure) : failure.IsFault := by
  unfold accept at failed
  rcases Result.bind_eq_error failed with failed | ⟨game, -, failed⟩
  · exact SaveFile.decode_eq_error failed
  dsimp only at failed
  split at failed
  · exact Result.isFault_of_fault failed
  split at failed
  · exact Result.isFault_of_fault failed
  rcases Result.bind_eq_error failed with failed | ⟨u, -, failed⟩
  · exact checkResumePoint_eq_error failed
  · cases failed

/-- Whatever goes wrong while a game is fetched is a fault or a refusal of the file system. -/
theorem failsWith_fetch :
    FailsWith (fun failure => failure.IsFault ∨ failure.IsRefusal) fetch := by
  refine .bind (failsWith_retrieve.weaken fun _ => .inr) fun found => ?_
  cases found with
  | none => exact .pure _
  | some data =>
      refine .bind ?_ fun game => .pure _
      intro machine after failure failed
      obtain ⟨log, run⟩ := loadSave_eq data machine
      rw [run] at failed
      cases accepted : machine.accept data with
      | ok game =>
          rw [accepted] at failed
          cases failed
      | error other =>
          rw [accepted] at failed
          cases failed
          exact .inl (accept_eq_error accepted)

end Machine

end StoryMachine
