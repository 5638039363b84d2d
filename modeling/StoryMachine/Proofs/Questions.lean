import StoryMachine.Machine.Read
import StoryMachine.Proofs.Failures

/-!
# How questions fail

Questions about memory, frames, objects and dictionaries have an answer unless a
rule is broken, and the kind of that rule is known: one of memory, of the stack,
of objects. Each lemma says so for every property of failures that admits these
kinds, so that it serves who asks whether a failure is a fault as well as who
asks of which kind it is. The exception is text: an alphabet that a story
supplies can have too few characters, and then a zchar can stand for none of
them.
-/

namespace StoryMachine

/-- A property of failures that every fault of a kind has. -/
class Failure.Admits (P : Failure → Prop) (kind : FaultKind) : Prop where
  /-- What raises a fault of the kind has the property. -/
  ofCause : ∀ cause : Cause, cause.kind = kind → P (.ofCause cause)

instance (kind : FaultKind) : Failure.Admits Failure.IsFault kind :=
  ⟨fun _ _ => ⟨_, rfl⟩⟩

instance (kind : FaultKind) : Failure.Admits (Failure.HasKind kind) kind :=
  ⟨fun cause concerns => ⟨{ cause }, concerns, rfl⟩⟩

open StoryMachine.Failure (Admits)

namespace Result

variable {α β : Type} {P Q : Failure → Prop}

/-- Every failure of the question has a property. -/
def FailsWith (P : Failure → Prop) (result : Result α) : Prop :=
  ∀ failure, result = .error failure → P failure

/-- The question fails only if a rule is broken. -/
abbrev Faults (result : Result α) : Prop :=
  FailsWith Failure.IsFault result

/-- The property of the failures may be weakened. -/
theorem FailsWith.weaken {result : Result α} (fails : FailsWith P result)
    (weaker : ∀ failure, P failure → Q failure) : FailsWith Q result :=
  fun failure failed => weaker failure (fails failure failed)

/-- A question with an answer does not fail. -/
@[simp] theorem failsWith_ok (a : α) : FailsWith P (.ok a : Result α) := by
  rintro failure ⟨⟩

@[simp] theorem failsWith_pure (a : α) : FailsWith P (pure a : Result α) :=
  failsWith_ok a

/-- A fault of an admitted kind has the property. -/
theorem failsWith_fault (kind : FaultKind) [Admits P kind] {cause : Cause}
    (concerns : cause.kind = kind) : FailsWith P (.fault cause : Result α) := by
  rintro failure ⟨⟩
  exact Admits.ofCause cause concerns

@[simp] theorem faults_fault (cause : Cause) : Faults (.fault cause : Result α) :=
  failsWith_fault _ rfl

@[simp] theorem failsWith_bind {first : Result α} {rest : α → Result β} :
    FailsWith P (first >>= rest) ↔
      FailsWith P first ∧ ∀ a, first = .ok a → FailsWith P (rest a) := by
  constructor
  · intro fails
    refine ⟨?_, ?_⟩
    · rintro failure rfl
      exact fails failure rfl
    · rintro a rfl
      exact fails
  · rintro ⟨head, tail⟩ failure failed
    rcases bind_eq_error failed with failed | ⟨a, answered, failed⟩
    · exact head failure failed
    · exact tail a answered failure failed

@[simp] theorem failsWith_map {f : α → β} {result : Result α} :
    FailsWith P (f <$> result) ↔ FailsWith P result := by
  cases result with
  | ok a => exact ⟨fun _ => failsWith_ok a, fun _ => failsWith_ok (f a)⟩
  | error failure =>
      refine ⟨?_, ?_⟩ <;>
      · rintro fails _ ⟨⟩
        exact fails failure rfl

@[simp] theorem failsWith_ite {condition : Prop} [Decidable condition] {left right : Result α} :
    FailsWith P (if condition then left else right) ↔
      (condition → FailsWith P left) ∧ (¬ condition → FailsWith P right) := by
  split <;> simp_all

end Result

open StoryMachine.Result (FailsWith Faults failsWith_ok failsWith_fault)

variable {P : Failure → Prop}

/-! ## Memory -/

section Memory

variable [Admits P .memoryAccess]

namespace Image

variable (image : Image)

/-- A byte is missing only outside memory. -/
@[simp] theorem failsWith_byte (address : Int) : FailsWith P (image.byte address) := by
  unfold byte
  split
  · exact failsWith_ok _
  · exact failsWith_fault .memoryAccess rfl

/-- A word is missing only outside memory. -/
@[simp] theorem failsWith_word (address : Int) : FailsWith P (image.word address) := by
  simp [word]

/-- A signed word is missing only outside memory. -/
@[simp] theorem failsWith_signedWord (address : Int) : FailsWith P (image.signedWord address) := by
  simp [signedWord]

/-- A run of bytes breaks off only outside memory. -/
@[simp] theorem failsWith_byteRun (address : Int) (count : Nat) :
    FailsWith P (image.byteRun address count) := by
  induction count generalizing address with
  | zero => simp [byteRun]
  | succ count ih => simp [byteRun, ih]

/-- The end of a string is missing only outside memory. -/
@[simp] theorem failsWith_zcharsToEnd (address : Int) :
    FailsWith P (image.zcharsToEnd address) := by
  fun_induction zcharsToEnd image address with
  | case1 address inside ih => simp [ih]
  | case2 address outside => simp

/-- The words of a string are missing only outside memory. -/
@[simp] theorem failsWith_zcharsOfWords (address : Int) (count : Nat) :
    FailsWith P (image.zcharsOfWords address count) := by
  induction count generalizing address with
  | zero => simp [zcharsOfWords]
  | succ count ih => simp [zcharsOfWords, ih]

/-- A string is missing only outside memory, whether or not its length is given. -/
@[simp] theorem failsWith_zchars (address length : Int) :
    FailsWith P (image.zchars address length) := by
  simp [zchars]

/-- The codes up to a zero are missing only outside memory. -/
@[simp] theorem failsWith_codesUpTo (limit : Nat) (address : Int) :
    FailsWith P (image.codesUpTo limit address) := by
  induction limit generalizing address with
  | zero =>
      unfold codesUpTo
      simp
  | succ limit ih =>
      unfold codesUpTo
      simp [ih]

/-- What has been typed into a buffer is missing only outside memory. -/
@[simp] theorem failsWith_textBuffer (buffer : Int) : FailsWith P (image.textBuffer buffer) := by
  simp [textBuffer]

/-- The end of the list of terminators is missing only outside memory. -/
@[simp] theorem failsWith_terminators : FailsWith P image.terminators := by
  unfold terminators
  extract_lets address
  split
  · exact failsWith_ok _
  split
  · exact failsWith_fault .memoryAccess rfl
  · exact failsWith_ok _

/-- A branch is missing only outside memory. -/
@[simp] theorem failsWith_readBranch (address : Int) :
    FailsWith P (Instruction.readBranch image address) := by
  simp [Instruction.readBranch]

/-- The search of a table leaves off only outside memory. -/
@[simp] theorem failsWith_scan (value : Int) (words : Bool) (size : Int) (count : Nat)
    (address : Int) : FailsWith P (Machine.scan image value words size count address) := by
  induction count generalizing address with
  | zero => simp [Machine.scan]
  | succ count ih => simp [Machine.scan, ih]

end Image

/-- A dictionary is loaded unless a part of it is outside memory. -/
@[simp] theorem Dictionary.failsWith_load (codec : Codec) (image : Image) (address : Int) :
    FailsWith P (Dictionary.load codec image address) := by
  simp [Dictionary.load]

/-- The initial values of locals are missing only outside memory. -/
@[simp] theorem Frame.failsWith_initialValues (image : Image) (address : Int) (count : Nat) :
    FailsWith P (initialValues image address count) := by
  induction count generalizing address with
  | zero => simp [initialValues]
  | succ count ih => simp [initialValues, ih]

/-- A global is missing only outside memory. -/
theorem Workspace.failsWith_getGlobal (index : Int) : Action.FailsWith P (getGlobal index) :=
  .bind .get fun workspace => .bind (.lift (workspace.memory.failsWith_word _)) fun _ => .pure _

end Memory

/-- A version that is not supported is a fault. -/
@[simp] theorem Image.faults_versionInfo (image : Image) : Faults image.versionInfo := by
  simp only [versionInfo, Version.ofNumber]
  split <;> split <;> simp

/-- The length of a file is known unless its version is not supported. -/
@[simp] theorem Image.faults_fileLength (image : Image) : Faults (image.fileLength none) := by
  simp [fileLength]

/-- The checksum of a story is computed unless its version is not supported. -/
@[simp] theorem Story.faults_computedChecksum (story : Story) (image : Image) :
    Faults (story.computedChecksum image) := by
  simp [computedChecksum]

/-! ## Frames -/

section Frames

variable [Admits P .stack]

namespace Frame

variable (frame : Frame)

/-- Reading a local fails only if the frame lacks it. -/
@[simp] theorem failsWith_getLocal (number : Int) : FailsWith P (frame.getLocal number) := by
  unfold getLocal
  split
  · exact failsWith_ok _
  · exact failsWith_fault .stack rfl

/-- Setting a local fails only if the frame lacks it. -/
@[simp] theorem failsWith_setLocal (number value : Int) :
    FailsWith P (frame.setLocal number value) := by
  unfold setLocal
  split
  · exact failsWith_ok _
  · exact failsWith_fault .stack rfl

/-- Only an empty stack has no top. -/
@[simp] theorem failsWith_top : FailsWith P frame.top := by
  unfold top
  split
  · exact failsWith_fault .stack rfl
  · exact failsWith_ok _

/-- Only an empty stack has no top to replace. -/
@[simp] theorem failsWith_setTop (value : Int) : FailsWith P (frame.setTop value) := by
  unfold setTop
  split
  · exact failsWith_fault .stack rfl
  · exact failsWith_ok _

/-- Only from an empty stack is there nothing to take. -/
@[simp] theorem failsWith_pop : FailsWith P frame.pop := by
  unfold pop
  split
  · exact failsWith_fault .stack rfl
  · exact failsWith_ok _

/-- A routine has a frame unless its head is not in memory or claims too many locals. -/
@[simp] theorem failsWith_ofRoutine [Admits P .memoryAccess] (image : Image) (version : Version)
    (start returnTo : Int) (storeTo : Option Int) (arguments : List Int)
    (interrupt : Option Nat) :
    FailsWith P (ofRoutine image version start returnTo storeTo arguments interrupt) := by
  simp only [ofRoutine, Result.failsWith_bind, Image.failsWith_byte, true_and]
  intro count _
  split
  · exact failsWith_fault .stack rfl
  · simp

end Frame

namespace CallStack

variable (calls : CallStack)

/-- A frame is entered unless the calls are too deep. -/
@[simp] theorem failsWith_push (frame : Frame) : FailsWith P (calls.push frame) := by
  unfold push
  split
  · exact failsWith_fault .stack rfl
  · exact failsWith_ok _

/-- The outermost frame is not left. -/
@[simp] theorem failsWith_pop : FailsWith P calls.pop := by
  unfold pop
  split
  · exact failsWith_fault .stack rfl
  · exact failsWith_ok _

/-- Calls are unwound to any frame that is among them. -/
@[simp] theorem failsWith_unwind (depth : Int) : FailsWith P (calls.unwind depth) := by
  unfold unwind
  split
  · split <;> exact failsWith_ok _
  · exact failsWith_fault .stack rfl

end CallStack

/-! ## Variables -/

namespace Workspace

/-- Only a number outside a byte is refused as that of a variable. -/
theorem failsWith_checkVariable (number : Int) : FailsWith P (checkVariable number) := by
  unfold checkVariable
  split
  · exact failsWith_fault .stack rfl
  · exact failsWith_ok _

/-- A value is taken off the current stack unless it is empty. -/
theorem failsWith_pop : Action.FailsWith P pop :=
  .bind (.answered .get _) fun frame => .bind (.lift frame.failsWith_pop) fun _ =>
    .bind (.modify _) fun _ => .pure _

/-- A routine is left unless it is the outermost. -/
theorem failsWith_leave : Action.FailsWith P leave :=
  .bind .get fun workspace => .bind (.lift workspace.calls.failsWith_pop) fun _ =>
    .bind (.modify _) fun _ => .pure _

/-- Routines are left down to any frame that is among them. -/
theorem failsWith_unwind (depth : Int) : Action.FailsWith P (unwind depth) :=
  .bind .get fun workspace => .bind (.lift (workspace.calls.failsWith_unwind depth)) fun _ =>
    .modify _

/-- A variable is read unless there is none of the number. -/
theorem failsWith_getVariable [Admits P .memoryAccess] (number : Int) (indirect : Bool) :
    Action.FailsWith P (getVariable number indirect) := by
  unfold getVariable
  refine .bind (.lift (failsWith_checkVariable number)) fun _ => ?_
  split
  · split
    · exact .bind (.answered .get _) fun frame => .lift frame.failsWith_top
    · exact failsWith_pop
  split
  · exact .bind (.answered .get _) fun frame => .lift (frame.failsWith_getLocal _)
  · exact failsWith_getGlobal _

end Workspace

end Frames

/-! ## Objects -/

namespace ObjectTable

variable (table : ObjectTable) (image : Image) [Admits P .object]

/-- Only a number that can name no object has no record. -/
@[simp] theorem failsWith_recordAddress (id : Int) : FailsWith P (table.recordAddress id) := by
  unfold recordAddress
  split
  · exact failsWith_ok _
  · exact failsWith_fault .object rfl

/-- An attribute has a place unless its number or that of the object is out of range. -/
@[simp] theorem failsWith_attributePlace (id number : Int) :
    FailsWith P (table.attributePlace id number) := by
  unfold attributePlace
  split
  · exact failsWith_fault .object rfl
  · simp

/-- Only a number out of range is refused as that of a property. -/
@[simp] theorem failsWith_checkProperty (number : Int) :
    FailsWith P (table.checkProperty number) := by
  unfold checkProperty
  split
  · exact failsWith_fault .object rfl
  · exact failsWith_ok _

/-- A default has a place unless its number is out of range. -/
@[simp] theorem failsWith_defaultAddress (number : Int) :
    FailsWith P (table.defaultAddress number) := by
  simp [defaultAddress]

variable [Admits P .memoryAccess]

omit [Admits P .object] in
/-- The size bytes of a property are missing only outside memory. -/
@[simp] theorem failsWith_propertyAt (address : Int) :
    FailsWith P (table.propertyAt image address) := by
  simp [propertyAt]

omit [Admits P .object] in
/-- The size byte before a property's data is missing only outside memory. -/
@[simp] theorem failsWith_propertyLength (address : Int) :
    FailsWith P (table.propertyLength image address) := by
  simp [propertyLength]

/-- A link is read unless there is no such object or its record is outside memory. -/
@[simp] theorem failsWith_link (link : Link) (id : Int) :
    FailsWith P (table.link image link id) := by
  simp [ObjectTable.link]

/-- A parent is a link. -/
@[simp] theorem failsWith_parent (id : Int) : FailsWith P (table.parent image id) :=
  table.failsWith_link image _ id

/-- A sibling is a link. -/
@[simp] theorem failsWith_sibling (id : Int) : FailsWith P (table.sibling image id) :=
  table.failsWith_link image _ id

/-- A child is a link. -/
@[simp] theorem failsWith_child (id : Int) : FailsWith P (table.child image id) :=
  table.failsWith_link image _ id

/-- An attribute is looked up unless it has no place or its byte is outside memory. -/
@[simp] theorem failsWith_hasAttribute (id number : Int) :
    FailsWith P (table.hasAttribute image id number) := by
  simp [hasAttribute]

/-- A short name is found unless there is no such object or its property list is outside memory. -/
@[simp] theorem failsWith_shortName (id : Int) : FailsWith P (table.shortName image id) := by
  simp [shortName, propertiesAddress]

/-- A property list is read unless it does not end or runs out of memory. -/
@[simp] theorem failsWith_propertiesFrom (id : Int) (room : Nat) (address : Int) :
    FailsWith P (table.propertiesFrom image id room address) := by
  induction room generalizing address with
  | zero =>
      unfold propertiesFrom
      simp only [Result.failsWith_bind, failsWith_propertyAt, true_and]
      intro property _
      split
      · exact failsWith_ok _
      · exact failsWith_fault .object rfl
  | succ room ih =>
      unfold propertiesFrom
      simp [ih]

/-- The properties of an object are read unless there is no such object, or their list does not end
or runs out of memory. -/
@[simp] theorem failsWith_properties (id : Int) : FailsWith P (table.properties image id) := by
  simp [properties]

/-- A property is looked up unless its number is out of range or the list cannot be read. -/
@[simp] theorem failsWith_findProperty (id number : Int) :
    FailsWith P (table.findProperty image id number) := by
  simp [findProperty]

/-- The address of a property is looked up as the property is. -/
@[simp] theorem failsWith_propertyAddress (id number : Int) :
    FailsWith P (table.propertyAddress image id number) := by
  simp [propertyAddress]

/-- The data of a property, or of its default, is looked up as the property is. -/
@[simp] theorem failsWith_propertyData (id number : Int) :
    FailsWith P (table.propertyData image id number) := by
  simp only [propertyData, Result.failsWith_bind, failsWith_findProperty, true_and]
  intro found _
  cases found <;> simp

/-- A property is read unless there is neither it nor a default, or it is too long. -/
@[simp] theorem failsWith_getProperty (id number : Int) :
    FailsWith P (table.getProperty image id number) := by
  simp only [getProperty, Result.failsWith_bind, failsWith_propertyData, true_and]
  rintro ⟨address, size⟩ _
  dsimp only
  split
  · exact image.failsWith_byte address
  split
  · exact image.failsWith_word address
  · exact failsWith_fault .object rfl

/-- The next property is named unless there is no such property or the list cannot be read. -/
@[simp] theorem failsWith_nextProperty (id number : Int) :
    FailsWith P (table.nextProperty image id number) := by
  simp only [nextProperty, Result.failsWith_bind, failsWith_properties, true_and]
  intro properties _
  split
  · simp
  · split
    · exact failsWith_ok _
    · exact failsWith_fault .object rfl

/-- The object before another among its siblings is found unless they do not end or lack it. -/
@[simp] theorem failsWith_olderSibling (target parent : Int) (steps : Nat) (id : Int) :
    FailsWith P (table.olderSibling image target parent steps id) := by
  induction steps generalizing id with
  | zero => exact failsWith_fault .object rfl
  | succ steps ih =>
      unfold olderSibling
      split
      · exact failsWith_fault .object rfl
      · simp [ih]

/-- The ancestors of an object are gone through unless they do not end or the other object is among
them. -/
@[simp] theorem failsWith_checkAncestors (id target : Int) (steps : Nat) (ancestor : Int) :
    FailsWith P (table.checkAncestors image id target steps ancestor) := by
  induction steps generalizing ancestor with
  | zero => exact failsWith_fault .object rfl
  | succ steps ih =>
      unfold checkAncestors
      split
      · exact failsWith_ok _
      split
      · exact failsWith_fault .object rfl
      · simp [ih]

end ObjectTable

end StoryMachine
