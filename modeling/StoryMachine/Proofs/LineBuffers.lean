import StoryMachine.Proofs.Backgrounds
import StoryMachine.Proofs.Returns

/-!
# Where a line is written

A line that the player typed goes into the text buffer of its request, cut to the
room that the buffer has; its words go into the parse table, as many as that one
has room for, and the code that ended it into the variable of the read. Nothing
else of memory changes, whatever was typed and also if a fault ends the read half
way.
-/

namespace StoryMachine

open StoryMachine.Action (Ensures Keeps EndsIn)

/-- A step that is taken only on a condition, in front of a rest that needs less. -/
theorem Action.EndsIn.check {σ α : Type} {I J : σ → Prop} {R : α → Prop} {condition : Prop}
    [Decidable condition] {first : Action σ PUnit} {rest : PUnit → Action σ α} {s : σ}
    (holds : I s) (head : Keeps I first) (weaker : ∀ s, I s → J s)
    (tail : ∀ u s, I s → EndsIn J R (rest u) s) :
    EndsIn J R (if condition then first >>= rest else rest ()) s := by
  split
  · exact (head s holds).bind weaker fun u after kept _ => tail u after kept
  · exact tail () s holds

namespace GameMemory

/-- Memory differs from an earlier one at most at the allowed addresses. -/
structure ChangedWithin (allowed : Int → Prop) (before after : GameMemory) : Prop where
  size : after.size = before.size
  dynamicEnd : after.dynamicEnd = before.dynamicEnd
  highStart : after.highStart = before.highStart
  bytes : ∀ place : Nat, ¬ allowed place → after.bytes[place]? = before.bytes[place]?

namespace ChangedWithin

variable {allowed wider : Int → Prop} {before between after : GameMemory}

/-- Memory that stays as it is has changed nowhere. -/
theorem refl (allowed : Int → Prop) (memory : GameMemory) : ChangedWithin allowed memory memory :=
  ⟨rfl, rfl, rfl, fun _ _ => rfl⟩

/-- Changes one after the other stay within the places of both. -/
theorem trans (first : ChangedWithin allowed before between)
    (second : ChangedWithin allowed between after) : ChangedWithin allowed before after where
  size := second.size.trans first.size
  dynamicEnd := second.dynamicEnd.trans first.dynamicEnd
  highStart := second.highStart.trans first.highStart
  bytes := fun place outside => (second.bytes place outside).trans (first.bytes place outside)

/-- More places may be allowed to change. -/
theorem mono (changed : ChangedWithin allowed before after)
    (more : ∀ place, allowed place → wider place) : ChangedWithin wider before after where
  size := changed.size
  dynamicEnd := changed.dynamicEnd
  highStart := changed.highStart
  bytes := fun place outside => changed.bytes place fun inside => outside (more place inside)

/-- Writing a byte in its place is a change within the places. -/
theorem withByte (changed : ChangedWithin allowed before after) {address : Nat}
    (may : allowed address) (byte : UInt8) :
    ChangedWithin allowed before (after.withByte address byte) where
  size := (after.size_withByte address byte).trans changed.size
  dynamicEnd := changed.dynamicEnd
  highStart := changed.highStart
  bytes := by
    intro place outside
    have apart : address ≠ place := by
      rintro rfl
      exact outside may
    exact (Array.getElem?_setIfInBounds_ne apart).trans (changed.bytes place outside)

/-- What is read at an address that may not be written is as before. -/
theorem byte_eq (changed : ChangedWithin allowed before after) {address : Int}
    (outside : ¬ allowed address) : after.byte address = before.byte address := by
  unfold Image.byte
  have held : after.Holds address ↔ before.Holds address := by
    unfold Image.Holds
    rw [changed.size]
  by_cases holds : before.Holds address
  · obtain ⟨place, rfl⟩ := Int.eq_ofNat_of_zero_le holds.1
    rw [if_pos (held.mpr holds), if_pos holds, Int.toNat_natCast,
      Image.peek_eq_of_getElem? (changed.bytes place outside)]
  · rw [if_neg (mt held.mp holds), if_neg holds, changed.size]

end ChangedWithin

variable {allowed : Int → Prop} {before : GameMemory}

private theorem confines_write {address : Int} (may : allowed address) (value : Int) :
    Keeps (ChangedWithin allowed before) (write address value) := by
  intro memory changed
  unfold Action.EndsIn write
  by_cases refused : address < 0 ∨ memory.dynamicEnd ≤ address
  · simpa only [refused, ↓reduceIte] using changed
  by_cases inside : address < memory.size
  · obtain ⟨place, rfl⟩ := Int.eq_ofNat_of_zero_le (show 0 ≤ address by omega)
    simp only [refused, inside, ↓reduceIte, Int.toNat_natCast]
    exact ⟨changed.withByte may _, trivial⟩
  · simpa only [refused, inside, ↓reduceIte] using changed

private theorem confines_writeWord {address : Int} (first : allowed address)
    (second : allowed (address + 1)) (value : Int) :
    Keeps (ChangedWithin allowed before) (writeWord address value) :=
  .get fun _ _ => .excluded fun _ =>
    .seq (confines_write first _) fun _ => confines_write second _

/-- A run of bytes is written where it belongs. -/
theorem confines_writeRun {values : List Int} {address : Int}
    (may : ∀ place, address ≤ place → place < address + values.length → allowed place) :
    Keeps (ChangedWithin allowed before) (Store.writeRun address values : Edit Unit) := by
  induction values generalizing address with
  | nil => exact .pure trivial
  | cons value rest ih =>
      rw [List.length_cons] at may
      refine .seq (confines_write (may address (by omega) (by omega)) value) fun _ => ?_
      exact ih fun place least most => may place (by omega) (by omega)

end GameMemory

open GameMemory (ChangedWithin)

/-! ## Parse tables -/

/-- The addresses that a parse table with room for a number of words takes, behind the byte that
says how much room there is. -/
def InParseTable (table : Int) (room : Nat) (address : Int) : Prop :=
  table + 1 ≤ address ∧ address ≤ table + 1 + 4 * room

namespace Dictionary

variable {allowed : Int → Prop} {before memory : GameMemory}

private theorem confines_writeTokens (dictionary : Dictionary) (textOffset : Int) (skipUnknown : Bool)
    {tokens : List Token} {address : Int}
    (may : ∀ place, address ≤ place → place < address + 4 * tokens.length → allowed place) :
    Keeps (ChangedWithin allowed before)
      (dictionary.writeTokens textOffset skipUnknown address tokens : GameMemory.Edit Unit) := by
  induction tokens generalizing address with
  | nil => exact .pure trivial
  | cons token rest ih =>
      obtain ⟨start, word⟩ := token
      rw [List.length_cons] at may
      have others := @ih (address + 4) fun place least most => may place (by omega) (by omega)
      have entry (offset : Int) (least : 0 ≤ offset) (most : offset < 4) :
          allowed (address + offset) := may _ (by omega) (by omega)
      unfold writeTokens
      refine .get fun memory _ => .bind (.lift fun _ _ => trivial) fun found _ => ?_
      dsimp only
      split
      · refine .seq (GameMemory.confines_writeWord (may _ (by omega) (by omega))
          (entry 1 (by decide) (by decide)) _) fun _ => ?_
        refine .seq (GameMemory.confines_write (entry 2 (by decide) (by decide)) _) fun _ => ?_
        refine .seq (GameMemory.confines_write (entry 3 (by decide) (by decide)) _) fun _ => ?_
        exact others
      · exact others

/-- A parse table takes no more words than its first byte says. -/
theorem confined_tokenise (dictionary : Dictionary) (chars : List Int) {table : Int}
    (textOffset : Int) (skipUnknown : Bool)
    (may : ∀ room, memory.byte table = .ok room → ∀ place, InParseTable table room place →
      allowed place)
    (changed : ChangedWithin allowed before memory) :
    EndsIn (ChangedWithin allowed before) (fun _ => True)
      (dictionary.tokenise chars table textOffset skipUnknown : GameMemory.Edit (List Token))
      memory := by
  unfold tokenise Store.byte
  refine .bind (Q := fun room => memory.byte table = .ok room)
    (I := fun after => after = memory) ?_ (fun _ same => same ▸ changed) ?_
  · exact .get (Ensures.lift (fun _ read => read) _ rfl)
  rintro room _ rfl read
  have may := may room read
  unfold InParseTable at may
  have few : ((dictionary.split chars).take room).length ≤ room := List.length_take_le _ _
  refine Ensures.seq (GameMemory.confines_write (may _ ⟨by omega, by omega⟩) _) (fun _ => ?_) _
    changed
  refine .seq (dictionary.confines_writeTokens textOffset skipUnknown ?_) fun _ => .pure trivial
  exact fun place least most => may place ⟨by omega, by omega⟩

end Dictionary

/-! ## Text buffers -/

/-- The codes of a typed line, cut to the room that its buffer has. -/
def InputRequest.lineCodes (request : InputRequest) (codec : Codec) (text : Text) : List Int :=
  (text.lower.map codec.toZscii).take request.maxLength.toNat

/-- The addresses that a line takes in the text buffer of a request, behind the byte that says how
much room there is. -/
def InputRequest.InTextBuffer (request : InputRequest) (address : Int) : Prop :=
  request.textBuffer + 1 ≤ address ∧ address ≤ request.textBuffer + 1 + max request.maxLength 0

/-- No more codes are taken from a line than the buffer has room for. -/
theorem InputRequest.length_lineCodes_le (request : InputRequest) (codec : Codec) (text : Text) :
    ((request.lineCodes codec text).length : Int) ≤ max request.maxLength 0 := by
  have few := List.length_take_le request.maxLength.toNat (text.lower.map codec.toZscii)
  unfold lineCodes
  omega

namespace GameMemory

/-- What a text buffer holds behind its first byte: early buffers end with a zero, later ones count
their codes. -/
def lineLayout (memory : GameMemory) (codes : List Int) : List Int :=
  if memory.version < 5 then codes ++ [0] else (codes.length : Int) :: codes

/-- Where the codes of a line begin in a text buffer. -/
def lineOffset (memory : GameMemory) : Nat :=
  if memory.version < 5 then 1 else 2

/-- Memory with a line in a text buffer, as far as it can be written. -/
def withLine (memory : GameMemory) (buffer : Int) (codes : List Int) : GameMemory :=
  (Store.writeRun (buffer + 1) (memory.lineLayout codes) : Edit Unit).finalState memory

/-- The codes of a line take one byte more than they are many. -/
theorem length_lineLayout (memory : GameMemory) (codes : List Int) :
    (memory.lineLayout codes).length = codes.length + 1 := by
  unfold lineLayout
  split <;> simp

private theorem changedWithin_withLine (memory : GameMemory) (request : InputRequest) (codec : Codec)
    (text : Text) :
    ChangedWithin request.InTextBuffer memory
      (memory.withLine request.textBuffer (request.lineCodes codec text)) := by
  have few := request.length_lineCodes_le codec text
  refine (confines_writeRun fun place least most => ?_).finalState (.refl _ memory)
  rw [length_lineLayout] at most
  exact ⟨least, by omega⟩

end GameMemory

/-! ## Variables -/

/-- The two bytes of the global variable that an instruction stores its result in. -/
def Instruction.InStoredGlobal (instruction : Instruction) (globals address : Int) : Prop :=
  ∃ target, instruction.storeTo = some target ∧ firstGlobal ≤ target ∧ target ≤ 255 ∧
    (address = globals + (target - firstGlobal) * 2 ∨
      address = globals + (target - firstGlobal) * 2 + 1)

/-- The addresses of the global that takes the result of a read. -/
def InputRequest.InResult (request : InputRequest) (globals address : Int) : Prop :=
  ∃ instruction, request.instruction = some instruction ∧
    instruction.InStoredGlobal globals address

namespace Workspace

variable {allowed : Int → Prop} {before : GameMemory} {globals : Int}

/-- The memory of a workspace differs from an earlier one at most at the allowed addresses, and its
globals lie where they lay. -/
def Confined (allowed : Int → Prop) (before : GameMemory) (globals : Int)
    (workspace : Workspace) : Prop :=
  ChangedWithin allowed before workspace.memory ∧ workspace.globals = globals

private theorem confines_setCurrent (frame : Frame) :
    Keeps (Confined allowed before globals) (setCurrent frame) :=
  .modify fun _ confined => confined

private theorem confines_setVariable {target : Int} (value : Int)
    (may : firstGlobal ≤ target → target ≤ 255 →
      allowed (globals + (target - firstGlobal) * 2) ∧
        allowed (globals + (target - firstGlobal) * 2 + 1)) :
    Keeps (Confined allowed before globals) (setVariable target value) := by
  have current (rest : Frame → Action Workspace Unit)
      (tail : ∀ frame, Keeps (Confined allowed before globals) (rest frame)) :
      Keeps (Confined allowed before globals) (Workspace.current >>= rest) :=
    .seq (.get fun _ _ => .pure trivial) tail
  unfold setVariable
  refine .bind (Q := fun _ => target ≤ 255) (.lift fun _ checked => ?_) fun _ most => ?_
  · unfold checkVariable at checked
    split at checked
    · cases checked
    · omega
  split
  · exact current _ fun frame => confines_setCurrent _
  split
  · refine current _ fun frame => ?_
    exact .bind (.lift fun _ _ => trivial) fun _ _ => confines_setCurrent _
  · rename_i large
    obtain ⟨first, second⟩ := may (by omega) most
    refine .get fun workspace confined => ?_
    obtain ⟨-, rfl⟩ := confined
    refine .focus (fun _ _ _ => rfl) (fun _ => rfl) fun inner held => ?_
    intro memory changed
    refine (GameMemory.confines_writeWord first second value memory changed.1).mono ?_ fun _ _ => ?_
    · exact fun _ changed => ⟨changed, held.2⟩
    · trivial

end Workspace

namespace Machine

variable {allowed : Int → Prop} {I : Machine → Prop} {α : Type} {start machine : Machine}

/-! ## Machines -/

/-- Only the memory of a machine at the allowed addresses, its calls and what is not part of the
game differ from an earlier one. -/
structure Confined (allowed : Int → Prop) (start after : Machine) : Prop where
  memory : ChangedWithin allowed start.work.memory after.work.memory
  globals : after.work.globals = start.work.globals

/-- A property of the memory of a machine, of where its globals lie and of what it waits for. -/
def OfMemory (I : Machine → Prop) : Prop :=
  ∀ machine after : Machine, I machine → after.work.memory = machine.work.memory →
    after.work.globals = machine.work.globals → after.pending = machine.pending → I after

/-- To be confined to some places is a property of memory. -/
theorem ofMemory_confined (allowed : Int → Prop) (start : Machine) :
    OfMemory (Confined allowed start) := by
  intro machine after confined memory globals _
  exact ⟨memory ▸ confined.memory, globals.trans confined.globals⟩

namespace OfMemory

private theorem survivesAside (same : OfMemory I) : SurvivesAside I := by
  intro machine after holds apart
  have work : after.work = machine.work := congrArg Core.work apart.core
  exact same _ _ holds (congrArg Workspace.memory work) (congrArg Workspace.globals work)
    (congrArg Core.pending apart.core)

private theorem modify (same : OfMemory I) {change : Machine → Machine}
    (beside : ∀ machine, (change machine).work = machine.work ∧
      (change machine).pending = machine.pending) : Keeps I (modify change : Play PUnit) :=
  .modify fun machine holds => same _ _ holds (congrArg Workspace.memory (beside machine).1)
    (congrArg Workspace.globals (beside machine).1) (beside machine).2

/-- Dealing with a fault leaves memory alone. -/
theorem keeps_handleFault (same : OfMemory I) (fault : Fault)
    (instruction : Option Instruction) : Keeps I (handleFault fault instruction) := by
  have halts : Keeps I halt :=
    .seq (same.modify fun _ => ⟨rfl, rfl⟩) fun _ => keeps_flush same.survivesAside
  refine .get fun machine _ => ?_
  dsimp only
  refine .seq (same.modify fun _ => ⟨rfl, rfl⟩) fun _ => ?_
  refine .seq (keeps_report same.survivesAside _ _ _) fun _ => ?_
  split
  · exact same.modify fun _ => ⟨rfl, rfl⟩
  · exact .seq (same.modify fun _ => ⟨rfl, rfl⟩) fun _ => halts

end OfMemory

/-- Confinement says nothing of what a machine waits for. -/
theorem Confined.modify {change : Machine → Machine}
    (beside : ∀ machine, (change machine).work = machine.work) :
    Keeps (Confined allowed start) (modify change : Play PUnit) := by
  refine .modify fun machine confined => ?_
  have work := beside machine
  exact ⟨work ▸ confined.memory, (congrArg Workspace.globals work).trans confined.globals⟩

private theorem finalState_onMemory (edit : GameMemory.Edit α) (machine : Machine) :
    (onMemory edit).finalState machine =
      { machine with work.memory := edit.finalState machine.work.memory } := by
  unfold onMemory onWork Workspace.onMemory Action.focus Action.finalState
  dsimp only
  cases edit machine.work.memory <;> rfl

/-- An edit of memory, for what an invariant says of memory. -/
theorem endsIn_onMemory {J : GameMemory → Prop} {edit : GameMemory.Edit α}
    (reached : EndsIn J (fun _ => True) edit machine.work.memory)
    (holds : ∀ memory, J memory → I { machine with work.memory := memory }) :
    EndsIn I (fun _ => True) (onMemory edit) machine := by
  refine .of_finalState ?_
  rw [finalState_onMemory]
  exact holds _ reached.finalState

/-! ## Finishing a read -/

/-- The memory of a machine once the line of an answer has been written into the text buffer of its
request. -/
def lineWritten (machine : Machine) (request : InputRequest) : Entry → GameMemory
  | .text text =>
      machine.work.memory.withLine request.textBuffer
        (request.lineCodes machine.story.codec text)
  | .key _ => machine.work.memory

/-- The addresses that a line may change: those of the text buffer, those of the parse table if
there is one, by the room that it says it has once the line has been written, and those of the
global that takes the result. -/
def LineMayChange (request : InputRequest) (globals : Int) (written : GameMemory)
    (address : Int) : Prop :=
  request.InTextBuffer address ∨
    (request.parseBuffer ≠ 0 ∧ ∃ room, written.byte request.parseBuffer = .ok room ∧
      InParseTable request.parseBuffer room address) ∨
    request.InResult globals address

variable {request : InputRequest}

/-- The layout of a text buffer depends on the version alone. -/
theorem fillTextBuffer_eq (buffer : Int) (codes : List Int) (machine : Machine) :
    fillTextBuffer buffer codes machine =
      (do
        onMemory (Store.writeRun (buffer + 1) (machine.work.memory.lineLayout codes))
        return machine.work.memory.lineOffset : Play Int) machine := by
  unfold fillTextBuffer GameMemory.lineLayout GameMemory.lineOffset
  rw [Action.get_bind, show machine.image.version = machine.work.memory.version from rfl]
  by_cases early : machine.work.memory.version < 5
  · simp only [early, ↓reduceIte]
    rfl
  · simp only [early, ↓reduceIte]
    rfl

private theorem endsIn_fillTextBuffer (buffer : Int) (codes : List Int) (machine : Machine) :
    EndsIn
      (fun after => after =
        { machine with work.memory := machine.work.memory.withLine buffer codes })
      (fun _ => True) (fillTextBuffer buffer codes) machine := by
  have written : EndsIn
      (fun after => after =
        { machine with work.memory := machine.work.memory.withLine buffer codes })
      (fun _ => True)
      (onMemory (Store.writeRun (buffer + 1) (machine.work.memory.lineLayout codes))) machine :=
    .of_finalState (finalState_onMemory _ machine)
  refine .of_eq (fillTextBuffer_eq buffer codes machine) ?_
  exact written.bind (fun _ same => same) fun _ after same _ => .of_ok rfl same trivial

/-- Storing the answer of a read is confined to the place of its result. -/
theorem confines_storeAnswer (value : Int)
    (may : ∀ address, request.InResult start.work.globals address → allowed address) :
    Keeps (Confined allowed start) (storeAnswer request value) := by
  unfold storeAnswer
  split
  · exact .pure trivial
  · rename_i target stores
    obtain ⟨instruction, asked, stores⟩ := Option.bind_eq_some_iff.mp stores
    have places (large : firstGlobal ≤ target) (most : target ≤ 255) :
        allowed (start.work.globals + (target - firstGlobal) * 2) ∧
          allowed (start.work.globals + (target - firstGlobal) * 2 + 1) :=
      ⟨may _ ⟨instruction, asked, target, stores, large, most, .inl rfl⟩,
        may _ ⟨instruction, asked, target, stores, large, most, .inr rfl⟩⟩
    refine .focus (fun _ _ _ => rfl) (fun _ => rfl) fun machine _ => ?_
    intro workspace confined
    exact (Workspace.confines_setVariable value places workspace
      ⟨confined.memory, confined.globals⟩).mono (fun _ kept => ⟨kept.1, kept.2⟩) fun _ _ => trivial

/-- The end of a read writes its line, its parse table and its result, and nothing else. -/
theorem confined_finishLine (request : InputRequest) (entry : Entry) (terminator : Int)
    (machine : Machine) :
    EndsIn
      (Confined (LineMayChange request machine.work.globals (machine.lineWritten request entry))
        machine)
      (fun _ => True) (finishLine request entry terminator) machine := by
  unfold finishLine
  cases entry with
  | key code => exact .of_error rfl ⟨.refl _ _, rfl⟩
  | text text =>
    let written := machine.lineWritten request (.text text)
    let allowed := LineMayChange request machine.work.globals written
    have filled := machine.work.memory.changedWithin_withLine request machine.story.codec text
    have stored : Keeps (Confined allowed machine)
        (do finishRequest request; storeAnswer request terminator) :=
      .seq (Confined.modify fun _ => rfl) fun _ =>
        confines_storeAnswer terminator fun _ inside => .inr (.inr inside)
    -- The table says how much room it has in the memory that the line has been written to.
    let Written (after : Machine) : Prop := Confined allowed machine after ∧
      after.work.memory = written
    have ofMemory : OfMemory Written := fun _ _ holds memory globals pending =>
      ⟨ofMemory_confined allowed machine _ _ holds.1 memory globals pending,
        memory.trans holds.2⟩
    have tabled (offset : Int) : ∀ after, Written after →
        EndsIn (Confined allowed machine) (fun _ => True) (do
          if request.parseBuffer ≠ 0 then
            let _ ← onMemory (machine.story.dictionary.tokenise
              (request.lineCodes machine.story.codec text) request.parseBuffer offset)
          finishRequest request
          storeAnswer request terminator) after := by
      rintro after ⟨confined, memory⟩
      split
      · rename_i present
        refine .bind (I := Confined allowed machine) (Q := fun _ => True) ?_ (fun _ kept => kept)
          fun _ between kept _ => stored between kept
        refine endsIn_onMemory (Dictionary.confined_tokenise _ _ offset false ?_ confined.memory)
          fun _ changed => ⟨changed, confined.globals⟩
        intro room read place inside
        exact .inr (.inl ⟨present, room, memory ▸ read, inside⟩)
      · exact stored after confined
    refine .get (.bind (endsIn_fillTextBuffer request.textBuffer
      (request.lineCodes machine.story.codec text) machine) ?_ ?_)
    · rintro _ rfl
      exact ⟨filled.mono fun _ => .inl, rfl⟩
    rintro offset _ rfl -
    have begun : Written { machine with work.memory := written } :=
      ⟨⟨filled.mono fun _ => .inl, rfl⟩, rfl⟩
    exact .check begun (keeps_commandEntered ofMemory.survivesAside text)
      (fun _ holds => holds.1) fun _ => tabled offset

/-! ## Answers -/

/-- The machine changes as the end of a read allows. -/
def ConfinedToLine (request : InputRequest) (entry : Entry) (start after : Machine) : Prop :=
  Confined (LineMayChange request start.work.globals (start.lineWritten request entry)) start after

private theorem ofMemory_confinedToLine (request : InputRequest) (entry : Entry) (start : Machine) :
    OfMemory (ConfinedToLine request entry start) :=
  ofMemory_confined _ start

private theorem ConfinedToLine.refl (request : InputRequest) (entry : Entry) (machine : Machine) :
    ConfinedToLine request entry machine machine :=
  ⟨.refl _ _, rfl⟩

private theorem OfMemory.keeps_callRoutine (same : OfMemory I) (address returnTo : Int)
    (storeTo : Option Int) (arguments : List Int) (interrupt : Option Nat) :
    Keeps I (callRoutine address returnTo storeTo arguments interrupt) := by
  intro machine holds
  have run := callRoutine_eq address returnTo storeTo arguments interrupt machine
  split at run
  · split at run
    · exact .of_ok run (same _ _ holds rfl rfl rfl) trivial
    · exact .of_error run holds
  · exact .of_error run holds

private theorem confined_answerRequest (line : request.kind = .line) (entry : Entry) (terminator : Int)
    (timedOut : Bool) (machine : Machine) :
    EndsIn (ConfinedToLine request entry machine) (fun _ => True)
      (answerRequest request entry terminator timedOut) machine := by
  have same := ofMemory_confinedToLine request entry machine
  unfold answerRequest
  cases timedOut with
  | true =>
      have typed : Keeps (ConfinedToLine request entry machine)
          (changeRequest request.token fun request => { request with typed := some entry }) :=
        same.modify fun _ => ⟨rfl, rfl⟩
      rw [if_pos rfl]
      refine typed.seq (fun _ => ?_) machine (.refl request entry machine)
      split
      · refine .seq (same.modify fun _ => ⟨rfl, rfl⟩) fun _ => .get fun _ _ => ?_
        exact same.keeps_callRoutine _ _ _ _ _
      · exact .pure trivial
  | false =>
      rw [if_neg (by decide), line]
      exact confined_finishLine request entry terminator machine

/-- A known request is answered, or refused because another one is pending. -/
theorem endsIn_completeInput {token : Nat} {entry : Entry} {terminator : Int} {timedOut : Bool}
    (same : OfMemory I)
    (abandons : ∀ machine, I machine → I { machine with pending := none, phase := .running })
    (asked : machine.request? token = some request)
    (refused : machine.pending ≠ some request.token → I machine)
    (answers : EndsIn I (fun _ => True) (answerRequest request entry terminator timedOut)
      machine) :
    EndsIn I (fun _ => True) (completeInput (some token) entry terminator timedOut) machine := by
  refine .get ?_
  simp only [Option.bind_some, asked]
  split
  · refine answers.onFault fun fault => ?_
    exact .seq (.modify abandons) fun _ => same.keeps_handleFault fault _
  · rename_i other
    exact .of_error rfl (refused other)

private theorem confined_completeInput {token : Nat} (asked : machine.request? token = some request)
    (line : request.kind = .line) (entry : Entry) (terminator : Int) (timedOut : Bool) :
    EndsIn (ConfinedToLine request entry machine) (fun _ => True)
      (completeInput (some token) entry terminator timedOut) machine :=
  endsIn_completeInput (ofMemory_confinedToLine request entry machine)
    (fun _ confined => ⟨confined.memory, confined.globals⟩) asked
    (fun _ => .refl request entry machine)
    (confined_answerRequest line entry terminator timedOut machine)

/-- The return of an interrupt routine that ends the read of a line writes as an answer does. -/
theorem confined_returnFromRoutine {token : Nat} {value : Int}
    (interrupts : machine.work.calls.current.interrupt = some token)
    (asked : machine.request? token = some request) (line : request.kind = .line)
    (ends : value ≠ 0) :
    EndsIn (ConfinedToLine request (request.typed.getD (.text [])) machine) (fun _ => True)
      (returnFromRoutine value) machine := by
  have left := leave_eq machine
  cases popped : machine.work.calls.pop with
  | error failure =>
      rw [popped] at left
      exact .afterError left (.refl request _ machine)
  | ok pair =>
      obtain ⟨frame, calls⟩ := pair
      have current : frame = machine.work.calls.current := by
        unfold CallStack.pop at popped
        split at popped
        · cases popped
        · cases popped
          rfl
      rw [popped] at left
      refine .after left ?_
      rw [current, interrupts]
      have kept : request? { machine with work.calls := calls } token = some request := asked
      refine .get ?_
      rw [kept]
      dsimp only
      refine .modify ?_
      rw [if_pos ends, line]
      exact (confined_finishLine request (request.typed.getD (.text [])) 0
        { machine with work.calls := calls, pending := some token }).mono
          (fun _ confined => ⟨confined.memory, confined.globals⟩) fun _ _ => trivial

/-- The answer to a request for a line changes memory at most in its text buffer, in its parse table
and in the global that takes the result, whatever is entered and whether or not a fault ends the
read; and so does the return of an interrupt routine that ends the read. The parse table has the
room that its first byte says once the line has been written, which is what it says before unless
that byte lies in the text buffer. -/
theorem line_input_confined {token : Nat} (asked : machine.request? token = some request)
    (line : request.kind = .line) :
    (∀ entry terminator timedOut, ConfinedToLine request entry machine
      ((completeInput (some token) entry terminator timedOut).finalState machine)) ∧
    (∀ before instruction executing value, Executes before instruction executing →
      ComesToReturn instruction executing machine value →
      machine.work.calls.current.interrupt = some token → value ≠ 0 →
      ConfinedToLine request (request.typed.getD (.text [])) machine (step.finalState before)) ∧
    ∀ entry, ¬ request.InTextBuffer request.parseBuffer →
      (machine.lineWritten request entry).byte request.parseBuffer =
        machine.image.byte request.parseBuffer := by
  refine ⟨?_, ?_, ?_⟩
  · intro entry terminator timedOut
    exact (confined_completeInput asked line entry terminator timedOut).finalState
  · intro before instruction executing value executes returns interrupts ends
    have same := ofMemory_confinedToLine request (request.typed.getD (.text [])) machine
    have returned := (confined_returnFromRoutine interrupts asked line ends).of_eq
      (executeInstruction_of_comesToReturn returns)
    have handled := returned.onFault fun fault => same.keeps_handleFault fault (some instruction)
    exact (handled.of_eq (step_of_executes executes)).finalState
  · intro entry apart
    cases entry with
    | key code => rfl
    | text text =>
        exact (machine.work.memory.changedWithin_withLine request _ text).byte_eq apart

/-- The sample story in version five: it reads a line of four characters and one word, and a
routine ends the read when its time runs out. -/
def typingStory : Array UInt8 :=
  ((((sampleStory.toList.take 80).set 0 5).set 66 4).set 72 1 ++
    [0xe4, 0x55, 66, 72, 1, 22, 0x10, 0xba, 0, 0xb0, 0, 0, 0, 7, 0, 0]).toArray

/-- The sample machine with that story, started and waiting for the line. -/
def typing : Machine :=
  (reset.finalState { sample with file.data := typingStory }).after [.step]

/-- The instruction that reads the line. -/
def typingRead : Instruction where
  address := 80
  form := .variable
  opcode :=
    { group := .variable, number := 4, name := "aread", operation := .readLine, stores := true,
      senses := [.unsigned, .unsigned, .unsigned, .unsigned], least := 1, firstVersion := 5
      lastVersion := some 8 }
  operands := [⟨.small, 66⟩, ⟨.small, 72⟩, ⟨.small, 1⟩, ⟨.small, 22⟩]
  storeTo := some 16
  resultAddress := 86
  nextAddress := 87

/-- The request for the line. -/
def typingRequest : InputRequest where
  kind := .line
  token := 1
  instruction := some typingRead
  textBuffer := 66
  parseBuffer := 72
  time := 1
  routine := 22
  maxLength := 4

/-- A line of five characters, of which four fit. -/
def typedLine : Text :=
  [97, 98, 32, 99, 100]

/-- The instruction of the routine that returns one. -/
def typingReturn : Instruction where
  address := 89
  form := .short
  opcode :=
    { group := .zeroOperands, number := 0, name := "rtrue", operation := .returnTrue }
  operands := []
  resultAddress := 90
  nextAddress := 90

/-- The machine on the point of returning to the read. -/
def typingReturning : Machine :=
  (typing.after [.answer (some 1) (.text typedLine) 13 true]).poised.taking typingReturn

/-- The line goes into the buffers, cut to four characters and one word, and the bytes around them
stay; so it does when the routine ends the read. -/
theorem line_input_confined_typing :
    ConfinedToLine typingRequest (.text typedLine) typing
        ((completeInput (some 1) (.text typedLine)).finalState typing) ∧
      ((completeInput (some 1) (.text typedLine)).finalState typing).image.bytes.extract 64 80 =
        #[0, 13, 4, 4, 97, 98, 32, 99, 1, 1, 0, 0, 2, 2, 0, 0] ∧
      ConfinedToLine { typingRequest with typed := some (.text typedLine) } (.text typedLine)
        typingReturning
        (step.finalState (typing.after [.answer (some 1) (.text typedLine) 13 true])) ∧
      (typing.lineWritten typingRequest (.text typedLine)).byte 72 = typing.image.byte 72 := by
  have asked : typing.request? 1 = some typingRequest := by decide +kernel
  have asked' : typingReturning.request? 1 =
      some { typingRequest with typed := some (.text typedLine) } := by decide +kernel
  have executes : Executes (typing.after [.answer (some 1) (.text typedLine) 13 true])
      typingReturn typingReturning :=
    executes_poised (by decide +kernel) (by decide +kernel) (by decide +kernel) (by decide +kernel)
  have returns : ComesToReturn typingReturn typingReturning typingReturning 1 :=
    ⟨[], typingReturning, .return 1, typingReturning, rfl, rfl, .inl ⟨rfl, rfl⟩⟩
  have apart : ¬ typingRequest.InTextBuffer typingRequest.parseBuffer := by
    unfold InputRequest.InTextBuffer
    decide
  refine ⟨(line_input_confined asked rfl).1 _ _ _, by decide +kernel, ?_,
    (line_input_confined asked rfl).2.2 _ apart⟩
  exact (line_input_confined asked' rfl).2.1 _ _ _ 1 executes returns (by decide +kernel)
    (by decide)

end Machine

end StoryMachine
