import StoryMachine.Dictionary
import StoryMachine.Machine.Perform
import StoryMachine.ObjectTable.Property
import StoryMachine.ObjectTable.Tree
import StoryMachine.Proofs.Ensures
import StoryMachine.Proofs.Images

/-!
# Edits of game memory

Whatever a story does to its memory, it does byte by byte inside dynamic memory:
words, tables, parse tables, attributes, links of objects and properties are all
written through the same check. A property of memory that survives one such byte
therefore survives every edit, also one that is refused half way. Where the bytes are
written is of account only to a property that depends on the first bytes of memory.
-/

namespace StoryMachine

open StoryMachine.Action (Ensures Keeps)

namespace GameMemory

/-- Memory with one byte replaced. -/
def withByte (memory : GameMemory) (address : Nat) (byte : UInt8) : GameMemory :=
  { memory with bytes := memory.bytes.setIfInBounds address byte }

/-- Writing a byte leaves the size of memory. -/
theorem size_withByte (memory : GameMemory) (address : Nat) (byte : UInt8) :
    (memory.withByte address byte).size = memory.size :=
  Array.size_setIfInBounds

/-- Memory with all of dynamic memory replaced. -/
def withDynamic (memory : GameMemory) (dynamic : Array UInt8) : GameMemory :=
  { memory with bytes := dynamic ++ memory.bytes.extract dynamic.size memory.bytes.size }

/-- A property of game memory that survives every byte written to dynamic memory from an address
on. -/
def SurvivesWritesFrom (least : Nat) (J : GameMemory → Prop) : Prop :=
  ∀ (memory : GameMemory) (address : Nat) (byte : UInt8), least ≤ address →
    (address : Int) < memory.dynamicEnd → address < memory.size → J memory →
      J (memory.withByte address byte)

/-- A property of game memory that survives every byte written to dynamic memory. -/
abbrev SurvivesWrites (J : GameMemory → Prop) : Prop :=
  SurvivesWritesFrom 0 J

variable {J : GameMemory → Prop} {least : Nat}

private theorem write_of_neg {address : Int} (negative : address < 0) (value : Int)
    (memory : GameMemory) :
    write address value memory =
      .error (.ofCause (.notDynamic address memory.dynamicEnd)) memory :=
  if_pos (.inl negative)

/-- Writing a byte where bytes may change keeps what survives such writes. -/
theorem keeps_write (survives : SurvivesWritesFrom least J) (address value : Int)
    (place : address < 0 ∨ least ≤ address := by omega) : Keeps J (write address value) := by
  intro memory holds
  unfold Action.EndsIn write
  by_cases refused : address < 0 ∨ memory.dynamicEnd ≤ address
  · simpa only [refused, ↓reduceIte] using holds
  by_cases inside : address < memory.size
  · simp only [refused, inside, ↓reduceIte]
    have written := survives memory address.toNat (Byte.ofInt value) (by omega) (by omega)
      (by omega) holds
    exact ⟨written, trivial⟩
  · simpa only [refused, inside, ↓reduceIte] using holds

/-- What starts with a write at a negative address is refused there. -/
theorem keeps_write_bind {α : Type} {Q : α → Prop} {address value : Int} {rest : Unit → Edit α}
    (survives : SurvivesWritesFrom least J) (place : address < 0 ∨ least ≤ address)
    (tail : least ≤ address → Ensures J Q (rest ())) :
    Ensures J Q (write address value >>= rest) := by
  by_cases negative : address < 0
  · exact fun memory holds => .afterError (write_of_neg negative value memory) holds
  · refine .seq (keeps_write survives _ _ place) fun _ => tail ?_
    omega

/-- Writing a word where bytes may change keeps what survives such writes. -/
theorem keeps_writeWord (survives : SurvivesWritesFrom least J) (address value : Int)
    (place : address < 0 ∨ least ≤ address := by omega) : Keeps J (writeWord address value) := by
  unfold writeWord
  refine .get fun memory _ => .excluded fun inside => ?_
  exact .seq (keeps_write survives _ _ (by omega)) fun _ => keeps_write survives _ _ (by omega)

/-- Writing a run of bytes keeps what survives the write of each. -/
theorem keeps_writeRun (survives : SurvivesWritesFrom least J) (values : List Int) (address : Int)
    (place : address < 0 ∨ least ≤ address := by omega) :
    Keeps J (Store.writeRun address values : Edit Unit) := by
  induction values generalizing address with
  | nil => exact .pure trivial
  | cons value rest ih =>
      exact keeps_write_bind survives place fun behind => ih (address + 1) (by omega)

/-- Copying a table from its first byte on keeps what survives the write of each byte. -/
theorem keeps_copyForwards (survives : SurvivesWritesFrom least J) (count : Nat)
    (source target : Int) (place : target < 0 ∨ least ≤ target := by omega) :
    Keeps J (Machine.copyForwards source target count) := by
  induction count generalizing source target with
  | zero => exact .pure trivial
  | succ count ih =>
      refine .get fun memory _ => .bind (.lift fun _ _ => trivial) fun byte _ => ?_
      exact keeps_write_bind survives place fun behind =>
        ih (source + 1) (target + 1) (by omega)

end GameMemory

namespace Dictionary

variable {J : GameMemory → Prop} {least : Nat}

/-- Writing the words of a line keeps what survives the writes. -/
theorem keeps_writeTokens (survives : GameMemory.SurvivesWritesFrom least J)
    (dictionary : Dictionary) (textOffset : Int) (skipUnknown : Bool) (tokens : List Token)
    (address : Int) (place : least = 0 ∨ least ≤ address := by exact .inl rfl) :
    Keeps J
      (dictionary.writeTokens textOffset skipUnknown address tokens : GameMemory.Edit Unit) := by
  induction tokens generalizing address with
  | nil => exact .pure trivial
  | cons token rest ih =>
      obtain ⟨start, word⟩ := token
      have others := ih (address + 4) (by omega)
      unfold writeTokens
      refine .get fun memory _ => .bind (.lift fun _ _ => trivial) fun found _ => ?_
      dsimp only
      split
      · refine .seq (GameMemory.keeps_writeWord survives _ _ (by omega)) fun _ => ?_
        refine .seq (GameMemory.keeps_write survives _ _ (by omega)) fun _ => ?_
        exact .seq (GameMemory.keeps_write survives _ _ (by omega)) fun _ => others
      · exact others

/-- A parse table is written behind its first byte, which is only read. -/
theorem keeps_tokenise (survives : GameMemory.SurvivesWritesFrom least J) (dictionary : Dictionary)
    (chars : List Int) (parseTable textOffset : Int) (skipUnknown : Bool)
    (near : least ≤ 1 := by decide) :
    Keeps J (dictionary.tokenise chars parseTable textOffset skipUnknown :
      GameMemory.Edit (List Token)) := by
  have room : Ensures J (fun _ => 0 ≤ parseTable)
      (Store.byte parseTable : GameMemory.Edit Nat) :=
    .get fun memory _ => .lift fun _ read => (Image.byte_eq_ok read).1.1
  unfold tokenise
  refine .bind room fun _ positive => ?_
  refine .seq (GameMemory.keeps_write survives _ _ (by omega)) fun _ => ?_
  exact .seq (keeps_writeTokens survives dictionary _ _ _ _ (.inr (by omega))) fun _ =>
    .pure trivial

end Dictionary

namespace ObjectTable

variable {J : GameMemory → Prop} {least : Nat} {table : ObjectTable}

private theorem recordsStart_le {id address : Int} (found : table.recordAddress id = .ok address) :
    table.recordsStart ≤ address := by
  unfold recordAddress at found
  by_cases valid : table.isValidId id = true
  · rw [if_pos valid] at found
    cases found
    unfold isValidId at valid
    simp only [Bool.and_eq_true, decide_eq_true_eq] at valid
    have behind := Int.mul_nonneg (Int.natCast_nonneg table.version.objectEntrySize)
      (show 0 ≤ id - 1 by omega)
    omega
  · rw [if_neg valid] at found
    cases found

private theorem recordsStart_le_of_attributePlace {id number : Int} {place : Int × Nat}
    (found : table.attributePlace id number = .ok place) : table.recordsStart ≤ place.1 := by
  unfold attributePlace at found
  by_cases outside : number < 0 ∨ table.version.attributeCount ≤ number
  · rw [if_pos outside] at found
    cases found
  · rw [if_neg outside] at found
    obtain ⟨address, recorded, found⟩ := Result.bind_eq_ok found
    cases found
    have behind := recordsStart_le recorded
    dsimp only
    omega

/-- An edit of an object writes where the records are. -/
theorem keeps_setLink (survives : GameMemory.SurvivesWritesFrom least J) (table : ObjectTable)
    (link : Link) (id target : Int)
    (place : least = 0 ∨ least ≤ table.recordsStart := by exact .inl rfl) :
    Keeps J (table.setLink link id target) := by
  unfold setLink
  refine .bind (Q := (table.recordsStart ≤ ·)) (.lift fun _ => recordsStart_le)
    fun address behind => ?_
  split
  · exact GameMemory.keeps_write survives _ _ (by omega)
  · exact GameMemory.keeps_writeWord survives _ _ (by omega)

/-- Changing an attribute keeps what survives the writes among the records. -/
theorem keeps_changeAttribute (survives : GameMemory.SurvivesWritesFrom least J)
    (table : ObjectTable) (on : Bool) (id number : Int)
    (place : least = 0 ∨ least ≤ table.recordsStart := by exact .inl rfl) :
    Keeps J (table.changeAttribute on id number) := by
  unfold changeAttribute
  refine .bind (Q := (table.recordsStart ≤ ·.1)) (.lift fun _ => recordsStart_le_of_attributePlace)
    fun found behind => ?_
  refine .get fun memory _ => .bind (.lift fun _ _ => trivial) fun byte _ => ?_
  exact GameMemory.keeps_write survives _ _ (by omega)

/-- Taking an object out of the tree keeps what survives the writes among the records. -/
theorem keeps_remove (survives : GameMemory.SurvivesWritesFrom least J) (table : ObjectTable)
    (id : Int) (place : least = 0 ∨ least ≤ table.recordsStart := by exact .inl rfl) :
    Keeps J (table.remove id) := by
  have linked (link : Link) (id target : Int) : Keeps J (table.setLink link id target) :=
    keeps_setLink survives table link id target place
  have detach : Keeps J (do table.setLink .parent id 0; table.setLink .sibling id 0) :=
    .seq (linked _ _ _) fun _ => linked _ _ _
  unfold remove
  refine .get fun memory _ => .bind (.lift fun _ _ => trivial) fun parent _ => ?_
  dsimp only
  split
  · exact .pure trivial
  refine .get fun memory _ => .bind (.lift fun _ _ => trivial) fun sibling _ => ?_
  refine .get fun memory _ => .bind (.lift fun _ _ => trivial) fun first _ => ?_
  split
  · exact .seq (linked _ _ _) fun _ => detach
  · refine .get fun memory _ => .bind (.lift fun _ _ => trivial) fun older _ => ?_
    exact .seq (linked _ _ _) fun _ => detach

/-- Putting an object into the tree keeps what survives the writes among the records. -/
theorem keeps_insert (survives : GameMemory.SurvivesWritesFrom least J) (table : ObjectTable)
    (id target : Int) (place : least = 0 ∨ least ≤ table.recordsStart := by exact .inl rfl) :
    Keeps J (table.insert id target) := by
  have linked (link : Link) (id target : Int) : Keeps J (table.setLink link id target) :=
    keeps_setLink survives table link id target place
  unfold insert
  refine .bind (.lift fun _ _ => trivial) fun _ _ => .bind (.lift fun _ _ => trivial) fun _ _ => ?_
  refine .get fun memory _ => .bind (.lift fun _ _ => trivial) fun _ _ => ?_
  refine .seq (keeps_remove survives table id place) fun _ => ?_
  refine .seq (linked _ _ _) fun _ => ?_
  refine .get fun memory _ => .bind (.lift fun _ _ => trivial) fun first _ => ?_
  exact .seq (linked _ _ _) fun _ => linked _ _ _

/-- A property at address zero is taken for a missing one. -/
theorem keeps_putProperty (survives : GameMemory.SurvivesWritesFrom least J) (table : ObjectTable)
    (id number value : Int) (near : least ≤ 1 := by decide) :
    Keeps J (table.putProperty id number value) := by
  unfold putProperty
  refine .get fun memory _ => .bind (.lift fun _ _ => trivial) fun address _ => ?_
  refine .excluded fun present => ?_
  refine .get fun memory _ => .bind (.lift fun _ _ => trivial) fun length _ => ?_
  split
  · exact GameMemory.keeps_write survives _ _ (by omega)
  split
  · exact GameMemory.keeps_writeWord survives _ _ (by omega)
  · exact .fault _

end ObjectTable

end StoryMachine
