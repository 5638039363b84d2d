import StoryMachine.Proofs.ObjectTrees
import StoryMachine.Proofs.PropertyLists

/-!
# Writing properties

The size of a property is read in two ways: on the way through the list from the
first byte of its size field, and from its data alone from the last. The two agree
where every second byte of a size field is marked as the format has it. A value that
is stored then lies in the data of its property, so that it is read back and the
list is what it was.
-/

namespace StoryMachine

/-! ## Written bytes -/

namespace GameMemory

variable {memory after : GameMemory} {address value : Int}

/-- Memory has changed at most in a number of bytes from an address on. -/
structure Rewritten (address : Int) (count : Nat) (before after : GameMemory) : Prop where
  size : after.size = before.size
  dynamicEnd : after.dynamicEnd = before.dynamicEnd
  highStart : after.highStart = before.highStart
  bytes : ∀ place : Nat, ¬ (address ≤ place ∧ place < address + count) →
    after.bytes[place]? = before.bytes[place]?

private theorem write_eq_ok (written : write address value memory = .ok () after) :
    ∃ place : Nat, address = place ∧ place < memory.size ∧
      after = memory.withByte place (Byte.ofInt value) := by
  unfold write at written
  split at written
  · cases written
  split at written
  · cases written
    exact ⟨address.toNat, by omega, by omega, rfl⟩
  · cases written

private theorem writeWord_eq_ok (written : writeWord address value memory = .ok () after) :
    ∃ place : Nat, address = place ∧ place + 1 < memory.size ∧
      after = memory.withWord place value := by
  unfold writeWord at written
  rw [Action.get_bind] at written
  dsimp only at written
  split at written
  · cases written
  obtain ⟨_, between, high, low⟩ := Action.bind_eq_ok written
  obtain ⟨place, rfl, -, rfl⟩ := write_eq_ok high
  obtain ⟨next, there, held, rfl⟩ := write_eq_ok low
  obtain rfl : next = place + 1 := by omega
  rw [size_withByte] at held
  exact ⟨place, rfl, held, rfl⟩

private theorem rewritten_write (written : write address value memory = .ok () after) :
    Rewritten address 1 memory after ∧ after.byte address = .ok (value % 256).toNat := by
  obtain ⟨place, rfl, held, rfl⟩ := write_eq_ok written
  have size := memory.size_withByte place (Byte.ofInt value)
  refine ⟨⟨size, rfl, rfl, fun other apart => ?_⟩, ?_⟩
  · exact Array.getElem?_setIfInBounds_ne (by omega)
  · rw [Image.byte_of_holds ⟨by omega, by omega⟩, Int.toNat_natCast, peek_withByte_self held]
    unfold Byte.ofInt
    rw [UInt8.toNat_ofNat']
    congr 1
    omega

private theorem rewritten_writeWord (written : writeWord address value memory = .ok () after) :
    Rewritten address 2 memory after ∧ after.word address = .ok (value % 65536).toNat := by
  obtain ⟨place, rfl, held, rfl⟩ := writeWord_eq_ok written
  refine ⟨⟨memory.size_withWord place value, rfl, rfl, fun other apart => ?_⟩, ?_⟩
  · unfold withWord withByte
    rw [Array.getElem?_setIfInBounds_ne (by omega), Array.getElem?_setIfInBounds_ne (by omega)]
  · exact word_withWord held value

end GameMemory

open GameMemory (Rewritten)

namespace ObjectTable

/-! ## Marked size fields -/

/-- The second byte of every size field of two bytes has its highest bit set. -/
def Marked (table : ObjectTable) (image : Image) : Int → List Property → Prop
  | _, [] => True
  | start, property :: rest =>
      (property.address = start + 2 → 0x80 ≤ image.peek (start + 1).toNat) ∧
        table.Marked image (property.address + property.size) rest

instance decidableMarked (table : ObjectTable) (image : Image) :
    (start : Int) → (list : List Property) → Decidable (table.Marked image start list)
  | _, [] => isTrue trivial
  | _, property :: rest =>
      have := decidableMarked table image (property.address + property.size) rest
      inferInstanceAs (Decidable (_ ∧ _))

/-- The size fields of an object's properties are marked. -/
def KeepsFormat (table : ObjectTable) (image : Image) (id : Int) : Prop :=
  ∀ start list, table.listStart image id = .ok start → table.properties image id = .ok list →
    table.Marked image start list

/-- The data of the property of an object with a number shares no byte with the address of the
object's property list. -/
def ClearOfRecord (table : ObjectTable) (image : Image) (id number : Int) : Prop :=
  ∀ record property, table.recordAddress id = .ok record →
    table.findProperty image id number = .ok (some property) →
    property.address + property.size ≤ record + table.propertiesOffset ∨
      record + table.propertiesOffset + 2 ≤ property.address

variable {table : ObjectTable} {image other : Image} {id number start : Int} {property : Property}
  {list : List Property}

/-- The last byte of a marked size field gives the size that the first one gives. -/
theorem propertyLength_eq (read : table.propertyAt image start = .ok property)
    (marked : property.address = start + 2 → 0x80 ≤ image.peek (start + 1).toNat) :
    table.propertyLength image property.address = .ok property.size := by
  have positive := (propertyAt_eq_ok read).1.1
  unfold propertyAt at read
  obtain ⟨sizeByte, held, read⟩ := Result.bind_eq_ok read
  unfold propertyLength
  split at read
  · rename_i early
    cases read
    dsimp only
    rw [if_neg (by omega), Int.add_sub_cancel, held, Result.ok_bind, if_pos early]
    rfl
  rename_i late
  split at read
  · obtain ⟨second, held', read⟩ := Result.bind_eq_ok read
    cases read
    have high : 0x80 ≤ second := (Image.byte_eq_ok held').2 ▸ marked rfl
    have before : start + 2 - 1 = start + 1 := by omega
    dsimp only
    rw [if_neg (by omega), before, held', Result.ok_bind, if_neg late, if_pos high]
    rfl
  · rename_i low
    cases read
    dsimp only
    rw [if_neg (by omega), Int.add_sub_cancel, held, Result.ok_bind, if_neg late, if_neg low]
    rfl

private theorem Listed.propertyLength (listed : table.Listed image start list)
    (marked : table.Marked image start list) (member : property ∈ list) :
    table.propertyLength image property.address = .ok property.size := by
  induction listed with
  | done => cases member
  | next read some others ih =>
      obtain ⟨here, behind⟩ := marked
      rcases List.mem_cons.mp member with rfl | member
      · exact propertyLength_eq read here
      · exact ih behind member

/-! ## What a list depends on -/

/-- A size field is all that is read of it. -/
theorem propertyAt_congr (read : table.propertyAt image start = .ok property)
    (size : other.size = image.size)
    (same : ∀ place : Nat, start ≤ place → place < property.address →
      other.bytes[place]? = image.bytes[place]?) :
    table.propertyAt other start = .ok property := by
  have behind := (propertyAt_eq_ok read).2.1
  have first : other.byte start = image.byte start :=
    byte_congr size fun place there => same place (by omega) (by omega)
  rw [← read]
  unfold propertyAt at read ⊢
  obtain ⟨sizeByte, held, read⟩ := Result.bind_eq_ok read
  rw [first, held, Result.ok_bind, Result.ok_bind]
  by_cases early : table.version.isEarly = true
  · rw [if_pos early, if_pos early]
  by_cases long : 0x80 ≤ sizeByte
  · rw [if_neg early, if_pos long] at read
    obtain ⟨second, -, read⟩ := Result.bind_eq_ok read
    cases read
    have next : other.byte (start + 1) = image.byte (start + 1) :=
      byte_congr size fun place there => same place (by omega) (by dsimp only; omega)
    rw [if_neg early, if_neg early, if_pos long, if_pos long, next]
  · rw [if_neg early, if_neg early, if_neg long, if_neg long]

/-- Two images of one size that differ, from the start of a list on, in the data of its properties
alone. -/
def SameFields (image other : Image) (start : Int) (list : List Property) : Prop :=
  other.size = image.size ∧ ∀ place : Nat, start ≤ place →
    (∀ property ∈ list, ¬ (property.address ≤ place ∧ place < property.address + property.size)) →
    other.bytes[place]? = image.bytes[place]?

/-- The first size field is in no data of the list. -/
theorem SameFields.field {rest : List Property}
    (same : SameFields image other start (property :: rest))
    (others : table.Listed image (property.address + property.size) rest) {place : Nat}
    (least : start ≤ place) (most : place < property.address) :
    other.bytes[place]? = image.bytes[place]? := by
  refine same.2 place least fun listed member => ?_
  rcases List.mem_cons.mp member with rfl | member
  · omega
  · have further := (others.start_lt member).2
    omega

/-- The other size fields are behind the data of the first property. -/
theorem SameFields.tail {rest : List Property}
    (same : SameFields image other start (property :: rest)) (behind : start < property.address) :
    SameFields image other (property.address + property.size) rest := by
  refine ⟨same.1, fun place further apart => same.2 place (by omega) fun listed member => ?_⟩
  rcases List.mem_cons.mp member with rfl | member
  · omega
  · exact apart listed member

/-- Nothing of a list depends on the data in it. -/
theorem Listed.congr (listed : table.Listed image start list)
    (same : SameFields image other start list) : table.Listed other start list := by
  induction listed with
  | done read none =>
      have field := propertyAt_congr read same.1 fun place least _ => same.2 place least (by simp)
      exact .done field none
  | next read some others ih =>
      have behind := (propertyAt_eq_ok read).2.1
      have field := propertyAt_congr read same.1 fun place => same.field others
      exact .next field some (ih (same.tail behind))

private theorem Marked.congr (listed : table.Listed image start list)
    (marked : table.Marked image start list) (same : SameFields image other start list) :
    table.Marked other start list := by
  induction listed with
  | done => trivial
  | @next start property rest read some others ih =>
      obtain ⟨⟨positive, -⟩, behind, -⟩ := propertyAt_eq_ok read
      refine ⟨fun long => ?_, ih marked.2 (same.tail behind)⟩
      have second : other.bytes[(start + 1).toNat]? = image.bytes[(start + 1).toNat]? :=
        same.field others (by omega) (by omega)
      rw [Image.peek_eq_of_getElem? second]
      exact marked.1 long

/-! ## Storing a value -/

variable {memory after : GameMemory} {value : Int}

private theorem findProperty_eq_ok {found : Option Property}
    (answer : table.findProperty image id number = .ok found) :
    1 ≤ number ∧ number ≤ table.version.maxProperty ∧ ∃ list,
      table.properties image id = .ok list ∧
      (list.find? fun property => (property.number : Int) = number) = found := by
  obtain ⟨_, checked, answer⟩ := Result.bind_eq_ok answer
  obtain ⟨list, listed, answer⟩ := Result.bind_eq_ok answer
  cases answer
  unfold checkProperty at checked
  split at checked
  · cases checked
  · exact ⟨by omega, by omega, list, listed, rfl⟩

/-- A value is stored in the data of the first property with the number, from where it is read as
its size has it. -/
theorem putProperty_eq_ok (stored : table.putProperty id number value memory = .ok () after) :
    ∃ property length, table.findProperty memory.toImage id number = .ok (some property) ∧
      table.propertyLength memory.toImage property.address = .ok length ∧
      (length = 1 ∨ length = 2) ∧ Rewritten property.address length memory after ∧
      (if length = 1 then after.byte property.address else after.word property.address) =
        .ok (value % 256 ^ length).toNat := by
  unfold putProperty at stored
  rw [Action.get_bind] at stored
  obtain ⟨address, _, found, checked⟩ := Action.bind_eq_ok stored
  obtain ⟨found, rfl⟩ := Action.lift_eq_ok found
  obtain ⟨first, known, named⟩ := Result.bind_eq_ok found
  cases named
  dsimp only at checked
  split at checked
  · cases checked
  rename_i present
  rw [Action.get_bind] at checked
  obtain ⟨length, _, measured, written⟩ := Action.bind_eq_ok checked
  obtain ⟨measured, rfl⟩ := Action.lift_eq_ok measured
  cases first with
  | none => exact absurd rfl present
  | some property =>
      refine ⟨property, length, known, measured, ?_⟩
      split at written
      · rename_i one
        subst one
        exact ⟨.inl rfl, GameMemory.rewritten_write written⟩
      split at written
      · rename_i two
        subst two
        exact ⟨.inr rfl, GameMemory.rewritten_writeWord written⟩
      · cases written

/-- A property of one or two bytes has a value, its data as a byte or as a word. -/
theorem getProperty_eq (found : table.findProperty image id number = .ok (some property))
    (small : property.size = 1 ∨ property.size = 2) :
    table.getProperty image id number =
      if property.size = 1 then image.byte property.address else image.word property.address := by
  simp only [getProperty, propertyData, found, Result.ok_bind]
  rcases small with one | two
  · exact (if_pos one).trans (if_pos one).symm
  · have long : property.size ≠ 1 := by omega
    exact ((if_neg long).trans (if_pos two)).trans (if_neg long).symm

/-- The list of an object starts where it did if the address of the list and the length of the short
name are what they were. -/
theorem listStart_congr (begun : table.listStart image id = .ok start)
    (size : other.size = image.size)
    (pointer : ∀ record, table.recordAddress id = .ok record → ∀ place : Nat,
      record + table.propertiesOffset ≤ place → place < record + table.propertiesOffset + 2 →
        other.bytes[place]? = image.bytes[place]?)
    (name : ∀ place : Nat, (place : Int) < start → other.bytes[place]? = image.bytes[place]?) :
    table.listStart other id = .ok start := by
  obtain ⟨⟨address, length⟩, named, ended⟩ := Result.bind_eq_ok begun
  obtain ⟨place, pointed, named⟩ := Result.bind_eq_ok named
  obtain ⟨words, counted, named⟩ := Result.bind_eq_ok named
  obtain ⟨record, found, word⟩ := Result.bind_eq_ok pointed
  cases named
  cases ended
  have word' : other.word (record + table.propertiesOffset) = .ok place :=
    (word_congr size (pointer record found)).trans word
  have counted' : other.byte place = .ok words :=
    (byte_congr size fun byte there => name byte (by omega)).trans counted
  unfold listStart shortName propertiesAddress
  rw [found, Result.ok_bind, word', Result.ok_bind, counted']
  rfl

/-- A value that is stored in a property of an object is read back, cut to the size of the property.
The list of properties is what it was, the size that the data tells is that of the list, and no byte
beside the data has changed. -/
theorem stored_property_read_back (table : ObjectTable) (memory after : GameMemory)
    (id number value : Int) (stored : table.putProperty id number value memory = .ok () after)
    (format : table.KeepsFormat memory.toImage id)
    (clear : table.ClearOfRecord memory.toImage id number) :
    ∃ list property, table.properties memory.toImage id = .ok list ∧
      (list.find? fun listed => (listed.number : Int) = number) = some property ∧
      (property.size = 1 ∨ property.size = 2) ∧
      Rewritten property.address property.size memory after ∧
      table.properties after.toImage id = .ok list ∧
      table.propertyAddress after.toImage id number = .ok property.address ∧
      table.propertyLength after.toImage property.address = .ok property.size ∧
      table.getProperty after.toImage id number = .ok (value % 256 ^ property.size).toNat := by
  obtain ⟨property, length, found, measured, small, rewritten, held⟩ := putProperty_eq_ok stored
  obtain ⟨least, most, list, listed, first⟩ := findProperty_eq_ok found
  obtain ⟨start, begun, stands, short⟩ := properties_eq_ok_iff.mp listed
  have marked := format start list begun listed
  have member := List.mem_of_find?_eq_some first
  have behind := stands.start_lt member
  -- The size before the data is that of the list, so that just the data is written.
  have agreed := measured.symm.trans (stands.propertyLength marked member)
  obtain rfl : length = property.size := Except.ok.inj agreed
  have same : SameFields memory.toImage after.toImage start list :=
    ⟨rewritten.size, fun place _ apart => rewritten.bytes place (apart property member)⟩
  have begun' : table.listStart after.toImage id = .ok start := by
    refine listStart_congr begun rewritten.size (fun record recorded place least most => ?_)
      fun place before => rewritten.bytes place (by omega)
    have beside := clear record property recorded found
    exact rewritten.bytes place (by omega)
  have stands' := stands.congr same
  have listed' := properties_eq_ok_iff.mpr ⟨start, begun', stands', short⟩
  have found' := findProperty_eq listed' least most
  rw [first] at found'
  refine ⟨list, property, listed, first, small, rewritten, listed', ?_, ?_, ?_⟩
  · simp only [propertyAddress, found', Result.ok_bind]
    rfl
  · exact stands'.propertyLength (marked.congr stands same) member
  · exact (getProperty_eq found' small).trans held

private theorem listStart_sampleList : lateTable.listStart sampleList.toImage 1 = .ok 141 := by
  decide +kernel

/-- A negative number is stored in the property of the sample that has a size field of two bytes. -/
theorem stored_property_read_back_sample :
    ∃ after, lateTable.putProperty 1 3 (-2) sampleList = .ok () after ∧
      lateTable.getProperty after.toImage 1 3 = .ok 254 ∧
      Rewritten 146 1 sampleList after ∧
      lateTable.properties after.toImage 1 = lateTable.properties sampleList.toImage 1 := by
  have stored : lateTable.putProperty 1 3 (-2) sampleList =
      .ok () ((lateTable.putProperty 1 3 (-2)).finalState sampleList) :=
    Action.eq_ok_finalState (by decide +kernel)
  have format : lateTable.KeepsFormat sampleList.toImage 1 := by
    rintro start list begun listed
    cases listStart_sampleList.symm.trans begun
    cases properties_sampleList.symm.trans listed
    decide +kernel
  have clear : lateTable.ClearOfRecord sampleList.toImage 1 3 := by
    rintro record property recorded found
    have known : lateTable.findProperty sampleList.toImage 1 3 = .ok (some ⟨3, 146, 1⟩) := by
      decide +kernel
    cases known.symm.trans found
    cases (show lateTable.recordAddress 1 = .ok 126 by decide).symm.trans recorded
    decide
  obtain ⟨list, property, listed, first, -, rewritten, listed', -, -, read⟩ :=
    stored_property_read_back lateTable sampleList _ 1 3 (-2) stored format clear
  cases properties_sampleList.symm.trans listed
  obtain rfl : ⟨3, 146, 1⟩ = property := Option.some.inj first
  exact ⟨_, stored, read, rewritten, listed'.trans listed.symm⟩

end ObjectTable

end StoryMachine
