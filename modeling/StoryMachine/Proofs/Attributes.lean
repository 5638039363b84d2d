import StoryMachine.Proofs.ObjectTrees

/-!
# Attributes

The attributes of an object are the bits of the first bytes of its record, from the
highest bit of the first byte on. Every attribute of every object has a bit of its
own, and no link and no address of a property list shares it. Giving or taking away
an attribute therefore changes the answer to one question about the table.
-/

namespace StoryMachine

open Links (IsObject)

namespace ObjectTable

/-! ## Where attributes stand -/

/-- The bytes of a record that hold attributes. -/
def attributeBytes (table : ObjectTable) : Nat :=
  if table.version.isEarly then 4 else 6

/-- The byte that holds an attribute. -/
def attributeByte (table : ObjectTable) (id number : Nat) : Int :=
  table.recordStart id + (number / 8 : Nat)

/-- The bit of an attribute in its byte. -/
def attributeBit (number : Nat) : Nat :=
  7 - number % 8

/-- The numbers can name an object and an attribute. -/
def Names (table : ObjectTable) (id number : Int) : Prop :=
  table.isValidId id = true ∧ 0 ≤ number ∧ number < table.version.attributeCount

/-- The attribute bytes of an object lie in dynamic memory. -/
def AttributesWithin (table : ObjectTable) (memory : GameMemory) (id : Int) : Prop :=
  ∃ record, table.recordAddress id = .ok record ∧ 0 ≤ record ∧
    record + table.attributeBytes ≤ memory.dynamicEnd ∧
    record + table.attributeBytes ≤ memory.size

instance (table : ObjectTable) (id number : Int) : Decidable (table.Names id number) :=
  inferInstanceAs (Decidable (_ ∧ _))

variable {table : ObjectTable} {memory after : GameMemory} {id other number which : Nat}

private theorem attributeBytes_le (table : ObjectTable) :
    table.attributeBytes ≤ table.version.objectEntrySize := by
  unfold attributeBytes Version.objectEntrySize
  split <;> decide

private theorem attributeCount_eq (table : ObjectTable) :
    table.version.attributeCount = 8 * table.attributeBytes := by
  unfold attributeBytes Version.attributeCount
  split <;> rfl

private theorem isValidId_iff {id : Int} :
    table.isValidId id = true ↔ ∃ object : Nat, id = object ∧
      IsObject table.version.maxObject object := by
  simp only [isValidId, Bool.and_eq_true, decide_eq_true_eq]
  constructor
  · rintro ⟨least, most⟩
    exact ⟨id.toNat, by omega, by omega, by omega⟩
  · rintro ⟨object, rfl, least, most⟩
    omega

private theorem names_iff {id number : Int} :
    table.Names id number ↔ ∃ object index : Nat, id = object ∧ number = index ∧
      IsObject table.version.maxObject object ∧ index / 8 < table.attributeBytes := by
  have whole := table.attributeCount_eq
  unfold Names
  rw [isValidId_iff]
  constructor
  · rintro ⟨⟨object, rfl, known⟩, least, most⟩
    exact ⟨object, number.toNat, rfl, by omega, known, by omega⟩
  · rintro ⟨object, index, rfl, rfl, known, inside⟩
    exact ⟨⟨object, rfl, known⟩, by omega, by omega⟩

/-- A byte of a record belongs to one object and has one place in its record. -/
theorem recordStart_add_inj {offset place : Nat} (inside : offset < table.version.objectEntrySize)
    (inside' : place < table.version.objectEntrySize)
    (same : table.recordStart id + offset = table.recordStart other + place) :
    id = other ∧ offset = place := by
  unfold recordStart at same
  unfold Version.objectEntrySize at *
  cases early : table.version.isEarly <;>
    simp only [early, Bool.false_eq_true, ↓reduceIte] at * <;> omega

/-- Two attributes do not share a bit. -/
theorem attribute_inj (inside : number / 8 < table.attributeBytes)
    (inside' : which / 8 < table.attributeBytes)
    (byte : table.attributeByte id number = table.attributeByte other which)
    (bit : attributeBit number = attributeBit which) : id = other ∧ number = which := by
  have whole := table.attributeBytes_le
  obtain ⟨same, offset⟩ := recordStart_add_inj (by omega) (by omega) byte
  unfold attributeBit at bit
  exact ⟨same, by omega⟩

/-- An attribute shares no byte with what stands behind the attributes of a record. -/
theorem attributeByte_ne (other : Nat) (inside : number / 8 < table.attributeBytes) {place : Int}
    (least : table.recordStart other + table.attributeBytes ≤ place)
    (most : place < table.recordStart other + table.version.objectEntrySize) :
    place ≠ table.attributeByte id number := by
  have whole := table.attributeBytes_le
  obtain ⟨offset, there⟩ := Int.le.dest (Int.le_trans (Int.le_add_of_nonneg_right (by omega)) least)
  intro same
  have alike := (recordStart_add_inj (by omega) (by omega) (same.symm.trans there.symm)).2
  omega

private theorem attributePlace_eq (object : IsObject table.version.maxObject id)
    (inside : number / 8 < table.attributeBytes) :
    table.attributePlace id number =
      .ok (table.attributeByte id number, attributeBit number) := by
  have whole := table.attributeCount_eq
  have bit : ((number : Int) % 8).toNat = number % 8 := by omega
  unfold attributePlace attributeBit
  rw [if_neg (by omega), recordAddress_eq le_rfl object, Result.ok_bind, bit]
  rfl

/-- A number that can name no object, or no attribute, is a fault of the object table. -/
theorem attributePlace_of_not_names {id number : Int} (unnamed : ¬ table.Names id number) :
    ∃ cause, cause.kind = .object ∧ table.attributePlace id number = .fault cause := by
  unfold attributePlace
  by_cases outside : number < 0 ∨ table.version.attributeCount ≤ number
  · exact ⟨.invalidAttribute number id, rfl, by rw [if_pos outside]; rfl⟩
  · have invalid : ¬ table.isValidId id = true := fun valid => unnamed ⟨valid, by omega, by omega⟩
    refine ⟨.invalidObject id, rfl, ?_⟩
    rw [if_neg outside, recordAddress, if_neg invalid]
    rfl

private theorem attributeByte_within {id : Nat} (object : IsObject table.version.maxObject id)
    (within : table.AttributesWithin memory id) (inside : number / 8 < table.attributeBytes) :
    ∃ address : Nat, table.attributeByte id number = address ∧
      (address : Int) < memory.dynamicEnd ∧ address < memory.size := by
  obtain ⟨record, found, start, dynamic, held⟩ := within
  rw [recordAddress_eq le_rfl object] at found
  cases found
  unfold attributeByte
  exact ⟨(table.recordStart id + (number / 8 : Nat)).toNat, by omega, by omega, by omega⟩

/-! ## One bit of memory -/

/-- Memory has changed at most in one bit of the byte at an address. -/
structure BitChanged (address bit : Nat) (before after : GameMemory) : Prop where
  size : after.size = before.size
  dynamicEnd : after.dynamicEnd = before.dynamicEnd
  highStart : after.highStart = before.highStart
  bits : ∀ place which, ¬ (place = address ∧ which = bit) →
    after.peekFlag place which = before.peekFlag place which

variable {address bit : Nat}

private theorem BitChanged.getElem? (changed : BitChanged address bit memory after) {place : Nat}
    (apart : place ≠ address) : after.bytes[place]? = memory.bytes[place]? := by
  refine Image.getElem?_eq_of_peek changed.size (Image.peek_eq_of_peekFlag fun which => ?_)
  exact changed.bits place which fun same => apart same.1

private theorem peek_withBit (held : address < memory.size) (on : Bool) :
    (memory.withByte address (Byte.ofInt (Image.withBit (memory.peek address) bit on))).peek
      address = Image.withBit (memory.peek address) bit on := by
  rw [GameMemory.peek_withByte_self held,
    Image.toNat_byte_ofInt (Image.withBit_lt (memory.peek_lt address) on)]

private theorem bitChanged_withByte (held : address < memory.size) (on : Bool) :
    BitChanged address bit memory
      (memory.withByte address (Byte.ofInt (Image.withBit (memory.peek address) bit on))) where
  size := memory.size_withByte address _
  dynamicEnd := rfl
  highStart := rfl
  bits := by
    intro place which apart
    unfold Image.peekFlag
    by_cases here : place = address
    · subst here
      rw [peek_withBit held]
      exact Image.testBit_withBit_of_ne (fun same => apart ⟨rfl, same⟩) on
    · rw [GameMemory.peek_withByte_of_ne here]

/-! ## Reading and changing an attribute -/

private theorem hasAttribute_eq (object : IsObject table.version.maxObject id)
    (inside : number / 8 < table.attributeBytes) {image : Image}
    (place : table.attributeByte id number = address) (held : address < image.size) :
    table.hasAttribute image id number = .ok (image.peekFlag address (attributeBit number)) := by
  unfold hasAttribute
  rw [attributePlace_eq object inside, Result.ok_bind, place]
  dsimp only
  rw [Image.byte_of_holds ⟨by omega, by omega⟩]
  rfl

private theorem changeAttribute_eq (object : IsObject table.version.maxObject id)
    (inside : number / 8 < table.attributeBytes)
    (place : table.attributeByte id number = address)
    (dynamic : (address : Int) < memory.dynamicEnd) (held : address < memory.size) (on : Bool) :
    ∃ after, table.changeAttribute on id number memory = .ok () after ∧
      BitChanged address (attributeBit number) memory after ∧
      after.peekFlag address (attributeBit number) = on := by
  refine ⟨_, ?_, bitChanged_withByte held on, ?_⟩
  · unfold changeAttribute
    rw [attributePlace_eq object inside, Action.lift_bind, place]
    dsimp only
    rw [Action.get_bind, Image.byte_of_holds ⟨by omega, by omega⟩, Action.lift_bind]
    exact GameMemory.write_eq _ dynamic held
  · have small : attributeBit number < 8 := by
      unfold attributeBit
      omega
    unfold Image.peekFlag
    rw [peek_withBit held]
    exact Image.testBit_withBit_self _ small _ (memory.peek_lt address) on

/-- Links and addresses of property lists stand behind the attributes. -/
theorem attributeBytes_le_offsets (table : ObjectTable) (link : Link) :
    table.attributeBytes ≤ table.linkOffset link ∧
      table.linkOffset link + table.linkSize ≤ table.version.objectEntrySize ∧
      table.attributeBytes ≤ table.propertiesOffset ∧
      table.propertiesOffset + 2 ≤ table.version.objectEntrySize := by
  unfold attributeBytes linkOffset linkSize propertiesOffset Version.objectEntrySize
  cases table.version.isEarly <;> cases link <;> decide

private theorem BitChanged.link (changed : BitChanged address bit memory after)
    (place : table.attributeByte id number = address)
    (inside : number / 8 < table.attributeBytes) (link : Link) (other : Int) :
    table.link after.toImage link other = table.link memory.toImage link other := by
  have offsets := table.attributeBytes_le_offsets link
  by_cases valid : table.isValidId other = true
  · obtain ⟨object, rfl, -⟩ := isValidId_iff.mp valid
    rw [link_eq_linkAt valid, link_eq_linkAt valid]
    refine linkAt_congr changed.size fun byte least most => changed.getElem? ?_
    unfold linkStart at least most
    have apart : (byte : Int) ≠ table.attributeByte id number :=
      attributeByte_ne object inside (by omega) (by omega)
    omega
  · unfold ObjectTable.link recordAddress
    rw [if_neg valid]
    rfl

private theorem BitChanged.propertiesAddress (changed : BitChanged address bit memory after)
    (place : table.attributeByte id number = address)
    (inside : number / 8 < table.attributeBytes) (other : Int) :
    table.propertiesAddress after.toImage other = table.propertiesAddress memory.toImage other := by
  have offsets := table.attributeBytes_le_offsets .parent
  unfold ObjectTable.propertiesAddress
  by_cases valid : table.isValidId other = true
  · obtain ⟨object, rfl, known⟩ := isValidId_iff.mp valid
    rw [recordAddress_eq le_rfl known, Result.ok_bind, Result.ok_bind]
    refine word_congr changed.size fun byte least most => changed.getElem? ?_
    have apart : (byte : Int) ≠ table.attributeByte id number :=
      attributeByte_ne object inside (by omega) (by omega)
    omega
  · rw [recordAddress, if_neg valid]
    rfl

/-- An attribute that is set or cleared is the only answer of the table that changes. At most one
bit of memory is another one afterwards: every attribute but this one is what it was, and so are
the links of all objects and the addresses of their property lists. A number that can name no
object or no attribute is a fault of the object table and changes nothing. -/
theorem attributes_apart (table : ObjectTable) (memory : GameMemory) (on : Bool)
    (id number : Int) :
    (table.Names id number → table.AttributesWithin memory id →
      ∃ after address bit, table.changeAttribute on id number memory = .ok () after ∧
        BitChanged address bit memory after ∧
        (∀ other which, table.Names other which → table.AttributesWithin memory other →
          ∃ before, table.hasAttribute memory.toImage other which = .ok before ∧
            table.hasAttribute after.toImage other which =
              .ok (if other = id ∧ which = number then on else before)) ∧
        (∀ link other,
          table.link after.toImage link other = table.link memory.toImage link other) ∧
        ∀ other, table.propertiesAddress after.toImage other =
          table.propertiesAddress memory.toImage other) ∧
    (¬ table.Names id number → ∃ fault, fault.kind = .object ∧
      table.changeAttribute on id number memory = .error (.fault fault) memory ∧
      table.hasAttribute memory.toImage id number = .error (.fault fault)) := by
  constructor
  · intro named within
    obtain ⟨object, index, rfl, rfl, known, inside⟩ := names_iff.mp named
    obtain ⟨address, place, dynamic, held⟩ := attributeByte_within known within inside
    obtain ⟨after, done, changed, now⟩ := changeAttribute_eq known inside place dynamic held on
    refine ⟨after, address, _, done, changed, ?_, changed.link place inside,
      changed.propertiesAddress place inside⟩
    intro other which named' within'
    obtain ⟨other, which, rfl, rfl, known', inside'⟩ := names_iff.mp named'
    obtain ⟨address', place', -, held'⟩ := attributeByte_within known' within' inside'
    refine ⟨_, hasAttribute_eq known' inside' place' held', ?_⟩
    rw [hasAttribute_eq known' inside' place' (changed.size.symm ▸ held')]
    by_cases same : other = object ∧ which = index
    · obtain ⟨rfl, rfl⟩ := same
      obtain rfl : address' = address := by omega
      simp [now]
    · have apart : ¬ (address' = address ∧ attributeBit which = attributeBit index) := by
        rintro ⟨rfl, bit⟩
        exact same (attribute_inj inside' inside (place'.trans place.symm) bit)
      rw [changed.bits _ _ apart, if_neg (by omega)]
  · intro unnamed
    obtain ⟨cause, kind, refused⟩ := attributePlace_of_not_names unnamed
    refine ⟨{ cause }, kind, ?_, ?_⟩
    · unfold changeAttribute
      rw [refused]
      rfl
    · unfold hasAttribute
      rw [refused]
      rfl

private theorem attributesWithin_sampleTree {id : Int} (object : id = 1 ∨ id = 2) :
    sampleTable.AttributesWithin sampleTree id := by
  rcases object with rfl | rfl
  · exact ⟨62, by decide, by decide, by decide, by decide⟩
  · exact ⟨71, by decide, by decide, by decide, by decide⟩

/-- The last attribute of the first object is set. It stands before a link of that object, and the
attributes of the second object and its parent are what they were. There is no attribute behind
it. -/
theorem attributes_apart_last :
    ∃ after address bit, sampleTable.changeAttribute true 1 31 sampleTree = .ok () after ∧
      BitChanged address bit sampleTree after ∧
      sampleTable.hasAttribute after.toImage 1 31 = .ok true ∧
      sampleTable.hasAttribute after.toImage 2 0 = .ok false ∧
      sampleTable.link after.toImage .parent 2 = .ok 1 ∧
      ∃ fault, fault.kind = .object ∧
        sampleTable.changeAttribute false 1 32 sampleTree = .error (.fault fault) sampleTree := by
  obtain ⟨after, address, bit, done, changed, attributes, links, -⟩ :=
    (attributes_apart sampleTable sampleTree true 1 31).1 (by decide)
      (attributesWithin_sampleTree (.inl rfl))
  obtain ⟨fault, kind, refused, -⟩ :=
    (attributes_apart sampleTable sampleTree false 1 32).2 (by decide)
  refine ⟨after, address, bit, done, changed, ?_, ?_, (links .parent 2).trans (by decide), fault,
    kind, refused⟩
  · obtain ⟨before, -, now⟩ := attributes 1 31 (by decide) (attributesWithin_sampleTree (.inl rfl))
    exact now
  · obtain ⟨before, known, now⟩ :=
      attributes 2 0 (by decide) (attributesWithin_sampleTree (.inr rfl))
    obtain rfl : before = false := Except.ok.inj (known.symm.trans (by decide))
    exact now

end ObjectTable

end StoryMachine
