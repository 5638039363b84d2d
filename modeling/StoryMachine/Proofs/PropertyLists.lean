import StoryMachine.ObjectTable.Property
import StoryMachine.Proofs.Images

/-!
# Property lists

The properties of an object stand one behind the other, each behind a size field
that says where the next one is, up to number zero. Reading the list gives just the
properties that stand there. Where their numbers differ, asking for one property
after the other goes through the whole list, and a number leads either to the data
in the list or to the default.
-/

namespace StoryMachine

namespace ObjectTable

/-! ## Lists in memory -/

/-- Properties that stand one behind the other, with the size field of the first at an address and
number zero behind the last. -/
inductive Listed (table : ObjectTable) (image : Image) : Int → List Property → Prop
  | done {start : Int} {property : Property} (read : table.propertyAt image start = .ok property)
      (none : property.number = 0) : table.Listed image start []
  | next {start : Int} {property : Property} {rest : List Property}
      (read : table.propertyAt image start = .ok property) (some : property.number ≠ 0)
      (others : table.Listed image (property.address + property.size) rest) :
      table.Listed image start (property :: rest)

/-- Where the properties of an object are listed, behind its short name. -/
def listStart (table : ObjectTable) (image : Image) (id : Int) : Result Int := do
  let (address, length) ← table.shortName image id
  return address + length

variable {table : ObjectTable} {image : Image} {id number start : Int} {property : Property}
  {list : List Property}

/-- A property stands behind its size field of one or two bytes. -/
theorem propertyAt_eq_ok (read : table.propertyAt image start = .ok property) :
    image.Holds start ∧ start < property.address ∧ property.address ≤ start + 2 ∧
      property.number ≤ table.version.maxProperty ∧ 0 < property.size := by
  unfold propertyAt at read
  obtain ⟨sizeByte, held, read⟩ := Result.bind_eq_ok read
  obtain ⟨holds, -⟩ := Image.byte_eq_ok held
  unfold Version.maxProperty
  split at read
  · rename_i early
    cases read
    rw [if_pos early]
    exact ⟨holds, by dsimp only; omega⟩
  rename_i late
  rw [if_neg late]
  split at read
  · obtain ⟨second, -, read⟩ := Result.bind_eq_ok read
    cases read
    refine ⟨holds, ?_⟩
    unfold longSize
    dsimp only
    split <;> omega
  · cases read
    refine ⟨holds, ?_⟩
    dsimp only
    split <;> omega

/-- The properties that are read are those that stand in the list, if there is room for them. -/
theorem propertiesFrom_eq_ok_iff {room : Nat} :
    table.propertiesFrom image id room start = .ok list ↔
      table.Listed image start list ∧ list.length ≤ room := by
  constructor
  · intro read
    induction room generalizing start list with
    | zero =>
        obtain ⟨property, found, read⟩ := Result.bind_eq_ok read
        split at read
        · rename_i none
          cases read
          exact ⟨.done found none, le_rfl⟩
        · cases read
    | succ room ih =>
        obtain ⟨property, found, read⟩ := Result.bind_eq_ok read
        split at read
        · rename_i none
          cases read
          exact ⟨.done found none, Nat.zero_le _⟩
        · rename_i some
          obtain ⟨rest, others, read⟩ := Result.bind_eq_ok read
          cases read
          obtain ⟨listed, short⟩ := ih others
          exact ⟨.next found some listed, Nat.succ_le_succ short⟩
  · rintro ⟨listed, short⟩
    induction listed generalizing room with
    | done read none =>
        unfold propertiesFrom
        rw [read, Result.ok_bind, if_pos none]
        rfl
    | next read some others ih =>
        obtain ⟨room, rfl⟩ := Nat.exists_eq_add_of_lt short
        unfold propertiesFrom
        rw [read, Result.ok_bind, if_neg some]
        dsimp only
        rw [ih (by simp only [List.length_cons] at short; omega)]
        rfl

/-- The properties of an object are those that stand in its list, if they are not too many. -/
theorem properties_eq_ok_iff :
    table.properties image id = .ok list ↔
      ∃ start, table.listStart image id = .ok start ∧ table.Listed image start list ∧
        list.length ≤ table.version.maxProperty := by
  unfold properties listStart
  cases table.shortName image id with
  | error failure =>
      refine ⟨nofun, ?_⟩
      rintro ⟨start, ⟨⟩, -⟩
  | ok name =>
      refine propertiesFrom_eq_ok_iff.trans ⟨fun listed => ⟨_, rfl, listed⟩, ?_⟩
      rintro ⟨start, ⟨⟩, listed⟩
      exact listed

/-- Every listed property has its size field in the list. -/
theorem Listed.exists_field (listed : table.Listed image start list) :
    ∀ property ∈ list, ∃ field, start ≤ field ∧ table.propertyAt image field = .ok property ∧
      property.number ≠ 0 := by
  induction listed with
  | done => simp
  | next read some others ih =>
      intro property member
      rcases List.mem_cons.mp member with rfl | member
      · exact ⟨_, Int.le_refl _, read, some⟩
      · obtain ⟨field, behind, found⟩ := ih property member
        have onward := (propertyAt_eq_ok read).2.1
        exact ⟨field, by omega, found⟩

/-- The properties of a list stand behind its start. -/
theorem Listed.start_lt (listed : table.Listed image start list) (member : property ∈ list) :
    0 ≤ start ∧ start < property.address := by
  obtain ⟨field, behind, read, -⟩ := listed.exists_field property member
  have onward := (propertyAt_eq_ok read).2.1
  refine ⟨?_, by omega⟩
  cases listed with
  | done read none => exact (propertyAt_eq_ok read).1.1
  | next read some others => exact (propertyAt_eq_ok read).1.1

private theorem Listed.number_le (listed : table.Listed image start list) (member : property ∈ list) :
    property.number ≠ 0 ∧ property.number ≤ table.version.maxProperty := by
  obtain ⟨field, -, read, some⟩ := listed.exists_field property member
  exact ⟨some, (propertyAt_eq_ok read).2.2.2.1⟩

/-! ## One property after the other -/

/-- The answers to a number of questions for the next property, each about the answer before. -/
def visits (table : ObjectTable) (image : Image) (id : Int) : Nat → Int → Result (List Nat)
  | 0, _ => .ok []
  | steps + 1, number => do
      let next ← table.nextProperty image id number
      let others ← table.visits image id steps next
      return next :: others

variable {numbers front back : List Nat}

private theorem following_eq_none_iff :
    following number numbers = none ↔ ∀ n ∈ numbers, (n : Int) ≠ number := by
  induction numbers with
  | nil => simp [following]
  | cons first rest ih => by_cases same : (first : Int) = number <;> simp [following, same, ih]

/-- Behind the first occurrence of a number comes the rest of the list. -/
theorem following_append {n : Nat} (fresh : n ∉ front) :
    following n (front ++ n :: back) = some (back.headD 0) := by
  induction front with
  | nil => simp [following]
  | cons first front ih =>
      simp only [List.mem_cons, not_or] at fresh
      have other : ¬ (first : Int) = n := by omega
      simp [following, other, ih fresh.2]

private theorem nextProperty_eq (listed : table.properties image id = .ok list) :
    table.nextProperty image id number =
      if number = 0 then .ok ((list.map Property.number).headD 0)
      else
        match following number (list.map Property.number) with
        | some next => .ok next
        | none => .fault (.noSuchProperty number id) := by
  simp only [nextProperty, listed, Result.ok_bind]
  rfl

/-- From a place in the list the questions go through all that is behind it. -/
theorem visits_eq (listed : table.properties image id = .ok list)
    (distinct : (list.map Property.number).Nodup) (named : 0 ∉ list.map Property.number)
    (split : list.map Property.number = front ++ back)
    (next : table.nextProperty image id number = .ok (back.headD 0)) :
    table.visits image id (back.length + 1) number = .ok (back ++ [0]) := by
  induction back generalizing front number with
  | nil =>
      simp only [visits, next, Result.ok_bind]
      rfl
  | cons n back ih =>
      rw [split] at distinct named
      have fresh : n ∉ front :=
        (List.nodup_middle.mp distinct).notMem ∘ List.mem_append_left back
      have present : n ≠ 0 := by
        rintro rfl
        exact named (by simp)
      have onward : table.nextProperty image id n = .ok (back.headD 0) := by
        rw [nextProperty_eq listed, if_neg (by exact_mod_cast present), split,
          following_append fresh]
      have further : list.map Property.number = (front ++ [n]) ++ back := by simp [split]
      rw [List.headD_cons] at next
      rw [List.length_cons, visits, next, Result.ok_bind, ih further onward]
      rfl

/-- Exactly a number other than zero that is in no property of the list has none after it. -/
theorem nextProperty_fault_iff (listed : table.properties image id = .ok list) (number : Int) :
    (∃ fault, fault.kind = .object ∧
      table.nextProperty image id number = .error (.fault fault)) ↔
      number ≠ 0 ∧ ∀ property ∈ list, (property.number : Int) ≠ number := by
  rw [nextProperty_eq listed]
  by_cases zero : number = 0
  · simp [zero]
  have absent : following number (list.map Property.number) = none ↔
      ∀ property ∈ list, (property.number : Int) ≠ number := by
    simp [following_eq_none_iff]
  rw [if_neg zero, ← absent]
  cases found : following number (list.map Property.number) with
  | none => exact ⟨fun _ => ⟨zero, rfl⟩, fun _ => ⟨_, rfl, rfl⟩⟩
  | some next => simp

/-! ## Finding a property -/

private theorem checkProperty_eq (least : 1 ≤ number) (most : number ≤ table.version.maxProperty) :
    table.checkProperty number = .ok () :=
  if_neg (by omega)

/-- The first property with a number is found. -/
theorem findProperty_eq (listed : table.properties image id = .ok list)
    (least : 1 ≤ number) (most : number ≤ table.version.maxProperty) :
    table.findProperty image id number =
      .ok (list.find? fun property => (property.number : Int) = number) := by
  simp only [findProperty, checkProperty_eq least most, listed, Result.ok_bind]
  rfl

private theorem propertyAddress_ne_zero_iff (listed : table.properties image id = .ok list)
    (stands : table.Listed image start list) (least : 1 ≤ number)
    (most : number ≤ table.version.maxProperty) :
    ∃ address, table.propertyAddress image id number = .ok address ∧
      (address ≠ 0 ↔ ∃ property ∈ list, (property.number : Int) = number) := by
  simp only [propertyAddress, findProperty_eq listed least most, Result.ok_bind]
  refine ⟨_, rfl, ?_⟩
  cases found : list.find? fun property => (property.number : Int) = number with
  | none => simpa using found
  | some property =>
      have member := List.mem_of_find?_eq_some found
      have behind := stands.start_lt member
      have same := List.find?_some found
      simp only [decide_eq_true_eq] at same
      simp only [Option.map_some, Option.getD_some]
      exact ⟨fun _ => ⟨property, member, same⟩, fun _ => by omega⟩

private theorem propertyData_of_mem (listed : table.properties image id = .ok list)
    (distinct : (list.map Property.number).Nodup) (member : property ∈ list)
    (least : 1 ≤ (property.number : Int))
    (most : (property.number : Int) ≤ table.version.maxProperty) :
    table.propertyData image id property.number = .ok (property.address, property.size) := by
  have only : (list.find? fun other => (other.number : Int) = property.number) = some property :=
    find?_eq_some_of_nodup distinct member fun other => by
      simp only [decide_eq_true_eq, Int.natCast_inj]
  simp only [propertyData, findProperty_eq listed least most, only, Result.ok_bind]
  rfl

/-- The defaults stand in a row at the start of the table, a word for each number from one on. -/
theorem defaultAddress_of_inRange (least : 1 ≤ number) (most : number ≤ table.version.maxProperty) :
    table.defaultAddress number = .ok (table.address + (number - 1) * 2) := by
  rw [defaultAddress, checkProperty_eq least most]
  rfl

private theorem propertyData_of_absent (listed : table.properties image id = .ok list)
    (absent : ∀ property ∈ list, (property.number : Int) ≠ number) (least : 1 ≤ number)
    (most : number ≤ table.version.maxProperty) :
    table.propertyData image id number = .ok (table.address + (number - 1) * 2, 2) := by
  have missing : (list.find? fun property => (property.number : Int) = number) = none := by
    simpa using absent
  simp only [propertyData, findProperty_eq listed least most, missing,
    defaultAddress_of_inRange least most, Result.ok_bind]
  rfl

/-- Going through the properties of an object. If their numbers differ, asking for the property
after the last one, from zero on, names all of them in their order and then zero; and it is a fault
of the object table exactly for a number other than zero that is not in the list. Every number in
range has the data of the property in the list or, if there is none, its default among those at the
start of the table. -/
theorem properties_enumerated (table : ObjectTable) (image : Image) (id : Int)
    {list : List Property} (listed : table.properties image id = .ok list)
    (distinct : (list.map Property.number).Nodup) :
    (0 ∉ list.map Property.number ∧
      table.visits image id (list.length + 1) 0 = .ok (list.map Property.number ++ [0])) ∧
    (∀ number : Int, (∃ fault, fault.kind = .object ∧
        table.nextProperty image id number = .error (.fault fault)) ↔
      number ≠ 0 ∧ ∀ property ∈ list, (property.number : Int) ≠ number) ∧
    ∀ number : Int, 1 ≤ number → number ≤ table.version.maxProperty →
      (∃ address, table.propertyAddress image id number = .ok address ∧
        (address ≠ 0 ↔ ∃ property ∈ list, (property.number : Int) = number)) ∧
      (∀ property ∈ list, (property.number : Int) = number →
        table.propertyData image id number = .ok (property.address, property.size)) ∧
      ((∀ property ∈ list, (property.number : Int) ≠ number) →
        table.defaultAddress number = .ok (table.address + (number - 1) * 2) ∧
          table.propertyData image id number = .ok (table.address + (number - 1) * 2, 2)) := by
  obtain ⟨start, -, stands, -⟩ := properties_eq_ok_iff.mp listed
  have named : 0 ∉ list.map Property.number := by
    intro member
    obtain ⟨property, member, zero⟩ := List.mem_map.mp member
    exact (stands.number_le member).1 zero
  refine ⟨⟨named, ?_⟩, nextProperty_fault_iff listed, fun number least most => ⟨?_, ?_, ?_⟩⟩
  · have begun : table.nextProperty image id 0 = .ok ((list.map Property.number).headD 0) := by
      rw [nextProperty_eq listed, if_pos rfl]
    have visited := visits_eq listed distinct named (List.nil_append _).symm begun
    rwa [List.length_map] at visited
  · exact propertyAddress_ne_zero_iff listed stands least most
  · rintro property member rfl
    exact propertyData_of_mem listed distinct member least most
  · exact fun absent =>
      ⟨defaultAddress_of_inRange least most, propertyData_of_absent listed absent least most⟩

/-- A table of the later versions. -/
def lateTable : ObjectTable :=
  { address := 0, version := { number := 4 } }

/-- One object with three properties: of two bytes, of one byte behind a size field of two, and of
one byte again. -/
def sampleList : GameMemory where
  bytes := Array.replicate 138 0 ++ #[0, 140, 0, 0x45, 1, 2, 0x83, 0x81, 7, 0x01, 9, 0]
  dynamicEnd := 150
  highStart := 150

/-- The three properties of the sample. -/
theorem properties_sampleList :
    lateTable.properties sampleList.toImage 1 = .ok [⟨5, 142, 2⟩, ⟨3, 146, 1⟩, ⟨1, 148, 1⟩] := by
  decide +kernel

/-- The questions name the three properties of the sample and then zero. The second is in the list;
another number has the default, and no property comes after it. -/
theorem properties_enumerated_sample :
    lateTable.visits sampleList.toImage 1 4 0 = .ok [5, 3, 1, 0] ∧
      lateTable.propertyData sampleList.toImage 1 3 = .ok (146, 1) ∧
      lateTable.defaultAddress 2 = .ok 2 ∧
      lateTable.propertyData sampleList.toImage 1 2 = .ok (2, 2) ∧
      ∃ fault, fault.kind = .object ∧
        lateTable.nextProperty sampleList.toImage 1 2 = .error (.fault fault) := by
  obtain ⟨⟨-, visited⟩, faults, found⟩ :=
    properties_enumerated lateTable sampleList.toImage 1 properties_sampleList (by decide)
  obtain ⟨stands, given⟩ := (found 2 (by decide) (by decide)).2.2 (by decide)
  refine ⟨visited, ?_, stands, given, (faults 2).mpr (by decide)⟩
  exact (found 3 (by decide) (by decide)).2.1 ⟨3, 146, 1⟩ (by simp) rfl

end ObjectTable

end StoryMachine
