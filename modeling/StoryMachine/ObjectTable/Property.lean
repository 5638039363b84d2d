import StoryMachine.ObjectTable

/-!
# Properties

An object's property list starts with its short name and runs over numbered
blocks of data, each behind a size byte (or two, in later versions), up to
number zero. A property that an object lacks has a default word.
-/

namespace StoryMachine

/-- A property of an object: its number and where its data lies. -/
structure Property where
  number : Nat
  address : Int
  size : Nat
deriving DecidableEq, Repr

namespace ObjectTable

/-- Checks the number of a property. -/
def checkProperty (table : ObjectTable) (number : Int) : Result Unit :=
  if number < 1 ∨ table.version.maxProperty < number then .fault (.invalidProperty number)
  else .ok ()

/-- Where the default of a property stands. -/
def defaultAddress (table : ObjectTable) (number : Int) : Result Int := do
  table.checkProperty number
  return table.address + (number - 1) * 2

/-- The default of a property. -/
def defaultProperty (table : ObjectTable) (image : Image) (number : Int) : Result Nat := do
  image.word (← table.defaultAddress number)

/-- The address of an object's property list. -/
def propertiesAddress (table : ObjectTable) (image : Image) (id : Int) : Result Nat := do
  let address ← table.recordAddress id
  image.word (address + table.propertiesOffset)

/-- The number of objects, on the assumption that the first property list follows the last
record. -/
def estimatedCount (table : ObjectTable) (image : Image) : Result Int := do
  let address ← table.propertiesAddress image 1
  let count := Int.fdiv ((address : Int) - table.recordsStart) table.version.objectEntrySize
  return if count < 0 ∨ table.version.maxObject < count then 0 else count

/-- The address and the size in bytes of an object's encoded short name. -/
def shortName (table : ObjectTable) (image : Image) (id : Int) : Result (Int × Nat) := do
  let address ← table.propertiesAddress image id
  let words ← image.byte address
  return (address + 1, words * 2)

/-- The size that a second size byte gives. -/
def longSize (sizeByte : Nat) : Nat :=
  if sizeByte % 64 = 0 then 64 else sizeByte % 64

/-- The property whose size byte stands at an address. Number zero ends a list. -/
def propertyAt (table : ObjectTable) (image : Image) (address : Int) : Result Property := do
  let sizeByte ← image.byte address
  if table.version.isEarly then
    return { number := sizeByte % 32, size := sizeByte / 32 + 1, address := address + 1 }
  if 0x80 ≤ sizeByte then
    let second ← image.byte (address + 1)
    return { number := sizeByte % 64, size := longSize second, address := address + 2 }
  return {
    number := sizeByte % 64
    size := if sizeByte / 64 % 2 = 1 then 2 else 1
    address := address + 1 }

/-- The properties from an address on, of which there may be at most `room`. -/
def propertiesFrom (table : ObjectTable) (image : Image) (id : Int) :
    Nat → Int → Result (List Property)
  | room, address => do
      let property ← table.propertyAt image address
      if property.number = 0 then return []
      match room with
      | 0 => .fault (.endlessProperties id)
      | room + 1 =>
          let rest ← table.propertiesFrom image id room (property.address + property.size)
          return property :: rest

/-- The properties of an object, in order. -/
def properties (table : ObjectTable) (image : Image) (id : Int) : Result (List Property) := do
  let (address, length) ← table.shortName image id
  table.propertiesFrom image id table.version.maxProperty (address + length)

/-- The first property of an object with a number. -/
def findProperty (table : ObjectTable) (image : Image) (id number : Int) :
    Result (Option Property) := do
  table.checkProperty number
  let properties ← table.properties image id
  return properties.find? fun property => (property.number : Int) = number

/-- The data address of a property, or zero if the object lacks it. -/
def propertyAddress (table : ObjectTable) (image : Image) (id number : Int) : Result Int := do
  let found ← table.findProperty image id number
  return (found.map Property.address).getD 0

/-- The address and the size of a property's data, or of its default. -/
def propertyData (table : ObjectTable) (image : Image) (id number : Int) :
    Result (Int × Nat) := do
  match ← table.findProperty image id number with
  | some property => return (property.address, property.size)
  | none => return (← table.defaultAddress number, 2)

/-- The size of the property whose data starts at an address, from the size byte before it. -/
def propertyLength (table : ObjectTable) (image : Image) (address : Int) : Result Nat := do
  if address = 0 then return 0
  let sizeByte ← image.byte (address - 1)
  if table.version.isEarly then return sizeByte / 32 + 1
  if 0x80 ≤ sizeByte then return longSize sizeByte
  return if sizeByte / 64 % 2 = 1 then 2 else 1

/-- The value of a property of one or two bytes. -/
def getProperty (table : ObjectTable) (image : Image) (id number : Int) : Result Nat := do
  let (address, size) ← table.propertyData image id number
  if size = 1 then image.byte address
  else if size = 2 then image.word address
  else .fault (.propertyNotReadable number id size)

/-- The element after the first occurrence of a number, or zero if it is the last. -/
def following (number : Int) : List Nat → Option Nat
  | [] => none
  | first :: rest => if (first : Int) = number then some (rest.headD 0) else following number rest

/-- The number of the property after a given one, or of the first after number zero. -/
def nextProperty (table : ObjectTable) (image : Image) (id number : Int) : Result Nat := do
  let numbers := (← table.properties image id).map Property.number
  if number = 0 then return numbers.headD 0
  match following number numbers with
  | some next => return next
  | none => .fault (.noSuchProperty number id)

/-- Stores a value in a property of one or two bytes. -/
def putProperty (table : ObjectTable) (id number value : Int) : GameMemory.Edit Unit := do
  let address ← table.propertyAddress (← get).toImage id number
  if address = 0 then Action.fault (.setMissingProperty number id value)
  let length ← table.propertyLength (← get).toImage address
  if length = 1 then GameMemory.write address value
  else if length = 2 then GameMemory.writeWord address value
  else Action.fault (.propertyNotWritable number id length)

end ObjectTable

end StoryMachine
