import StoryMachine.Memory.Game
import StoryMachine.Version

/-!
# The object table

Objects are numbered records in game memory: attribute bits, links to a parent,
a sibling and a child, and the address of a property list. Two layouts exist, of
the early and of the later versions. The table does not say where it ends, so an
object number is checked only against the largest that its version can name.
-/

namespace StoryMachine

/-- An object table: its address, and the version that decides its layout. -/
structure ObjectTable where
  address : Int
  version : Version
deriving DecidableEq, Repr, Inhabited

/-- The links of an object. -/
inductive Link where
  | parent
  | sibling
  | child
deriving DecidableEq, Repr

namespace ObjectTable

/-- Where the records start, after the default properties. -/
def recordsStart (table : ObjectTable) : Int :=
  table.address + 2 * table.version.propertyDefaultCount

/-- Whether a number can name an object. -/
def isValidId (table : ObjectTable) (id : Int) : Bool :=
  1 ≤ id && id ≤ table.version.maxObject

/-- The address of an object's record. -/
def recordAddress (table : ObjectTable) (id : Int) : Result Int :=
  if table.isValidId id then
    .ok (table.recordsStart + table.version.objectEntrySize * (id - 1))
  else .fault (.invalidObject id)

/-- Where a link stands in a record. -/
def linkOffset (table : ObjectTable) : Link → Nat
  | .parent => if table.version.isEarly then 4 else 6
  | .sibling => if table.version.isEarly then 5 else 8
  | .child => if table.version.isEarly then 6 else 10

/-- Where the address of the property list stands in a record. -/
def propertiesOffset (table : ObjectTable) : Nat :=
  if table.version.isEarly then 7 else 12

/-- The object that a link of an object names, or zero. -/
def link (table : ObjectTable) (image : Image) (link : Link) (id : Int) : Result Nat := do
  let address ← table.recordAddress id
  if table.version.isEarly then image.byte (address + table.linkOffset link)
  else image.word (address + table.linkOffset link)

def parent (table : ObjectTable) (image : Image) (id : Int) : Result Nat :=
  table.link image .parent id

def sibling (table : ObjectTable) (image : Image) (id : Int) : Result Nat :=
  table.link image .sibling id

def child (table : ObjectTable) (image : Image) (id : Int) : Result Nat :=
  table.link image .child id

/-- Sets a link of an object. -/
def setLink (table : ObjectTable) (link : Link) (id target : Int) : GameMemory.Edit Unit := do
  let address ← table.recordAddress id
  if table.version.isEarly then GameMemory.write (address + table.linkOffset link) target
  else GameMemory.writeWord (address + table.linkOffset link) target

/-! ## Attributes -/

/-- The byte that holds an attribute and the weight of its bit. Attribute zero is the highest bit
of the first byte. -/
def attributePlace (table : ObjectTable) (id number : Int) : Result (Int × Nat) := do
  if number < 0 ∨ table.version.attributeCount ≤ number then
    .fault (.invalidAttribute number id)
  let address ← table.recordAddress id
  return (address + number / 8, 7 - (number % 8).toNat)

/-- Whether an object has an attribute. -/
def hasAttribute (table : ObjectTable) (image : Image) (id number : Int) : Result Bool := do
  let (address, bit) ← table.attributePlace id number
  let byte ← image.byte address
  return byte.testBit bit

/-- Gives an attribute to an object, or takes it away. -/
def changeAttribute (table : ObjectTable) (on : Bool) (id number : Int) :
    GameMemory.Edit Unit := do
  let (address, bit) ← table.attributePlace id number
  let byte ← (← get).byte address
  GameMemory.write address (Image.withBit byte bit on)

def setAttribute (table : ObjectTable) : Int → Int → GameMemory.Edit Unit :=
  table.changeAttribute true

def clearAttribute (table : ObjectTable) : Int → Int → GameMemory.Edit Unit :=
  table.changeAttribute false

end ObjectTable

end StoryMachine
