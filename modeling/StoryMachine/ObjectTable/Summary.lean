import StoryMachine.ObjectTable.Property

/-!
# Summaries of objects

Everything that the table says about one object.
-/

namespace StoryMachine

/-- Everything that the table says about an object. -/
structure ObjectSummary where
  attributes : List Nat
  parent : Nat
  sibling : Nat
  child : Nat
  address : Int
  propertiesAddress : Nat
  shortNameAddress : Int
  shortNameLength : Nat
  properties : List (Nat × List UInt8)

namespace ObjectTable

/-- The attributes that an object has, among the given ones. -/
def attributesAmong (table : ObjectTable) (image : Image) (id : Int) :
    List Nat → Result (List Nat)
  | [] => .ok []
  | number :: rest => do
      let on ← table.hasAttribute image id number
      let others ← table.attributesAmong image id rest
      return if on then number :: others else others

/-- The summary of an object. -/
def summary (table : ObjectTable) (image : Image) (id : Int) : Result ObjectSummary := do
  let address ← table.recordAddress id
  let (shortNameAddress, shortNameLength) ← table.shortName image id
  let attributes ← table.attributesAmong image id (List.range table.version.attributeCount)
  let parent ← table.parent image id
  let sibling ← table.sibling image id
  let child ← table.child image id
  let propertiesAddress ← table.propertiesAddress image id
  let properties ← table.properties image id
  return {
    attributes, parent, sibling, child, address, propertiesAddress, shortNameAddress
    shortNameLength
    properties := properties.map fun property =>
      (property.number, (image.span property.address (property.address + property.size)).toList) }

end ObjectTable

end StoryMachine
