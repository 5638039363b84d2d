import StoryMachine.ObjectTable

/-!
# The object tree

Each object names its parent, its first child and its next sibling. Moving an
object keeps its own children. Chains that come back to themselves are refused
after more steps than there can be objects.
-/

namespace StoryMachine

namespace ObjectTable

/-- Walks a sibling chain from `id` to the object before `target`, for at most `steps` steps. The
chain is that of the children of `parent`. -/
def olderSibling (table : ObjectTable) (image : Image) (target parent : Int) :
    Nat → Int → Result Int
  | 0, _ => .fault (.endlessSiblings parent)
  | steps + 1, id =>
      if id = 0 then .fault (.missingFromParent target parent)
      else do
        let next ← table.sibling image id
        if next = target then return id
        table.olderSibling image target parent steps next

/-- Takes an object, with its children, away from its parent. -/
def remove (table : ObjectTable) (id : Int) : GameMemory.Edit Unit := do
  let parent ← table.parent (← get).toImage id
  if parent = 0 then return
  let sibling ← table.sibling (← get).toImage id
  let first ← table.child (← get).toImage parent
  if first = id then
    table.setLink .child parent sibling
  else
    let older ←
      table.olderSibling (← get).toImage id parent (table.version.maxObject + 1) first
    table.setLink .sibling older sibling
  table.setLink .parent id 0
  table.setLink .sibling id 0

/-- Checks that `id` is not among the ancestors of `target`, itself included, walking up from
`ancestor` for at most `steps` steps. -/
def checkAncestors (table : ObjectTable) (image : Image) (id target : Int) :
    Nat → Int → Result Unit
  | 0, _ => .fault (.endlessParents target)
  | steps + 1, ancestor =>
      if ancestor = 0 then .ok ()
      else if ancestor = id then .fault (.insertIntoDescendant id target)
      else do
        let parent ← table.parent image ancestor
        table.checkAncestors image id target steps parent

/-- Makes an object the first child of another. Nothing changes if either is invalid or the object
would become its own ancestor. -/
def insert (table : ObjectTable) (id target : Int) : GameMemory.Edit Unit := do
  let _ ← table.recordAddress id
  let _ ← table.recordAddress target
  table.checkAncestors (← get).toImage id target (table.version.maxObject + 1) target
  table.remove id
  table.setLink .parent id target
  let first ← table.child (← get).toImage target
  table.setLink .sibling id first
  table.setLink .child target id

/-- Whether an object is a child of another. -/
def isChildOf (table : ObjectTable) (image : Image) (id parent : Int) : Result Bool := do
  let found ← table.parent image id
  return found = parent

end ObjectTable

end StoryMachine
