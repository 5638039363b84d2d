import StoryMachine.Disk
import StoryMachine.Text.Blank

/-!
# Where saved games go

Saved games go to a single slot, to files that the player names, or nowhere.
-/

namespace StoryMachine

/-- How a slot answers. -/
inductive SlotMode where
  | accepting
  | refusing
  | broken
  | absent
deriving DecidableEq, Repr, Inhabited

/-- Where saved games go. -/
inductive Storage where
  | slot (mode : SlotMode) (data : Option (List UInt8))
  | directory (path : String)
deriving DecidableEq, Repr

namespace Storage

instance : Inhabited Storage := ⟨.slot .absent none⟩

/-- The extension of the files of saved games. -/
def fileExtension : String := ".qzl"

/-- A path in a directory. -/
def join (directory name : String) : String :=
  if directory.endsWith "/" then directory ++ name else directory ++ "/" ++ name

/-- The file in a directory that the player names; only the last part of a path counts. -/
def pathFor? (directory : String) (name : Text) : Option String :=
  let name := name.trimmed
  let base := (name.reverse.takeWhile (· != 0x2f)).reverse
  if base.isEmpty then none
  else
    let base := Text.toString base
    some (join directory (if base.endsWith fileExtension then base else base ++ fileExtension))

end Storage

end StoryMachine
