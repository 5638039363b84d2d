import StoryMachine.Effect
import StoryMachine.Settings.Cursor

/-!
# Tokens of a document

A document is cut into tokens: the marks of lists and mappings, which in block
style come from the indentation, names and tags of values, and scalars. Where a
text cannot be cut any further, the last token says why.
-/

namespace StoryMachine

/-- What a line that starts with a percent sign says. -/
inductive Directive where
  /-- The first number of the version of the format. -/
  | version (major : Nat)
  /-- A short form for the start of tags. -/
  | handle (name start : Text)
  | other
deriving DecidableEq, Repr

/-- A token of a document. -/
inductive Token where
  | directive (directive : Directive)
  | documentStart
  | documentEnd
  | streamEnd
  | blockList
  | blockMapping
  | blockEnd
  | listOpen
  | listClose
  | mappingOpen
  | mappingClose
  /-- The dash of an item in block style. -/
  | item
  /-- The comma between items in brackets. -/
  | comma
  | key
  | value
  | alias (name : Text)
  | anchor (name : Text)
  /-- A tag: its handle, if it has one, and the rest. -/
  | tag (handle : Option Text) (suffix : Text)
  /-- A scalar, and whether it stands without quotes. -/
  | scalar (text : Text) (plain : Bool)
  /-- The text cannot be cut from here on. -/
  | broken (failure : Failure)
deriving DecidableEq, Repr

namespace Document

/-- The failure of a text that is no document. -/
def malformed {α : Type} : Result α :=
  .fault .notDocument

/-- Goes on only under a condition. -/
def expect (condition : Bool) : Result Unit :=
  if condition then .ok () else malformed

end Document

end StoryMachine
