import StoryMachine.Text.CodePoint

/-!
# Places in a document

A place in the text of a document: what is left of it, and how far into the text
and into its line the place is. A byte order mark takes no room on a line. After
the last character a zero is seen, which no document has in it.
-/

namespace StoryMachine

namespace CodePoint

/-- Whether a character ends a line of a document. -/
def isLineEnd (c : CodePoint) : Bool :=
  c = 0x0a || c = 0x85 || c = 0x2028 || c = 0x2029

/-- Whether nothing is left on the line. -/
def endsLine (c : CodePoint) : Bool :=
  c = 0 || c.isLineEnd

/-- Whether a character is a space or the line is over. -/
def endsPart (c : CodePoint) : Bool :=
  c = 0x20 || c.endsLine

/-- Whether a character is a space or a tab, or the line is over. -/
def endsWord (c : CodePoint) : Bool :=
  c = 0x09 || c.endsPart

/-- Whether a character is a space or a tab. -/
def isGap (c : CodePoint) : Bool :=
  c = 0x20 || c = 0x09

/-- Whether a character is one of those in a string. -/
def isOneOf (c : CodePoint) (chars : String) : Bool :=
  chars.toList.any (·.toNat == c)

end CodePoint

/-- A place in a document. -/
structure Cursor where
  rest : Text
  index : Nat := 0
  line : Nat := 0
  column : Nat := 0
deriving DecidableEq, Repr, Inhabited

namespace Cursor

/-- The mark that may stand at the start of a text. -/
def byteOrderMark : CodePoint := 0xfeff

/-- The character at a place. -/
def peek (cursor : Cursor) : CodePoint :=
  cursor.rest.headD 0

/-- The character some way after a place. -/
def peekAt (cursor : Cursor) (distance : Nat) : CodePoint :=
  (cursor.rest.drop distance).headD 0

/-- The place after one more character. -/
def next (cursor : Cursor) : Cursor :=
  match cursor.rest with
  | [] => cursor
  | c :: rest =>
      let index := cursor.index + 1
      if c.isLineEnd then { rest, index, line := cursor.line + 1, column := 0 }
      else
        { cursor with
          rest, index
          column := if c = byteOrderMark then cursor.column else cursor.column + 1 }

/-- The place after a number of characters. -/
def skip (cursor : Cursor) : Nat → Cursor
  | 0 => cursor
  | count + 1 => cursor.next.skip count

/-- The characters up to the first without a property, and the place of that one. -/
def takeWhile (cursor : Cursor) (property : CodePoint → Bool) : Text × Cursor :=
  let taken := cursor.rest.takeWhile property
  (taken, cursor.skip taken.length)

/-- The place of the first character without a property. -/
def dropWhile (cursor : Cursor) (property : CodePoint → Bool) : Cursor :=
  (cursor.takeWhile property).2

/-- The place of the first character that is no space. -/
def dropSpaces (cursor : Cursor) : Cursor :=
  cursor.dropWhile (· == 0x20)

/-- A place after a comment, if there is one. -/
def dropComment (cursor : Cursor) : Cursor :=
  if cursor.peek = 0x23 then cursor.dropWhile (!CodePoint.endsLine ·) else cursor

/-- The end of the line at a place, as it counts in a text, and the place after it. -/
def takeLineEnd (cursor : Cursor) : Text × Cursor :=
  let c := cursor.peek
  if c = 0x0a ∨ c = 0x85 then ([0x0a], cursor.next)
  else if c.isLineEnd then ([c], cursor.next)
  else ([], cursor)

/-- Whether three of a character stand at a place, and then a gap. -/
def isMarker (cursor : Cursor) (c : CodePoint) : Bool :=
  cursor.rest.take 3 = [c, c, c] && (cursor.peekAt 3).endsWord

/-- Whether the mark of the start or the end of a document stands at a place. -/
def isAtMarker (cursor : Cursor) : Bool :=
  cursor.isMarker 0x2d || cursor.isMarker 0x2e

end Cursor

end StoryMachine
