import StoryMachine.Settings.Token.Block

/-!
# Names, tags and directives

Values can be named by an anchor and repeated by an alias, and a tag says what
kind of value is meant. A directive is a line for the whole document: the version
of the format, or a short form for the start of tags.
-/

namespace StoryMachine

namespace CodePoint

/-- Whether a character is a letter or a digit of ASCII. -/
def isAlphanumeric (c : CodePoint) : Bool :=
  (0x30 ≤ c && c ≤ 0x39) || (0x41 ≤ c && c ≤ 0x5a) || (0x61 ≤ c && c ≤ 0x7a)

/-- Whether a character may stand in a name. -/
def isNameChar (c : CodePoint) : Bool :=
  c.isAlphanumeric || c = 0x2d || c = 0x5f

/-- Whether a character may stand in a tag. -/
def isTagChar (c : CodePoint) : Bool :=
  c.isAlphanumeric || c.isOneOf "-;/?:@&=+$,_.!~*'()[]%"

end CodePoint

namespace Document

/-- A name of at least one character. -/
def takeName (cursor : Cursor) : Result (Text × Cursor) := do
  let (name, cursor) := cursor.takeWhile CodePoint.isNameChar
  expect !name.isEmpty
  return (name, cursor)

/-- The name of an anchor or an alias after its sign. -/
def takeAnchor (cursor : Cursor) : Result (Text × Cursor) := do
  let (name, cursor) ← takeName cursor.next
  let c := cursor.peek
  expect (c.endsWord || c.isOneOf "?:,]\x7d%@\x60")
  return (name, cursor)

/-- The bytes that are written by percent signs. -/
def percentBytes : Nat → Cursor → Result (List UInt8 × Cursor)
  | 0, cursor => .ok ([], cursor)
  | budget + 1, cursor => do
      if cursor.peek = 0x25 then
        let (code, cursor) ← takeHex 2 cursor.next
        let (bytes, cursor) ← percentBytes budget cursor
        return (UInt8.ofNat code :: bytes, cursor)
      else return ([], cursor)

/-- The characters of a tag. Characters written by percent signs are in UTF-8. -/
def tagChars : Nat → Cursor → Result (Text × Cursor)
  | 0, cursor => .ok ([], cursor)
  | budget + 1, cursor => do
      let (part, cursor) := cursor.takeWhile fun c => c.isTagChar && c != 0x25
      if cursor.peek = 0x25 then
        let (bytes, cursor) ← percentBytes cursor.rest.length cursor
        match String.fromUTF8? ⟨bytes.toArray⟩ with
        | none => malformed
        | some written =>
            let (more, cursor) ← tagChars budget cursor
            return (part ++ Text.ofString written ++ more, cursor)
      else return (part, cursor)

/-- A tag without its handle, or the start of tags that a handle stands for. -/
def takeTagText (cursor : Cursor) : Result (Text × Cursor) := do
  expect cursor.peek.isTagChar
  tagChars (cursor.rest.length + 1) cursor

/-- A handle: one exclamation mark, or a name between two. -/
def takeHandle (cursor : Cursor) : Result (Text × Cursor) := do
  expect (cursor.peek = 0x21)
  if cursor.peekAt 1 = 0x20 then return ([0x21], cursor.next)
  let (name, cursor) := cursor.next.takeWhile CodePoint.isNameChar
  expect (cursor.peek = 0x21)
  return (0x21 :: name ++ [0x21], cursor.next)

/-- A tag: in angle brackets, alone, or perhaps with a handle in front. -/
def takeTag (cursor : Cursor) : Result (Token × Cursor) := do
  let c := cursor.peekAt 1
  let (token, cursor) ←
    if c = 0x3c then do
      let (text, cursor) ← takeTagText (cursor.skip 2)
      expect (cursor.peek = 0x3e)
      pure (Token.tag none text, cursor.next)
    else if c.endsWord then
      pure (Token.tag none [0x21], cursor.next)
    else do
      let word := cursor.next.rest.takeWhile (!CodePoint.endsPart ·)
      let (handle, cursor) ←
        if word.contains 0x21 then takeHandle cursor else pure ([0x21], cursor.next)
      let (text, cursor) ← takeTagText cursor
      pure (Token.tag (some handle) text, cursor)
  expect cursor.peek.endsPart
  return (token, cursor)

/-- A decimal number of ASCII digits. Its length is limited. -/
def takeNumber (cursor : Cursor) : Result (Nat × Cursor) := do
  let (digits, cursor) := cursor.takeWhile fun c => 0x30 ≤ c && c ≤ 0x39
  expect !digits.isEmpty
  match digits.readInteger 10 with
  | .ok value => return (value.toNat, cursor)
  | .error _ => .refuse .valueOutOfRange

/-- What a directive says after its name. -/
def takeDirectiveValue (name : Text) (cursor : Cursor) : Result (Directive × Cursor) := do
  if name = Text.ofString "YAML" then
    let (major, cursor) ← takeNumber cursor.dropSpaces
    expect (cursor.peek = 0x2e)
    let (_, cursor) ← takeNumber cursor.next
    expect cursor.peek.endsPart
    return (.version major, cursor)
  else if name = Text.ofString "TAG" then
    let (handle, cursor) ← takeHandle cursor.dropSpaces
    expect (cursor.peek = 0x20)
    let (start, cursor) ← takeTagText cursor.dropSpaces
    expect cursor.peek.endsPart
    return (.handle handle start, cursor)
  else return (.other, cursor.dropWhile (!CodePoint.endsLine ·))

/-- A directive, to the end of its line. -/
def takeDirective (cursor : Cursor) : Result (Directive × Cursor) := do
  let (name, cursor) ← takeName cursor.next
  expect cursor.peek.endsPart
  let (directive, cursor) ← takeDirectiveValue name cursor
  return (directive, ← dropLine cursor)

end Document

end StoryMachine
