import StoryMachine.Settings.Token
import StoryMachine.Text.Integer

/-!
# Scalars in quotes

In single quotes every character stands for itself and a quote is written twice.
In double quotes a backslash starts an escape. A line end in either is a space,
and empty lines after it are line ends. Budgets are lengths of what is left, so
they are never used up.
-/

namespace StoryMachine

namespace Document

/-- The escapes of one letter in double quotes. -/
def escapes : List (CodePoint × CodePoint) :=
  [(0x30, 0x00), (0x61, 0x07), (0x62, 0x08), (0x74, 0x09), (0x09, 0x09), (0x6e, 0x0a),
    (0x76, 0x0b), (0x66, 0x0c), (0x72, 0x0d), (0x65, 0x1b), (0x20, 0x20), (0x22, 0x22),
    (0x5c, 0x5c), (0x2f, 0x2f), (0x4e, 0x85), (0x5f, 0xa0), (0x4c, 0x2028), (0x50, 0x2029)]

/-- How many hexadecimal digits follow an escape by code. -/
def codeLength? (c : CodePoint) : Option Nat :=
  [(0x78, 2), (0x75, 4), (0x55, 8)].lookup c

/-- Whether a character is a hexadecimal digit of ASCII. -/
def isHexDigit (c : CodePoint) : Bool :=
  c < 0x80 && (c.digitIn? 16).isSome

/-- The number that a run of hexadecimal digits stands for. -/
def hexCode (digits : Text) : Nat :=
  Text.ofDigits 16 (digits.filterMap (CodePoint.digitIn? 16))

/-- Exactly so many hexadecimal digits. -/
def takeHex (count : Nat) (cursor : Cursor) : Result (Nat × Cursor) := do
  let digits := cursor.rest.take count
  expect (digits.length = count && digits.all isHexDigit)
  return (hexCode digits, cursor.skip count)

/-- The character of a code. -/
def character (code : Nat) : Result CodePoint :=
  if code < 0x110000 then .ok code
  else if code < 0x80000000 then .refuse .valueOutOfRange
  else .refuse .numberTooLarge

/-- The empty lines and the indentation in a quoted scalar. No mark of a document may stand
there. -/
def quotedBreaks : Nat → Cursor → Result (Text × Cursor)
  | 0, cursor => .ok ([], cursor)
  | budget + 1, cursor => do
      expect (!cursor.isAtMarker)
      let cursor := cursor.dropWhile CodePoint.isGap
      if cursor.peek.isLineEnd then
        let (lineEnd, cursor) := cursor.takeLineEnd
        let (breaks, cursor) ← quotedBreaks budget cursor
        return (lineEnd ++ breaks, cursor)
      else return ([], cursor)

/-- How a line end and the empty lines after it count: a single line end is a space. -/
def folded (lineEnd breaks : Text) : Text :=
  if lineEnd ≠ [0x0a] then lineEnd ++ breaks
  else if breaks.isEmpty then [0x20]
  else breaks

/-- The gap between two words in quotes. -/
def quotedGap (cursor : Cursor) : Result (Text × Cursor) := do
  let (gap, cursor) := cursor.takeWhile CodePoint.isGap
  expect (cursor.peek ≠ 0)
  if cursor.peek.isLineEnd then
    let (lineEnd, cursor) := cursor.takeLineEnd
    let (breaks, cursor) ← quotedBreaks cursor.rest.length cursor
    return (folded lineEnd breaks, cursor)
  else return (gap, cursor)

/-- What a backslash and the characters after it stand for. -/
def takeEscape (cursor : Cursor) : Result (Text × Cursor) := do
  let c := cursor.peek
  match escapes.lookup c, codeLength? c with
  | some code, _ => return ([code], cursor.next)
  | none, some count =>
      let (code, cursor) ← takeHex count cursor.next
      return ([← character code], cursor)
  | none, none =>
      expect c.isLineEnd
      let (_, cursor) := cursor.takeLineEnd
      quotedBreaks cursor.rest.length cursor

/-- Whether a character stands for itself in quotes of either kind. -/
def isOrdinary (c : CodePoint) : Bool :=
  !(c = 0x27 || c = 0x22 || c = 0x5c || c.endsWord)

/-- The characters of a quoted scalar up to a gap or to its end. -/
def quotedWord (double : Bool) : Nat → Cursor → Result (Text × Cursor)
  | 0, cursor => .ok ([], cursor)
  | budget + 1, cursor => do
      let (word, cursor) := cursor.takeWhile isOrdinary
      let c := cursor.peek
      if !double && c = 0x27 && cursor.peekAt 1 = 0x27 then
        let (more, cursor) ← quotedWord double budget (cursor.skip 2)
        return (word ++ 0x27 :: more, cursor)
      else if (double && c = 0x27) || (!double && (c = 0x22 || c = 0x5c)) then
        let (more, cursor) ← quotedWord double budget cursor.next
        return (word ++ c :: more, cursor)
      else if double && c = 0x5c then
        let (escaped, cursor) ← takeEscape cursor.next
        let (more, cursor) ← quotedWord double budget cursor
        return (word ++ escaped ++ more, cursor)
      else return (word, cursor)

/-- The words of a quoted scalar up to its end. -/
def quotedWords (double : Bool) : Nat → Cursor → Result (Text × Cursor)
  | 0, cursor => .ok ([], cursor)
  | budget + 1, cursor => do
      let (word, cursor) ← quotedWord double (cursor.rest.length + 1) cursor
      if cursor.peek = (if double then 0x22 else 0x27) then return (word, cursor)
      let (gap, cursor) ← quotedGap cursor
      let (more, cursor) ← quotedWords double budget cursor
      return (word ++ gap ++ more, cursor)

/-- A scalar in quotes, from its first quote on. -/
def takeQuoted (cursor : Cursor) : Result (Text × Cursor) := do
  let double := cursor.peek = 0x22
  let (text, cursor) ← quotedWords double (cursor.rest.length + 1) cursor.next
  return (text, cursor.next)

end Document

end StoryMachine
