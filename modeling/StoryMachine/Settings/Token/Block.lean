import StoryMachine.Settings.Token.Quoted

/-!
# Block scalars

A block scalar is a run of lines that are indented as far as the first, or as
far as its header says. Behind a bar its line ends are kept; behind an angle
bracket they are folded to spaces between lines that start with a word. The
header also says what happens to the line ends at the end: by default one is
kept.
-/

namespace StoryMachine

namespace Document

/-- What happens to the line ends at the end of a block scalar. -/
inductive Chomping where
  | strip
  | clip
  | keep
deriving DecidableEq, Repr

/-- The sign of a chomping. -/
def chomping? (c : CodePoint) : Option Chomping :=
  [(0x2b, Chomping.keep), (0x2d, Chomping.strip)].lookup c

/-- The digit of an indentation; zero is none. -/
def takeIncrement (cursor : Cursor) : Result (Option Nat × Cursor) := do
  let c := cursor.peek
  if 0x30 ≤ c && c ≤ 0x39 then
    expect (c ≠ 0x30)
    return (some (c - 0x30), cursor.next)
  else return (none, cursor)

/-- The sign of a chomping, if there is one. -/
def takeChomping (cursor : Cursor) : Option Chomping × Cursor :=
  match chomping? cursor.peek with
  | some chomping => (some chomping, cursor.next)
  | none => (none, cursor)

/-- The rest of a line that says nothing but perhaps a comment. -/
def dropLine (cursor : Cursor) : Result Cursor := do
  let cursor := cursor.dropSpaces.dropComment
  expect cursor.peek.endsLine
  return cursor.takeLineEnd.2

/-- The header of a block scalar: the chomping and the indentation, in either order. -/
def takeHeader (cursor : Cursor) : Result (Chomping × Option Nat × Cursor) := do
  let (first, cursor) := takeChomping cursor
  let (increment, cursor) ← takeIncrement cursor
  let (second, cursor) :=
    if first.isNone && increment.isSome then takeChomping cursor else (none, cursor)
  expect cursor.peek.endsPart
  let cursor ← dropLine cursor
  return ((first <|> second).getD .clip, increment, cursor)

/-- Spaces up to a column. -/
def dropIndent (indent : Nat) : Nat → Cursor → Cursor
  | 0, cursor => cursor
  | budget + 1, cursor =>
      if cursor.column < indent && cursor.peek = 0x20 then dropIndent indent budget cursor.next
      else cursor

/-- The empty lines in front of the next line of a block scalar, whose indentation is dropped. -/
def blockBreaks (indent : Nat) : Nat → Cursor → Text × Cursor
  | 0, cursor => ([], cursor)
  | budget + 1, cursor =>
      let cursor := dropIndent indent (indent + 1) cursor
      if cursor.peek.isLineEnd then
        let (lineEnd, cursor) := cursor.takeLineEnd
        let (breaks, cursor) := blockBreaks indent budget cursor
        (lineEnd ++ breaks, cursor)
      else ([], cursor)

/-- The empty lines in front of the first line, and the greatest indentation seen there. -/
def findIndent : Nat → Nat → Cursor → Text × Nat × Cursor
  | 0, widest, cursor => ([], widest, cursor)
  | budget + 1, widest, cursor =>
      if cursor.peek = 0x20 then
        let cursor := cursor.next
        findIndent budget (max widest cursor.column) cursor
      else if cursor.peek.isLineEnd then
        let (lineEnd, cursor) := cursor.takeLineEnd
        let (breaks, widest, cursor) := findIndent budget widest cursor
        (lineEnd ++ breaks, widest, cursor)
      else ([], widest, cursor)

/-- The lines of a block scalar after some empty lines. The answer ends with the last line end and
the empty lines after it, which are not part of the text yet. -/
def blockLines (isFolded : Bool) (indent : Nat) :
    Nat → Text → Text → Cursor → Text × Text × Text × Cursor
  | 0, lineEnd, breaks, cursor => ([], lineEnd, breaks, cursor)
  | budget + 1, lineEnd, breaks, cursor =>
      let isLine (cursor : Cursor) : Bool := cursor.column = indent && cursor.peek ≠ 0
      if !isLine cursor then ([], lineEnd, breaks, cursor)
      else
        let startsWithWord := !cursor.peek.isGap
        let (line, cursor) := cursor.takeWhile (!CodePoint.endsLine ·)
        let (lineEnd, cursor) := cursor.takeLineEnd
        let (after, cursor) := blockBreaks indent (cursor.rest.length + 1) cursor
        if !isLine cursor then (breaks ++ line, lineEnd, after, cursor)
        else
          let joint :=
            if isFolded && lineEnd = [0x0a] && startsWithWord && !cursor.peek.isGap then
              (if after.isEmpty then [0x20] else [])
            else lineEnd
          let (text, last) := blockLines isFolded indent budget lineEnd after cursor
          (breaks ++ line ++ joint ++ text, last)

/-- A block scalar in a block that is indented as far as given. -/
def takeBlock (parent : Int) (cursor : Cursor) : Result (Text × Cursor) := do
  let isFolded := cursor.peek = 0x3e
  let (chomping, increment, cursor) ← takeHeader cursor.next
  let least := max (parent + 1).toNat 1
  let (breaks, indent, cursor) :=
    match increment with
    | some increment =>
        let indent := least + increment - 1
        let (breaks, cursor) := blockBreaks indent (cursor.rest.length + 1) cursor
        (breaks, indent, cursor)
    | none =>
        let (breaks, widest, cursor) := findIndent (cursor.rest.length + 1) 0 cursor
        (breaks, max least widest, cursor)
  let (text, lineEnd, after, cursor) :=
    blockLines isFolded indent (cursor.rest.length + 1) [] breaks cursor
  let tail :=
    match chomping with
    | .strip => []
    | .clip => lineEnd
    | .keep => lineEnd ++ after
  return (text ++ tail, cursor)

end Document

end StoryMachine
