import StoryMachine.Settings.Token.Quoted

/-!
# Scalars without quotes

A plain scalar goes on over lines that are indented far enough, with a line end
between two words as a space. It ends at a comment, at the sign of a mapping, and
in brackets at a comma or a bracket.
-/

namespace StoryMachine

namespace Document

/-- Whether a plain scalar ends before a character, given the one after it. -/
def endsPlain (inBrackets : Bool) (c next : CodePoint) : Bool :=
  c.endsWord || (c = 0x3a && (next.endsWord || (inBrackets && next.isOneOf ",[]\x7b\x7d"))) ||
    (inBrackets && c.isOneOf ",?[]\x7b\x7d")

/-- The first word of a plain scalar. -/
def plainWord (inBrackets : Bool) : Text → Text
  | [] => []
  | c :: rest =>
      if endsPlain inBrackets c (rest.headD 0) then [] else c :: plainWord inBrackets rest

/-- The spaces and line ends between two words; none at the mark of a document. -/
def plainBreaks : Nat → Cursor → Option Text × Cursor
  | 0, cursor => (some [], cursor)
  | budget + 1, cursor =>
      if cursor.peek = 0x20 then plainBreaks budget cursor.next
      else if cursor.peek.isLineEnd then
        let (lineEnd, cursor) := cursor.takeLineEnd
        if cursor.isAtMarker then (none, cursor)
        else
          let (breaks, cursor) := plainBreaks budget cursor
          (breaks.map (lineEnd ++ ·), cursor)
      else (some [], cursor)

/-- The gap after a word of a plain scalar, as it counts in the text, and whether a line ended in
it. At the mark of a document the gap is empty. -/
def plainGap (cursor : Cursor) : Text × Bool × Cursor :=
  let (gap, cursor) := cursor.takeWhile (· == 0x20)
  if cursor.peek.isLineEnd then
    let (lineEnd, cursor) := cursor.takeLineEnd
    if cursor.isAtMarker then ([], true, cursor)
    else
      let (breaks, cursor) := plainBreaks cursor.rest.length cursor
      ((breaks.map (folded lineEnd)).getD [], true, cursor)
  else (gap, false, cursor)

/-- What was read of a plain scalar: its text, whether a line ended after its last word, and the
place after it. -/
structure Plain where
  text : Text
  lineEnded : Bool
  cursor : Cursor

/-- The words of a plain scalar after a gap. -/
def plainWords (inBrackets : Bool) (indent : Int) : Nat → Text → Bool → Cursor → Plain
  | 0, _, lineEnded, cursor => { text := [], lineEnded, cursor }
  | budget + 1, gap, lineEnded, cursor =>
      let word := plainWord inBrackets cursor.rest
      if cursor.peek = 0x23 || word.isEmpty then { text := [], lineEnded, cursor }
      else
        let (next, lineEnded, cursor) := plainGap (cursor.skip word.length)
        if next.isEmpty || cursor.peek = 0x23 || (!inBrackets && cursor.column < indent) then
          { text := gap ++ word, lineEnded, cursor }
        else
          let more := plainWords inBrackets indent budget next lineEnded cursor
          { more with text := gap ++ word ++ more.text }

/-- A plain scalar; outside brackets its lines have to be indented as far as given. -/
def takePlain (inBrackets : Bool) (indent : Int) (cursor : Cursor) : Plain :=
  plainWords inBrackets indent (cursor.rest.length + 1) [] false cursor

end Document

end StoryMachine
