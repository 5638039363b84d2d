import StoryMachine.Text.CodePoint

/-!
# Blank characters and decimal digits

The characters that are dropped around a line of commands or a written number,
and the digits that a written number may use: every decimal digit of every
script counts by its value.
-/

namespace StoryMachine

namespace CodePoint

/-- The ranges of blank characters: spaces, line ends and the four separators `U+001C..U+001F`. -/
def blanks : CodePoint.Ranges :=
  [(9, 13), (28, 32), (133, 133), (160, 160), (5760, 5760), (8192, 8202), (8232, 8233),
   (8239, 8239), (8287, 8287), (12288, 12288)]

/-- Whether a character is blank. -/
def isBlank (c : CodePoint) : Bool :=
  blanks.contains c

/-- The zeros of the decimal digit runs; the digits one to nine follow each. -/
def digitZeros : List Nat :=
  [48, 1632, 1776, 1984, 2406, 2534, 2662, 2790, 2918, 3046, 3174, 3302, 3430, 3558, 3664, 3792,
   3872, 4160, 4240, 6112, 6160, 6470, 6608, 6784, 6800, 6992, 7088, 7232, 7248, 42528, 43216,
   43264, 43472, 43504, 43600, 44016, 65296, 66720, 68912, 69734, 69872, 69942, 70096, 70384,
   70736, 70864, 71248, 71360, 71472, 71904, 72016, 72784, 73040, 73120, 92768, 92864, 93008,
   120782, 120792, 120802, 120812, 120822, 123200, 123632, 125264, 130032]

/-- The value of a decimal digit of any script. -/
def digitValue? (c : CodePoint) : Option Nat :=
  (digitZeros.find? fun start => start ≤ c && c < start + 10).map (c - ·)

end CodePoint

namespace Text

/-- A text without the blanks at its start. -/
def dropBlanks (text : Text) : Text :=
  text.dropWhile CodePoint.isBlank

/-- A text without the blanks at its ends. -/
def trimmed (text : Text) : Text :=
  (dropBlanks (dropBlanks text).reverse).reverse

end Text

end StoryMachine
