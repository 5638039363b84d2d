/-!
# Text as code points

A text is a list of code points. Surrogates `U+D800..U+DFFF` may stand in it,
because a story can print any sixteen-bit code, so a text is not a `String`.
-/

namespace StoryMachine

/-- A number that names a character, a surrogate included. -/
abbrev CodePoint := Nat

/-- A text that a story reads or prints. -/
abbrev Text := List CodePoint

namespace Text

/-- The code points of a string. -/
def ofString (s : String) : Text :=
  s.toList.map Char.toNat

/-- The string of a text; a surrogate becomes the replacement character. -/
def toString (text : Text) : String :=
  String.ofList (text.map fun c => if c.isValidChar then Char.ofNat c else Char.ofNat 0xfffd)

/-- Texts joined by a text between each two. -/
def joinWith (between : Text) : List Text → Text
  | [] => []
  | [text] => text
  | text :: rest => text ++ between ++ joinWith between rest

end Text

/-- A sorted list of closed ranges of code points. -/
abbrev CodePoint.Ranges := List (Nat × Nat)

/-- Whether a code point lies in one of the ranges; the search ends at the first range above it. -/
def CodePoint.Ranges.contains : CodePoint.Ranges → CodePoint → Bool
  | [], _ => false
  | (first, last) :: rest, c =>
      if c < first then false
      else if c ≤ last then true
      else contains rest c

end StoryMachine
