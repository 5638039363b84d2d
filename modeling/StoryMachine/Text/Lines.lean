import StoryMachine.Text.CodePoint

/-!
# Lines of text

Files are cut into lines at line feeds, carriage returns, and pairs of the two.
Bytes become text only if they are well-formed UTF-8.
-/

namespace StoryMachine

namespace Text

/-- The text that bytes in UTF-8 stand for. -/
def ofUtf8? (data : List UInt8) : Option Text :=
  (String.fromUTF8? ⟨data.toArray⟩).map ofString

/-- The bytes of a string in UTF-8. -/
def utf8 (s : String) : List UInt8 :=
  s.toUTF8.toList

/-- A text whose lines all end in line feeds. -/
def withLineFeeds : Text → Text
  | [] => []
  | 0x0d :: 0x0a :: rest => 0x0a :: withLineFeeds rest
  | 0x0d :: rest => 0x0a :: withLineFeeds rest
  | c :: rest => c :: withLineFeeds rest

/-- The lines of a text, without their ends. A line end at the end of the text starts no line. -/
def lines (text : Text) : List Text :=
  let all := text.withLineFeeds.splitOn 0x0a
  if all.getLast? = some [] then all.dropLast else all

end Text

end StoryMachine
