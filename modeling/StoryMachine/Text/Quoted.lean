import StoryMachine.Numeral
import StoryMachine.Text.Printable

/-!
# Quoted text

Descriptions and messages show a text between quotes. Single quotes are used
unless the text holds a single quote and no double quote; the quote in use and
the backslash are escaped, line ends and tabs have short escapes, and everything
that is not printable is written by its code.
-/

namespace StoryMachine

namespace Quoted

/-- The quote around a text: a double quote exactly for a text with a single and no double quote. -/
def mark (holdsSingle holdsDouble : Bool) : Char :=
  if holdsSingle && !holdsDouble then Char.ofNat 0x22 else Char.ofNat 0x27

/-- The escape of a character by its code: two, four or eight digits. -/
def codeEscape (c : CodePoint) : String :=
  if c < 0x100 then "\\x" ++ Numeral.hexAtLeast 2 c
  else if c < 0x10000 then "\\u" ++ Numeral.hexAtLeast 4 c
  else "\\U" ++ Numeral.hexAtLeast 8 c

/-- The escapes that every quoted text shares. -/
def shortEscape? (quote : Char) (c : CodePoint) : Option String :=
  if c = 0x5c then some "\\\\"
  else if c = quote.toNat then some ("\\" ++ String.singleton quote)
  else if c = 0x0a then some "\\n"
  else if c = 0x0d then some "\\r"
  else if c = 0x09 then some "\\t"
  else none

/-- One character of a quoted text. -/
def point (quote : Char) (c : CodePoint) : String :=
  (shortEscape? quote c).getD <|
    if c.isPrintable then String.singleton (Char.ofNat c) else codeEscape c

/-- A text between quotes. -/
def ofText (text : Text) : String :=
  let quote := mark (text.contains 0x27) (text.contains 0x22)
  String.singleton quote ++ String.join (text.map (point quote)) ++ String.singleton quote

/-- One byte of a quoted run of bytes; only printable ASCII stands for itself. -/
def byte (quote : Char) (b : UInt8) : String :=
  (shortEscape? quote b.toNat).getD <|
    if 0x20 ≤ b.toNat ∧ b.toNat < 0x7f then String.singleton (Char.ofNat b.toNat)
    else codeEscape b.toNat

/-- Bytes between quotes, with a `b` in front. -/
def ofBytes (data : List UInt8) : String :=
  let quote := mark (data.contains 0x27) (data.contains 0x22)
  "b" ++ String.singleton quote ++ String.join (data.map (byte quote)) ++ String.singleton quote

end Quoted

end StoryMachine
