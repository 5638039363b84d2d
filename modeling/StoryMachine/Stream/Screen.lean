import StoryMachine.Numeral
import StoryMachine.Text.CodePoint

/-!
# The screen

What a story can ask about the screen, and what was shown on it. Text reaches
the screen only while the lower window, number zero, is selected; status lines
are shown whatever the window.
-/

namespace StoryMachine

/-- A status line: the room, and either score and turns or the time of day. -/
structure StatusLine where
  room : Text
  scoreMode : Bool := true
  hours : Int := 0
  minutes : Int := 0
  score : Int := 0
  turns : Int := 0
deriving DecidableEq, Repr, Inhabited

namespace StatusLine

/-- The right part of a status line. -/
def right (status : StatusLine) : String :=
  if status.scoreMode then s!"Score: {status.score}  Turns: {status.turns}"
  else s!"Time: {status.hours}:{Numeral.decimalWidth 2 status.minutes}"

/-- A status line as a line of text: the room is cut or padded to fill the columns. -/
def line (status : StatusLine) (columns : Int) : Text :=
  let width := (max (columns - status.right.length - 1) 1).toNat
  let room := status.room.take width
  [0x5b] ++ room ++ List.replicate (width - room.length) 0x20 ++ [0x20] ++
    Text.ofString status.right ++ [0x5d, 0x0a]

end StatusLine

/-- Something that was shown. -/
inductive Shown where
  | text (text : Text)
  | status (status : StatusLine)
deriving DecidableEq, Repr

/-- The screen. What was shown is listed from the newest on. -/
structure Screen where
  lines : Int := 25
  columns : Int := 80
  canSplit : Bool := false
  hasColours : Bool := false
  active : Bool := false
  buffered : Bool := true
  upperLines : Int := 0
  window : Int := 0
  cursor : Int × Int := (1, 1)
  style : Nat := 0
  font : Int := 1
  colours : Int × Int := (1, 1)
  shown : List Shown := []
deriving DecidableEq, Repr, Inhabited

namespace Screen

/-- The screen at the start of a game. -/
def reset (screen : Screen) : Screen :=
  { screen with
    upperLines := 0, window := 0, cursor := (1, 1), style := 0, font := 1, colours := (1, 1) }

/-- Shows text in the lower window. -/
def print (screen : Screen) (text : Text) : Screen :=
  if screen.window = 0 then { screen with shown := .text text :: screen.shown } else screen

/-- Shows a status line. -/
def showStatus (screen : Screen) (status : StatusLine) : Screen :=
  { screen with shown := .status status :: screen.shown }

/-- Selects a window; the cursor of the upper one starts at its corner. -/
def setWindow (screen : Screen) (window : Int) : Screen :=
  { screen with window, cursor := if window = 1 then (1, 1) else screen.cursor }

/-- Erases a window; number `-1` also joins the windows. -/
def eraseWindow (screen : Screen) (window : Int) : Screen :=
  if window = -1 then { screen with upperLines := 0, window := 0 } else screen

/-- Adds a text style; style zero removes all of them. -/
def setStyle (screen : Screen) (style : Nat) : Screen :=
  { screen with style := if style = 0 then 0 else screen.style ||| style }

/-- Selects a font and gives the previous one, or zero if there is no such font. Font zero asks
for the current one. -/
def setFont (screen : Screen) (font : Int) : Int × Screen :=
  if font = 0 then (screen.font, screen)
  else if font = 1 ∨ font = 4 then (screen.font, { screen with font })
  else (0, screen)

end Screen

end StoryMachine
