import StoryMachine.Settings.Token
import StoryMachine.Text.Integer

/-!
# Kinds of values

A tag names the kind of a value. A scalar without quotes and without a tag has
the kind that it is written like: nothing, a truth value, a number, a date or a
moment, the sign for merging a mapping into another, or else a text. Integers may
be binary, octal, hexadecimal or in base sixty; a number with a point may have
an exponent, whose sign is required, and may be in base sixty as well.
-/

namespace StoryMachine

/-- The kinds of values. -/
inductive Kind where
  | nothing
  | truth
  | integer
  | real
  | bytes
  | time
  | orderedMapping
  | pairs
  | set
  | text
  | list
  | mapping
  /-- The key whose value is merged into its mapping. -/
  | merge
  /-- The key whose value stands for its mapping. -/
  | default
  /-- A kind that no value of a document has. -/
  | unknown
deriving DecidableEq, Repr

namespace Kind

/-- What the tags of the common kinds start with. -/
def tagStart : String := "tag:yaml.org,2002:"

/-- The common kinds by the ends of their tags. -/
def byName : List (String × Kind) :=
  [("null", nothing), ("bool", truth), ("int", integer), ("float", real), ("binary", bytes),
    ("timestamp", time), ("omap", orderedMapping), ("pairs", pairs), ("set", set), ("str", text),
    ("seq", list), ("map", mapping), ("merge", merge), ("value", default)]

/-- The kind that a tag names. -/
def ofTag (tag : Text) : Kind :=
  let known := byName.find? fun (name, _) => tag == Text.ofString (tagStart ++ name)
  (known.map Prod.snd).getD unknown

/-- Whether values of a kind can be keys. -/
def isKey : Kind → Bool
  | orderedMapping | pairs | set | list | mapping => false
  | _ => true

end Kind

/-! ## How scalars are written -/

namespace Scalar

/-- The words for nothing. -/
def nothingWords : List String := ["", "~", "null", "Null", "NULL"]

/-- The words for truth values. -/
def truthWords : List String :=
  ["yes", "Yes", "YES", "no", "No", "NO", "true", "True", "TRUE", "false", "False", "FALSE",
    "on", "On", "ON", "off", "Off", "OFF"]

/-- The words for infinity, after a sign. -/
def infinityWords : List String := [".inf", ".Inf", ".INF"]

/-- The words for no number. -/
def noNumberWords : List String := [".nan", ".NaN", ".NAN"]

/-- Whether a character is a digit of ASCII. -/
def isDigit (c : CodePoint) : Bool :=
  0x30 ≤ c && c ≤ 0x39

/-- Whether a character is a digit of ASCII below a base, or an underscore. -/
def isPlace (base : Nat) (c : CodePoint) : Bool :=
  c = 0x5f || (c < 0x80 && (c.digitIn? base).isSome)

/-- A digit, and then digits and underscores. -/
def isPlaces : Text → Bool
  | [] => false
  | c :: rest => isDigit c && rest.all (isPlace 10)

/-- Whether a text is a place of a number in base sixty: below sixty, with one digit or two. -/
def isSixtieth : Text → Bool
  | [c] => isDigit c
  | [c, d] => 0x30 ≤ c && c ≤ 0x35 && isDigit d
  | _ => false

/-- Whether a text without a sign is written like an integer. -/
def isMagnitude : Text → Bool
  | [0x30] => true
  | 0x30 :: 0x62 :: rest => !rest.isEmpty && rest.all (isPlace 2)
  | 0x30 :: 0x78 :: rest => !rest.isEmpty && rest.all (isPlace 16)
  | 0x30 :: rest => rest.all (isPlace 8)
  | text =>
      match text.splitOn 0x3a with
      | first :: rest => isPlaces first && rest.all isSixtieth
      | [] => false

/-- Whether a text is an exponent with its mark and its sign, or nothing. -/
def isExponent : Text → Bool
  | [] => true
  | mark :: sign :: digits =>
      (mark = 0x65 || mark = 0x45) && (sign = 0x2d || sign = 0x2b) && !digits.isEmpty &&
        digits.all isDigit
  | _ => false

/-- Whether a text is written like a number with a point. Only one without a sign may start with
the point. -/
def isPointed (text : Text) : Bool :=
  let unsigned := text.splitSign.2
  match unsigned.span (· != 0x2e) with
  | ([], 0x2e :: rest) =>
      let (places, rest) := rest.span (isPlace 10)
      unsigned == text && isPlaces places && isExponent rest
  | (whole, 0x2e :: rest) =>
      let (_, exponent) := rest.span (isPlace 10)
      match whole.splitOn 0x3a with
      | [whole] => isPlaces whole && isExponent exponent
      | first :: more => isPlaces first && more.all isSixtieth && exponent.isEmpty
      | [] => false
  | _ => false

/-- Whether a text is written like a number with a point, an infinity or no number. -/
def isReal (text : Text) : Bool :=
  infinityWords.contains text.splitSign.2.toString || noNumberWords.contains text.toString ||
    isPointed text

/-- The parts of a written date and time. -/
structure TimeText where
  year : Text
  month : Text
  day : Text
  hour : Text := []
  minute : Text := []
  second : Text := []
  fraction : Text := []
  /-- Whether universal time is meant. -/
  universal : Bool := false
  /-- Whether the distance from universal time is to the west, its hours and its minutes. -/
  distance : Option (Bool × Text × Text) := none

namespace TimeText

/-- From the least to the most digits that stand at the start. -/
def takeDigits? (least most : Nat) (text : Text) : Option (Text × Text) :=
  let digits := (text.take most).takeWhile isDigit
  if least ≤ digits.length then some (digits, text.drop digits.length) else none

/-- What follows a character. -/
def after? (c : CodePoint) : Text → Option Text
  | d :: rest => if d = c then some rest else none
  | [] => none

/-- What follows the `T` or the gap between a date and a time. -/
def afterJoint? : Text → Option Text
  | [] => none
  | c :: rest =>
      if c = 0x54 ∨ c = 0x74 then some rest
      else if c.isGap then some (rest.dropWhile CodePoint.isGap)
      else none

/-- The distance from universal time at the end of a time. -/
def withZone? (time : TimeText) (text : Text) : Option TimeText :=
  match text.dropWhile CodePoint.isGap with
  | [] => if text.isEmpty then some time else none
  | [0x5a] => some { time with universal := true }
  | sign :: rest => do
      if sign ≠ 0x2b ∧ sign ≠ 0x2d then none
      let (hours, rest) ← takeDigits? 1 2 rest
      let minutes ←
        match rest with
        | [] => some []
        | rest => do
            let (minutes, rest) ← takeDigits? 2 2 (← after? 0x3a rest)
            if rest.isEmpty then some minutes else none
      return { time with distance := some (sign = 0x2d, hours, minutes) }

/-- A date, or a date and a time. -/
def ofText? (text : Text) : Option TimeText := do
  let (year, rest) ← takeDigits? 4 4 text
  let (month, rest) ← takeDigits? 1 2 (← after? 0x2d rest)
  let (day, rest) ← takeDigits? 1 2 (← after? 0x2d rest)
  let date : TimeText := { year, month, day }
  if rest.isEmpty then return date
  let (hour, rest) ← takeDigits? 1 2 (← afterJoint? rest)
  let (minute, rest) ← takeDigits? 2 2 (← after? 0x3a rest)
  let (second, rest) ← takeDigits? 2 2 (← after? 0x3a rest)
  let (fraction, rest) :=
    match rest with
    | 0x2e :: rest => rest.span isDigit
    | rest => ([], rest)
  ({ date with hour, minute, second, fraction } : TimeText).withZone? rest

end TimeText

/-- Whether a text is written like a date or a moment. A date alone has all its digits. -/
def isTime (text : Text) : Bool :=
  match TimeText.ofText? text with
  | none => false
  | some time => !time.hour.isEmpty || (time.month.length = 2 && time.day.length = 2)

/-- A text without one line end at its end. -/
def withoutLineEnd (text : Text) : Text :=
  if text.getLast? = some 0x0a then text.dropLast else text

end Scalar

open Scalar in
/-- The kind that a scalar is written like. A line end at its end does not count, unless it is all
there is. -/
def Kind.ofScalar (scalar : Text) : Kind :=
  let text := withoutLineEnd scalar
  let word := text.toString
  if text.isEmpty && !scalar.isEmpty then .text
  else if truthWords.contains word then .truth
  else if isReal text then .real
  else if isMagnitude text.splitSign.2 then .integer
  else if word = "<<" then .merge
  else if nothingWords.contains word then .nothing
  else if isTime text then .time
  else if word = "=" then .default
  else .text

end StoryMachine
