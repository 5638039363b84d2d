import StoryMachine.Settings.Kind
import StoryMachine.Settings.Value
import StoryMachine.Text.Lower

/-!
# Values of scalars

What a scalar of a kind stands for. A scalar that goes by how it is written has
a value nearly always; one with a tag may be written like nothing of its kind.
-/

namespace StoryMachine

namespace Leaf

open Document

/-- The truth values by their words in lower case. -/
def truths : List (String × Bool) :=
  [("yes", true), ("no", false), ("true", true), ("false", false), ("on", true), ("off", false)]

/-- A truth value. -/
def truth (text : Text) : Result Bool :=
  match truths.lookup text.lower.toString with
  | some value => .ok value
  | none => .refuse .unknownWord

/-- An integer in some base. -/
def integerIn (base : Nat) (text : Text) : Result Int :=
  match text.readInteger base with
  | .ok value => .ok value
  | .error _ => .refuse .valueOutOfRange

/-- The number whose places in base sixty are given, the highest first. -/
def sixtieths (places : List Int) : Int :=
  places.foldl (fun value place => value * 60 + place) 0

/-- Takes the sign off a number without its underscores; there has to be a character. -/
def signOf (text : Text) : Result (Bool × Text) :=
  match text.filter (· != 0x5f) with
  | [] => .refuse .indexOutOfRange
  | text => .ok (Text.splitSign text)

/-- The magnitude of an integer. -/
def magnitude (text : Text) : Result Int :=
  match text with
  | [0x30] => .ok 0
  | [] => .refuse .indexOutOfRange
  | 0x30 :: 0x62 :: rest => integerIn 2 rest
  | 0x30 :: 0x78 :: rest => integerIn 16 rest
  | 0x30 :: _ => integerIn 8 text
  | _ => do return sixtieths (← (text.splitOn 0x3a).mapM (integerIn 10))

/-- An integer. -/
def integer (text : Text) : Result Int := do
  let (negative, rest) ← signOf text
  let value ← magnitude rest
  return if negative then -value else value

/-- A number with a point. -/
def decimal (text : Text) : Result Float :=
  match Decimal.ofText? text with
  | some value => .ok value
  | none => .refuse .valueOutOfRange

/-- The sum of numbers in base sixty, the lowest first. A place has to be worth a finite number. -/
def sixtiethSum (sum : Float) (base : Nat) : List Float → Result Float
  | [] => .ok sum
  | value :: rest =>
      let worth := Float.ofNat base
      if worth.isInf then .refuse .numberTooLarge
      else sixtiethSum (sum + value * worth) (base * 60) rest

/-- A number with a point, an infinity or no number. -/
def real (text : Text) : Result Float := do
  let (negative, rest) ← signOf text.lower
  let value ←
    if rest = Text.ofString ".inf" then pure (1.0 / 0.0)
    else if rest = Text.ofString ".nan" then return 0.0 / 0.0
    else
      match rest.splitOn 0x3a with
      | [whole] => decimal whole
      | places => do
          let values ← places.mapM decimal
          sixtiethSum 0.0 1 values.reverse
  return if negative then -value else value

/-- The number that digits stand for; no digits are zero. -/
def number (digits : Text) : Nat :=
  Text.ofDigits 10 (digits.filterMap CodePoint.digitValue?)

/-- The millionths of a second that the digits behind the point stand for. -/
def millionths (digits : Text) : Nat :=
  number ((digits ++ List.replicate 6 0x30).take 6)

/-- A date or a moment. -/
def time (text : Text) : Result Setting := do
  match Scalar.TimeText.ofText? (Scalar.withoutLineEnd text) with
  | none => .refuse .notTime
  | some written =>
      let date : Date :=
        { year := number written.year, month := number written.month, day := number written.day }
      let distance :=
        match written.distance with
        | some (west, hours, minutes) =>
            let minutes : Int := number hours * 60 + number minutes
            some (if west then -minutes else minutes)
        | none => if written.universal then some 0 else none
      let moment : Moment :=
        { date, hour := number written.hour, minute := number written.minute
          second := number written.second, micro := millionths written.fraction, distance }
      if written.hour.isEmpty then
        if date.isValid then return .date date else .refuse .valueOutOfRange
      else if moment.isValid then return .moment moment
      else .refuse .valueOutOfRange

/-- The six bits of a character in base 64. -/
def sixBits? (c : CodePoint) : Option Nat :=
  if 0x41 ≤ c ∧ c ≤ 0x5a then some (c - 0x41)
  else if 0x61 ≤ c ∧ c ≤ 0x7a then some (c - 0x61 + 26)
  else if 0x30 ≤ c ∧ c ≤ 0x39 then some (c - 0x30 + 52)
  else if c = 0x2b then some 62
  else if c = 0x2f then some 63
  else none

/-- Bytes from groups of four characters: the place in the group, the bits left over and the equals
signs at the end so far. Other characters are skipped, and a full group may end the text. -/
def base64 (place left signs : Nat) : Text → Result (List UInt8)
  | [] => if place = 0 then .ok [] else malformed
  | c :: rest =>
      if c = 0x3d then
        if 2 ≤ place ∧ 4 ≤ place + signs + 1 then .ok []
        else base64 place left (if 2 ≤ place then signs + 1 else signs) rest
      else
        match sixBits? c, place with
        | none, _ => base64 place left signs rest
        | some bits, 0 => base64 1 bits 0 rest
        | some bits, 1 => do
            return UInt8.ofNat (left * 4 + bits / 16) :: (← base64 2 (bits % 16) 0 rest)
        | some bits, 2 => do
            return UInt8.ofNat (left * 16 + bits / 4) :: (← base64 3 (bits % 4) 0 rest)
        | some bits, _ => do return UInt8.ofNat (left * 64 + bits) :: (← base64 0 0 0 rest)

/-- Bytes in base 64. -/
def bytes (text : Text) : Result (List UInt8) := do
  expect (text.all (· < 0x80))
  base64 0 0 0 text

/-- The value of a scalar of a kind. -/
def read (kind : Kind) (text : Text) : Result Setting :=
  match kind with
  | .nothing => .ok .nothing
  | .truth => return .truth (← truth text)
  | .integer => return .integer (← integer text)
  | .real => return .real (← real text)
  | .bytes => return .bytes (← bytes text)
  | .time => time text
  | .text => .ok (.text text)
  | _ => malformed

end Leaf

end StoryMachine
