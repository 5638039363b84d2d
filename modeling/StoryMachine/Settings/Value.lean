import StoryMachine.Effect
import StoryMachine.Settings.Moment
import StoryMachine.Text.Decimal

/-!
# Values of settings

A settings document holds a value: nothing, a truth value, a number, a text,
bytes, a date or a moment, a list, a set or a mapping. A value can be read as a
colour, which is an integer: a number is cut at the point, and a text or bytes
have to be a written integer.
-/

namespace StoryMachine

/-- A value of a settings document. -/
inductive Setting where
  | nothing
  | truth (value : Bool)
  | integer (value : Int)
  | real (value : Float)
  | text (text : Text)
  | bytes (data : List UInt8)
  | date (date : Date)
  | moment (moment : Moment)
  | list (items : List Setting)
  /-- A list of pairs. -/
  | pairs (items : List (Setting × Setting))
  | set (items : List Setting)
  | mapping (fields : List (Setting × Setting))
  /-- A list or a mapping that is a part of itself. -/
  | again (isMapping : Bool)
deriving Inhabited, Repr

namespace Setting

/-- The name of the kind of a value. -/
def kindName : Setting → String
  | nothing => "NoneType"
  | truth _ => "bool"
  | integer _ => "int"
  | real _ => "float"
  | text _ => "str"
  | bytes _ => "bytes"
  | date _ => "date"
  | moment _ => "datetime"
  | list _ | pairs _ | again false => "list"
  | set _ => "set"
  | mapping _ | again true => "dict"

/-- The name of the kind of a value with the family that it belongs to. -/
def fullKindName (value : Setting) : String :=
  match value with
  | date _ | moment _ => "datetime." ++ value.kindName
  | value => value.kindName

/-- Whether a value is the given text. -/
def isText (value : Setting) (expected : String) : Bool :=
  match value with
  | text written => written == Text.ofString expected
  | _ => false

/-- The number that a value stands for as a key. -/
def keyNumber? : Setting → Option Float
  | truth value => some (if value then 1.0 else 0.0)
  | real value => some value
  | integer value =>
      if value.natAbs < 0x20000000000000 then some (Float.ofInt value) else none
  | _ => none

/-- Whether two values are the same key of a mapping: numbers count by their value. -/
def isSameKey (left right : Setting) : Bool :=
  match left, right with
  | nothing, nothing => true
  | integer left, integer right => left = right
  | text left, text right => left = right
  | bytes left, bytes right => left = right
  | date left, date right => left = right
  | moment left, moment right => left = right
  | left, right =>
      match left.keyNumber?, right.keyNumber? with
      | some left, some right => left == right || (left.isNaN && right.isNaN)
      | _, _ => false

/-- Adds a field to a mapping; a key that is there keeps its place and takes the new value. -/
def putField (key value : Setting) : List (Setting × Setting) → List (Setting × Setting)
  | [] => [(key, value)]
  | (k, v) :: rest =>
      if k.isSameKey key then (k, value) :: rest else (k, v) :: putField key value rest

mutual

/-- A value as it stands inside a list or a mapping. -/
def quoted : Setting → String
  | nothing => "None"
  | truth value => if value then "True" else "False"
  | integer value => toString value
  | real value => Decimal.ofFloat value
  | text written => Quoted.ofText written
  | bytes data => Quoted.ofBytes data
  | date day => day.quoted
  | moment instant => instant.quoted
  | list items => "[" ++ ", ".intercalate (quotedItems items) ++ "]"
  | pairs items => "[" ++ ", ".intercalate (quotedPairs items) ++ "]"
  | set [] => "set()"
  | set (item :: items) =>
      "\x7b" ++ ", ".intercalate (quoted item :: quotedItems items) ++ "\x7d"
  | mapping fields => "\x7b" ++ ", ".intercalate (quotedFields fields) ++ "\x7d"
  | again isMapping => if isMapping then "\x7b...\x7d" else "[...]"

/-- The items of a list. -/
def quotedItems : List Setting → List String
  | [] => []
  | item :: items => quoted item :: quotedItems items

/-- The items of a list of pairs. -/
def quotedPairs : List (Setting × Setting) → List String
  | [] => []
  | (left, right) :: items =>
      ("(" ++ quoted left ++ ", " ++ quoted right ++ ")") :: quotedPairs items

/-- The fields of a mapping. -/
def quotedFields : List (Setting × Setting) → List String
  | [] => []
  | (key, value) :: fields => (quoted key ++ ": " ++ quoted value) :: quotedFields fields

end

mutual

/-- Whether there is an integer in a value with more digits than are ever written out. -/
def isTooLong : Setting → Bool
  | integer value => Nat.pow 10 Text.digitLimit ≤ value.natAbs
  | list items | set items => anyTooLong items
  | pairs items | mapping items => anyPairTooLong items
  | _ => false

/-- Whether one of the items is too long. -/
def anyTooLong : List Setting → Bool
  | [] => false
  | item :: items => isTooLong item || anyTooLong items

/-- Whether one side of a pair is too long. -/
def anyPairTooLong : List (Setting × Setting) → Bool
  | [] => false
  | (left, right) :: items => isTooLong left || isTooLong right || anyPairTooLong items

end

/-- A value on its own: a text, a date or a moment stands as it is. -/
def shown : Setting → String
  | text written => written.toString
  | date day => day.shown
  | moment instant => instant.shown
  | value => value.quoted

/-- The field of a mapping with a name; of fields with one name the last counts. -/
def field? (fields : List (Setting × Setting)) (name : String) : Option Setting :=
  (fields.reverse.find? (·.1.isText name)).map Prod.snd

/-- The most that a message shows of a text that is no number. -/
def shownLength : Nat := 200

/-- A written integer as a colour. -/
def writtenColour (text : Text) (quoted : String) : Result Int :=
  match text.readInteger 10 with
  | .ok value => .ok value
  | .error .notNumeral =>
      let shown := String.ofList (quoted.toList.take shownLength)
      .fault (.invalidColour s!"invalid literal for int() with base 10: {shown}")
  | .error (.tooManyDigits count) =>
      .fault (.invalidColour
        (s!"Exceeds the limit ({Text.digitLimit} digits) for integer string conversion: " ++
          s!"value has {count} digits; use sys.set_int_max_str_digits() to increase the limit"))

/-- A value as a colour. -/
def colour : Setting → Result Int
  | truth value => .ok (if value then 1 else 0)
  | integer value => .ok value
  | real value =>
      if value.isNaN then .fault (.invalidColour "cannot convert float NaN to integer")
      else if value.isInf then .refuse .numberTooLarge
      else .ok (Decimal.integerPart value)
  | text written => writtenColour written (Quoted.ofText written)
  | bytes data =>
      -- Bytes beyond ASCII are no characters at all, so they must not count as blanks.
      let chars := data.map fun byte => if byte < 0x80 then byte.toNat else 0x3f
      writtenColour chars (Quoted.ofBytes (data.take shownLength))
  | value =>
      .fault (.invalidColour
        ("int() argument must be a string, a bytes-like object or a real number, not '" ++
          value.fullKindName ++ "'"))

end Setting

end StoryMachine
