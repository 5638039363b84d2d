import StoryMachine.Numeral
import StoryMachine.Text.Integer

/-!
# Real numbers as written

A binary number is shown with the fewest decimal digits that read back as the
same number; among those the nearest is taken, and a tie goes to the even
digit. The reals that read back form an interval around the number, whose ends
belong to it if the significand is even.

A written real number has digits with a point among them or next to them, and
perhaps an exponent, or it is one of the words for infinity and for no number.
-/

namespace StoryMachine

/-- A finite number without its sign, `significand * 2 ^ exponent`. -/
structure BinaryNumber where
  significand : Nat
  exponent : Int
  /-- Whether the number below is half as far away as the number above. -/
  narrowBelow : Bool

namespace BinaryNumber

/-- The place of the exponent in the bits of a number. -/
def unit : Nat := 0x10000000000000

/-- The magnitude of a number by its bits: a sign, eleven bits of exponent, 52 bits of fraction. -/
def ofFloat (value : Float) : BinaryNumber :=
  let bits := value.toBits.toNat
  let exponent := bits / unit % 2048
  let fraction := bits % unit
  if exponent = 0 then ⟨fraction, -1074, false⟩
  else ⟨fraction + unit, (exponent : Int) - 1075, fraction = 0 && 1 < exponent⟩

/-- Compares `digits * 10 ^ tens` with `significand * 2 ^ twos`. -/
def compareScaled (digits : Nat) (tens : Int) (significand : Nat) (twos : Int) : Ordering :=
  compare (digits * Nat.pow 10 tens.toNat * Nat.pow 2 (-twos).toNat)
    (significand * Nat.pow 2 twos.toNat * Nat.pow 10 (-tens).toNat)

/-- Whether a decimal reads back as a number. -/
def readsBack (number : BinaryNumber) (digits : Nat) (tens : Int) : Bool :=
  let quarter := number.exponent - 2
  let low := 4 * number.significand - (if number.narrowBelow then 1 else 2)
  let high := 4 * number.significand + 2
  let closed := number.significand % 2 = 0
  let above := compareScaled digits tens low quarter
  let below := compareScaled digits tens high quarter
  (above == .gt || (closed && above == .eq)) && (below == .lt || (closed && below == .eq))

/-- The number in units of a power of ten, as a fraction. -/
def inUnits (number : BinaryNumber) (tens : Int) : Nat × Nat :=
  (number.significand * Nat.pow 2 number.exponent.toNat * Nat.pow 10 (-tens).toNat,
    Nat.pow 2 (-number.exponent).toNat * Nat.pow 10 tens.toNat)

/-- The decimal with a given last place that reads back and is nearest, if there is one. -/
def nearestAt? (number : BinaryNumber) (tens : Int) : Option Nat :=
  let (numerator, denominator) := number.inUnits tens
  let down := numerator / denominator
  let up := down + 1
  match number.readsBack down tens, number.readsBack up tens with
  | true, true =>
      match compare (2 * numerator) ((down + up) * denominator) with
      | .lt => some down
      | .gt => some up
      | .eq => some (if down % 2 = 0 then down else up)
  | true, false => some down
  | false, true => some up
  | false, false => none

/-- The number of digits in front of the point, or minus the zeros behind it. -/
def scale (number : BinaryNumber) : Int :=
  let places := (List.range 640).map fun n : Nat => (n : Int) - 324
  (places.find? fun place => compareScaled 1 place number.significand number.exponent == .gt).getD
    320

/-- Digits and the place of the last one, without zeros at the end. -/
def withoutZeros (digits : Nat) (tens : Int) : Nat → Nat × Int
  | 0 => (digits, tens)
  | count + 1 =>
      if digits % 10 = 0 ∧ digits ≠ 0 then withoutZeros (digits / 10) (tens + 1) count
      else (digits, tens)

/-- The fewest digits that read back, and the place of the last one. -/
def shortest (number : BinaryNumber) : Nat × Int :=
  let scale := number.scale
  let found := (List.range 17).findSome? fun count : Nat =>
    let tens := scale - count - 1
    (number.nearestAt? tens).map fun digits => withoutZeros digits tens 20
  found.getD (0, 0)

end BinaryNumber

namespace Decimal

/-- Digits with a point after the given number of them; a digit stands on both sides. -/
def pointed (digits : List Char) (place : Int) : String :=
  let zeros (count : Int) : List Char := List.replicate count.toNat '0'
  let length : Int := digits.length
  String.ofList <|
    if place ≤ 0 then ['0', '.'] ++ zeros (-place) ++ digits
    else if place < length then digits.take place.toNat ++ ['.'] ++ digits.drop place.toNat
    else digits ++ zeros (place - length) ++ ['.', '0']

/-- Digits with an exponent of at least two digits and its sign. -/
def scientific (digits : List Char) (exponent : Int) : String :=
  let fraction := if digits.length ≤ 1 then [] else '.' :: digits.drop 1
  let sign := if exponent < 0 then "e-" else "e+"
  String.ofList (digits.take 1 ++ fraction) ++ sign ++
    Numeral.decimalWidth 2 exponent.natAbs

/-- A magnitude by its digits: with a point if the first digit is between the fourth place behind
it and the sixteenth in front of it, else with an exponent. -/
def ofDigits (value : Nat) (tens : Int) : String :=
  let digits := Nat.toDigits 10 value
  let place : Int := digits.length + tens
  if -4 < place ∧ place ≤ 16 then pointed digits place else scientific digits (place - 1)

/-- A number as it is shown. -/
def ofFloat (value : Float) : String :=
  let sign := if value.toBits >>> 63 = 1 then "-" else ""
  if value.isNaN then "nan"
  else if value.isInf then sign ++ "inf"
  else if value == 0.0 then sign ++ "0.0"
  else
    let (digits, tens) := (BinaryNumber.ofFloat value).shortest
    sign ++ ofDigits digits tens

/-- The integer part of a finite number. -/
def integerPart (value : Float) : Int :=
  let number := BinaryNumber.ofFloat value
  let magnitude : Nat :=
    if 0 ≤ number.exponent then number.significand <<< number.exponent.toNat
    else number.significand >>> (-number.exponent).toNat
  if value.toBits >>> 63 = 1 then -(magnitude : Int) else magnitude

/-- Decimal digits of any script. -/
def digits (text : Text) : List Nat :=
  text.filterMap CodePoint.digitValue?

/-- Whether a character is a decimal digit. -/
def isDigit (c : CodePoint) : Bool :=
  c.digitValue?.isSome

/-- Exponents beyond this bound give zero or infinity for every number of digits in use. -/
def exponentBound : Nat := 1000000

/-- The binary number nearest to a decimal one. -/
def nearest (mantissa : Nat) (exponent : Int) : Float :=
  Float.ofScientific mantissa (exponent < 0) (min exponent.natAbs exponentBound)

/-- The exponent of a number, after its mark. -/
def exponent? (text : Text) : Option Int :=
  let (negative, rest) := text.splitSign
  if rest.isEmpty || !rest.all isDigit then none
  else
    let value : Int := Text.ofDigits 10 (digits rest)
    some (if negative then -value else value)

/-- Digits with perhaps a point and an exponent. -/
def decimal? (text : Text) : Option Float := do
  let (whole, rest) := text.span isDigit
  let (fraction, rest) :=
    match rest with
    | 0x2e :: rest => rest.span isDigit
    | rest => ([], rest)
  if whole.isEmpty && fraction.isEmpty then none
  let exponent ←
    match rest with
    | [] => some 0
    | c :: rest => if c = 0x65 ∨ c = 0x45 then exponent? rest else none
  let mantissa := Text.ofDigits 10 (digits (whole ++ fraction))
  if mantissa = 0 then some 0.0 else some (nearest mantissa (exponent - fraction.length))

/-- A written real number; letters count in lower case. -/
def ofText? (text : Text) : Option Float :=
  let (negative, rest) := text.numberTrimmed.splitSign
  let word := Text.toString rest
  let magnitude :=
    if word = "inf" ∨ word = "infinity" then some (1.0 / 0.0)
    else if word = "nan" then some (0.0 / 0.0)
    else decimal? rest
  magnitude.map fun value => if negative then -value else value

end Decimal

end StoryMachine
