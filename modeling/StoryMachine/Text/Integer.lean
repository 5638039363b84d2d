import StoryMachine.Text.Blank

/-!
# Integers as written

A written integer may have blanks around it, a sign, and single underscores
between its digits. Decimal digits of every script count by their value; above
nine the Latin letters follow, in either case. In base two, eight or sixteen a
mark such as `0x` may stand in front of the digits. In any other base the number
of digits is limited.
-/

namespace StoryMachine

namespace CodePoint

/-- The value of a digit in some base. -/
def digitIn? (base : Nat) (c : CodePoint) : Option Nat :=
  let value :=
    match c.digitValue? with
    | some value => some value
    | none =>
        if 0x61 ≤ c ∧ c ≤ 0x7a then some (c - 0x61 + 10)
        else if 0x41 ≤ c ∧ c ≤ 0x5a then some (c - 0x41 + 10)
        else none
  value.filter (· < base)

/-- Whether a character may stand around a number. The four separators `U+001C..U+001F` may not. -/
def isNumberBlank (c : CodePoint) : Bool :=
  c.isBlank && !(0x1c ≤ c && c ≤ 0x1f)

end CodePoint

/-- Why a text is no integer. -/
inductive IntegerFlaw where
  | notNumeral
  | tooManyDigits (count : Nat)
deriving DecidableEq, Repr

namespace Text

/-- The most digits of a number in a base that is no power of two. -/
def digitLimit : Nat := 4300

/-- Goes on reading digits, each perhaps with an underscore in front of it. -/
def moreDigits? (base : Nat) : Text → Option (List Nat)
  | [] => some []
  | 0x5f :: c :: rest => do return (← c.digitIn? base) :: (← moreDigits? base rest)
  | c :: rest => do return (← c.digitIn? base) :: (← moreDigits? base rest)

/-- The digits of a number without a sign. -/
def digits? (base : Nat) : Text → Option (List Nat)
  | [] => none
  | c :: rest => do return (← c.digitIn? base) :: (← moreDigits? base rest)

/-- The number that digits stand for. -/
def ofDigits (base : Nat) (digits : List Nat) : Nat :=
  digits.foldl (fun value digit => value * base + digit) 0

/-- A text without the blanks that may stand around a number. -/
def numberTrimmed (text : Text) : Text :=
  ((text.dropWhile CodePoint.isNumberBlank).reverse.dropWhile CodePoint.isNumberBlank).reverse

/-- Takes a sign off. -/
def splitSign : Text → Bool × Text
  | 0x2d :: rest => (true, rest)
  | 0x2b :: rest => (false, rest)
  | rest => (false, rest)

/-- The letter in the mark of a base, in lower case. -/
def markLetter? : Nat → Option CodePoint
  | 2 => some 0x62
  | 8 => some 0x6f
  | 16 => some 0x78
  | _ => none

/-- Digits without the mark of their base; an underscore may follow the mark. -/
def withoutMark (base : Nat) (digits : Text) : Text :=
  match markLetter? base, digits with
  | some letter, 0x30 :: c :: rest =>
      if c = letter ∨ c + 0x20 = letter then
        match rest with
        | 0x5f :: rest => rest
        | rest => rest
      else digits
  | _, _ => digits

/-- An integer in some base. Too many digits are refused before what follows them is looked at. -/
def readInteger (base : Nat) (text : Text) : Except IntegerFlaw Int :=
  let (negative, rest) := splitSign (text.dropWhile CodePoint.isNumberBlank)
  let (places, rest) :=
    (withoutMark base rest).span fun c => c = 0x5f || (c.digitIn? base).isSome
  match digits? base places with
  | none => .error .notNumeral
  | some digits =>
      if (markLetter? base).isNone ∧ digitLimit < digits.length then
        .error (.tooManyDigits digits.length)
      else if !rest.all CodePoint.isNumberBlank then .error .notNumeral
      else
        let value : Int := ofDigits base digits
        .ok (if negative then -value else value)

/-- A decimal integer. -/
def integer? (text : Text) : Option Int :=
  (readInteger 10 text).toOption

end Text

end StoryMachine
