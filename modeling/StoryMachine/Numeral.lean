/-!
# Written numbers

Hexadecimal and padded decimal numerals. A negative number is written with its
sign in front of the digits of its magnitude, so `-1` reads `-1` in every base.
-/

namespace StoryMachine

namespace Numeral

/-- Zeros in front of the digits up to the given count. -/
def zeroFill (count : Nat) (digits : List Char) : List Char :=
  List.replicate (count - digits.length) '0' ++ digits

/-- The sign of a written number; positive numbers carry none. -/
def sign (n : Int) : List Char :=
  if n < 0 then ['-'] else []

/-- The hexadecimal digits of a magnitude, without padding. -/
def hexDigits (n : Nat) : List Char :=
  Nat.toDigits 16 n

/-- A number in hexadecimal. -/
def hex (n : Int) : String :=
  String.ofList (sign n ++ hexDigits n.natAbs)

/-- A number in hexadecimal, filled with zeros to a width that counts the sign. -/
def hexWidth (width : Nat) (n : Int) : String :=
  String.ofList (sign n ++ zeroFill (width - (sign n).length) (hexDigits n.natAbs))

/-- A number in hexadecimal with at least the given count of digits. -/
def hexAtLeast (count : Nat) (n : Int) : String :=
  String.ofList (sign n ++ zeroFill count (hexDigits n.natAbs))

/-- A number in decimal, filled with zeros to a width that counts the sign. -/
def decimalWidth (width : Nat) (n : Int) : String :=
  String.ofList (sign n ++ zeroFill (width - (sign n).length) (Nat.toDigits 10 n.natAbs))

/-- A byte as two hexadecimal digits. -/
def byte (b : UInt8) : String :=
  hexAtLeast 2 b.toNat

/-- Bytes as a run of two-digit hexadecimal numerals. -/
def bytes (data : List UInt8) : String :=
  String.join (data.map byte)

end Numeral

end StoryMachine
