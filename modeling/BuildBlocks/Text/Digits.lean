import BuildBlocks.Text.Basic

/-!
# Digits and numerals

Numbers are written in bases up to sixteen; the digits above nine are the Latin letters from
`a` to `f` in either case.  `numeral` writes a number in base ten, `numberOf?` reads one.
-/
namespace BuildBlocks.Text

/-- Whether a character lies in a range of code points, ends included. -/
def isBetween (first last c : Char) : Bool :=
  first.toNat ≤ c.toNat && c.toNat ≤ last.toNat

/-- The value of a character as a hexadecimal digit. -/
def hexValue? (c : Char) : Option Nat :=
  if isBetween '0' '9' c then some (c.toNat - '0'.toNat)
  else if isBetween 'a' 'f' c then some (c.toNat - 'a'.toNat + 10)
  else if isBetween 'A' 'F' c then some (c.toNat - 'A'.toNat + 10)
  else none

/-- The value of a character as a digit of a base up to sixteen. -/
def digitValue? (base : Nat) (c : Char) : Option Nat :=
  (hexValue? c).filter fun value => value < base

/-- Whether a character is a digit of a base up to sixteen. -/
def isDigitOf (base : Nat) (c : Char) : Bool :=
  (digitValue? base c).isSome

/-- The number that digits of a base write, the most significant one first. -/
def numberOf? (base : Nat) (digits : Text) : Option Nat :=
  digits.foldlM (fun n c => (digitValue? base c).map fun value => base * n + value) 0

/-- The decimal numeral of a number, without leading zeros. -/
def numeral (n : Nat) : Text :=
  Nat.toDigits 10 n

end BuildBlocks.Text
