import BuildBlocks.Text.Digits

/-!
# TOML values

A value as a TOML document gives it.  Floats and times stay as they are written; of a float
only its size matters here.  A document may hold numbers that cannot be handed on
(`isRepresentable`): it is at fault only when such a number is asked for.
-/
namespace BuildBlocks
open Text

namespace Toml

/-- A TOML value. -/
inductive Value where
  | string (t : Text)
  /-- An integer; a run of characters may pass for one and still write no number. -/
  | integer (n : Option Int)
  /-- A float, given by its numeral without underscores. -/
  | float (numeral : Text)
  | boolean (b : Bool)
  /-- A date, a time or both, given as written. -/
  | dateTime (written : Text)
  | array (items : List Value)
  | table (entries : List (Text × Value))
  deriving Inhabited

/-- The number that decimal digits write. -/
def natOfDigits (digits : Text) : Nat :=
  (numberOf? 10 digits).getD 0

/-- The integer that decimal digits after an optional sign write. -/
def intOfDigits : Text → Int
  | '-' :: digits => -(natOfDigits digits : Int)
  | '+' :: digits => natOfDigits digits
  | digits => natOfDigits digits

/-- The digits of a float without its point, and the power of ten that they count. -/
def decimalParts (numeral : Text) : Nat × Int :=
  let unsigned := numeral.dropWhile fun c => c == '+' || c == '-'
  let mantissa := unsigned.takeWhile fun c => c != 'e' && c != 'E'
  let exponent := intOfDigits ((unsigned.dropWhile fun c => c != 'e' && c != 'E').drop 1)
  let fraction := (mantissa.dropWhile (· != '.')).drop 1
  (natOfDigits (mantissa.filter (· != '.')), exponent - fraction.length)

/-- Whether a float rounds to a finite number of double precision.  The smallest number that
does not lies halfway between the greatest one and the next power of two. -/
def isFinite (numeral : Text) : Bool :=
  let (digits, exponent) := decimalParts numeral
  let bound := Nat.pow 2 1024 - Nat.pow 2 970
  if digits = 0 then true
  else if exponent < -(400 + numeral.length : Nat) then true
  else if exponent > 400 then false
  else if exponent < 0 then digits < bound * Nat.pow 10 exponent.natAbs
  else digits * Nat.pow 10 exponent.natAbs < bound

/-- Whether a float is one of the words for infinity and for no number, perhaps behind a sign. -/
def isSpecialFloat (numeral : Text) : Bool :=
  let unsigned := match numeral with
    | '+' :: t => t
    | '-' :: t => t
    | t => t
  unsigned = "inf".toList || unsigned = "nan".toList

mutual

/-- Whether all numbers in a value can be handed on: integers of 128 bits, with or without
a sign, and floats that are finite or say that they are not. -/
def Value.isRepresentable : Value → Bool
  | .integer (some n) => -(2 ^ 127) ≤ n && n < 2 ^ 128
  | .integer none => false
  | .float numeral => isSpecialFloat numeral || isFinite numeral
  | .array items => areRepresentable items
  | .table entries => entriesAreRepresentable entries
  | _ => true

/-- Whether all numbers in a list of values can be handed on. -/
def areRepresentable : List Value → Bool
  | [] => true
  | v :: items => v.isRepresentable && areRepresentable items

/-- Whether all numbers in the entries of a table can be handed on. -/
def entriesAreRepresentable : List (Text × Value) → Bool
  | [] => true
  | (_, v) :: entries => v.isRepresentable && entriesAreRepresentable entries

end

end Toml
end BuildBlocks
