import BuildBlocks.Toml.Value

/-!
# Numbers, truth values and times in TOML

A value that is not quoted and has no brackets is one run of characters (`splitScalar`); what
it stands for is decided by the whole run (`scalar?`).
-/
namespace BuildBlocks
open Text

namespace Toml

/-- Whether every underscore of a text stands between two digits of a base. -/
def separatesDigits (base : Nat) (t : Text) : Bool :=
  let pieces := splitOn '_' t
  (pieces.drop 1).all (fun piece => piece.head?.any (isDigitOf base)) &&
    pieces.dropLast.all fun piece => piece.getLast?.any (isDigitOf base)

/-- The text without its underscores. -/
def withoutUnderscores (t : Text) : Text :=
  t.filter (· != '_')

/-- The sign that a run starts with, as far as it is written, and the rest. -/
def splitSign : Text → Text × Text
  | '+' :: t => (['+'], t)
  | '-' :: t => (['-'], t)
  | t => ([], t)

/-- Whether a text is made of decimal digits, at least one. -/
def isDecimal (t : Text) : Bool :=
  !t.isEmpty && t.all Char.isDigit

/-- The integer that digits of a base write after the mark of the base.  The mark alone passes
for an integer, but writes no number. -/
def markedInteger? (base : Nat) (digits : Text) : Option Value :=
  if digits.isEmpty then some (.integer none)
  else if (splitOn '_' digits).all fun piece => !piece.isEmpty && piece.all (isDigitOf base) then
    some (.integer ((numberOf? base (withoutUnderscores digits)).map Int.ofNat))
  else
    none

/-- The integer of a run that starts like one.  Only zero starts with a zero.  Behind an
underscore hexadecimal digits pass for an integer, but write no number. -/
def integer? (t : Text) : Option Value :=
  let (sign, unsigned) := splitSign t
  let digits := withoutUnderscores unsigned
  if unsigned.head? = some '0' ∧ unsigned ≠ ['0'] then none
  else if isDecimal unsigned then some (.integer (some (intOfDigits (sign ++ digits))))
  else if (unsigned.dropWhile Char.isDigit).head? = some '_' && separatesDigits 16 t then
    some (.integer (if isDecimal digits then some (intOfDigits (sign ++ digits)) else none))
  else
    none

/-- Whether the character is the letter of an exponent. -/
def isExponentMark (c : Char) : Bool :=
  c == 'e' || c == 'E'

/-- Whether a text is a float without a sign and without underscores: digits, which a fraction
and an exponent may follow. -/
def isUnsignedFloat (t : Text) : Bool :=
  let isMantissa := match splitOn '.' (t.takeWhile (!isExponentMark ·)) with
    | [whole] => isDecimal whole
    | [whole, fraction] => isDecimal whole && isDecimal fraction
    | _ => false
  isMantissa && match t.dropWhile (!isExponentMark ·) with
    | [] => true
    | _ :: exponent => isDecimal (splitSign exponent).2

/-- The float that a run with a fraction or an exponent writes.  What is written before its
point has no leading zero. -/
def float? (t : Text) : Option Value :=
  let (sign, unsigned) := splitSign t
  let numeral := withoutUnderscores unsigned
  let startsWithZero := numeral.head? = some '0' && 2 ≤ (numeral.takeWhile Char.isDigit).length
  if isUnsignedFloat numeral && !startsWithZero && separatesDigits 10 t then
    some (.float (sign ++ numeral))
  else
    none

/-- The number that exactly two digits write. -/
def twoDigits? : Text → Option Nat
  | [a, b] => if a.isDigit && b.isDigit then some (natOfDigits [a, b]) else none
  | _ => none

/-- The number of days of a month. -/
def daysOfMonth (year month : Nat) : Nat :=
  if month = 2 then
    if year % 4 = 0 ∧ (year % 100 ≠ 0 ∨ year % 400 = 0) then 29 else 28
  else if month = 4 ∨ month = 6 ∨ month = 9 ∨ month = 11 then 30
  else 31

/-- Whether the run is a date. -/
def isDate : Text → Bool
  | [y, y', y'', y''', '-', m, m', '-', d, d'] =>
    let year := [y, y', y'', y''']
    match twoDigits? [m, m'], twoDigits? [d, d'] with
    | some month, some day =>
      year.all Char.isDigit && 1 ≤ month && month ≤ 12 && 1 ≤ day &&
        day ≤ daysOfMonth (natOfDigits year) month
    | _, _ => false
  | _ => false

/-- Whether two pieces are an hour and a minute. -/
def isHourMinute (hour minute : Text) : Bool :=
  match twoDigits? hour, twoDigits? minute with
  | some h, some m => h < 24 && m < 60
  | _, _ => false

/-- Whether a piece is a second, which may have a fraction and may be a leap second. -/
def isSecond (t : Text) : Bool :=
  match twoDigits? (t.take 2), t.drop 2 with
  | some s, [] => s ≤ 60
  | some s, '.' :: fraction => s ≤ 60 && !fraction.isEmpty && fraction.all Char.isDigit
  | _, _ => false

/-- Whether the run is a time of day; seconds may be missing. -/
def isTime (t : Text) : Bool :=
  match splitOn ':' t with
  | [hour, minute] => isHourMinute hour minute
  | [hour, minute, second] => isHourMinute hour minute && isSecond second
  | _ => false

/-- Whether the run is a distance from universal time. -/
def isOffset : Text → Bool
  | ['Z'] => true
  | ['z'] => true
  | sign :: t =>
    (sign == '+' || sign == '-') &&
      match splitOn ':' t with
      | [hour, minute] => isHourMinute hour minute
      | _ => false
  | [] => false

/-- Whether the run is a time of day that a distance from universal time may follow. -/
def isTimeWithOffset (t : Text) : Bool :=
  let isSign c := c == 'Z' || c == 'z' || c == '+' || c == '-'
  isTime (t.takeWhile (!isSign ·)) &&
    ((t.dropWhile (!isSign ·)).isEmpty || isOffset (t.dropWhile (!isSign ·)))

/-- Whether the run is a date, a time of day, or a date with a time. -/
def isDateTime (t : Text) : Bool :=
  isDate t || isTime t ||
    (isDate (t.take 10) &&
      match t.drop 10 with
      | separator :: time =>
        (separator == 'T' || separator == 't' || separator == ' ') && isTimeWithOffset time
      | [] => false)

/-- The value of a run that is neither a truth value nor marked with a base.  What follows its
first digits decides of which kind it is. -/
def decimalValue? (t : Text) : Option Value :=
  let unsigned := (splitSign t).2
  if isSpecialFloat t then some (.float t)
  else if !unsigned.head?.any Char.isDigit then none
  else
    let rest := unsigned.dropWhile Char.isDigit
    if rest.head?.any fun c => c == '-' || c == ':' then
      if isDateTime t then some (.dateTime t) else none
    else if rest.contains ' ' then none
    else if rest.any fun c => c == '.' || isExponentMark c then float? t
    else integer? t

/-- The value that a run stands for. -/
def scalar? (t : Text) : Option Value :=
  if t = "true".toList then some (.boolean true)
  else if t = "false".toList then some (.boolean false)
  else
    match t with
    | '0' :: 'x' :: digits => markedInteger? 16 digits
    | '0' :: 'o' :: digits => markedInteger? 8 digits
    | '0' :: 'b' :: digits => markedInteger? 2 digits
    | t => decimalValue? t

/-- Whether the character is a blank within a line. -/
def isLineBlank (c : Char) : Bool :=
  c == ' ' || c == '\t'

/-- Whether the character can belong to a run on both sides of a point. -/
def isPlain (c : Char) : Bool :=
  !isLineBlank c && !(".=,[]\x7b\x7d#\r\n".toList.contains c)

/-- Whether a run goes on behind the blanks that a text starts with: no point and no quote
follows them. -/
def resumes (t : Text) : Bool :=
  (t.dropWhile isLineBlank).head?.any fun c => isPlain c && c != '\'' && c != '"'

/-- The run that the text starts with and what follows it. -/
def splitScalar : Text → Text × Text
  | [] => ([], [])
  | c :: t =>
    if isPlain c || c == '.' || (isLineBlank c && resumes t) then
      let (run, rest) := splitScalar t
      (c :: run, rest)
    else
      ([], c :: t)

/-- The value without quotes and brackets that the text starts with, and what follows it. -/
def readScalar (t : Text) : Option (Value × Text) :=
  let (run, rest) := splitScalar t
  (scalar? run).map fun v => (v, rest)

end Toml
end BuildBlocks
