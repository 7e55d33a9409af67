import BuildBlocks.Json.Value
import BuildBlocks.Text.Digits

/-!
# Reading JSON

`Value.ofText?` reads a text that is one JSON value and nothing else.  Brackets and braces
may be nested as deep as the text is long, so no text is refused for its depth.
-/
namespace BuildBlocks
open Text

namespace Json

/-- The text without the blanks that may stand between the tokens of JSON. -/
def skipBlanks (t : Text) : Text :=
  t.dropWhile fun c => c == ' ' || c == '\t' || c == '\n' || c == '\r'

/-- What one character or escape of a string literal contributes. -/
inductive StringUnit where
  | character (c : Char)
  /-- A number that stands for no character alone, only in a pair. -/
  | surrogate (n : Nat)
  deriving DecidableEq, Repr

/-- The unit that an escaped number contributes. -/
def StringUnit.ofNumber (n : Nat) : StringUnit :=
  if 0xD800 ≤ n ∧ n ≤ 0xDFFF then .surrogate n else .character (Char.ofNat n)

/-- The text of units, in which surrogates stand in pairs only, the high one first. -/
def literalOfUnits : List StringUnit → Literal
  | [] => some []
  | .character c :: units => (literalOfUnits units).map (c :: ·)
  | .surrogate high :: .surrogate low :: units =>
    if high < 0xDC00 ∧ 0xDC00 ≤ low then
      (literalOfUnits units).map
        (Char.ofNat (0x10000 + 0x400 * (high - 0xD800) + (low - 0xDC00)) :: ·)
    else
      none
  | .surrogate _ :: _ => none

/-- The character that a backslash and a letter write. -/
def simpleEscape? : Char → Option Char
  | '"' => some '"'
  | '\\' => some '\\'
  | '/' => some '/'
  | 'b' => some (Char.ofNat 8)
  | 'f' => some (Char.ofNat 12)
  | 'n' => some '\n'
  | 'r' => some '\r'
  | 't' => some '\t'
  | _ => none

/-- The units of a string literal whose opening quote is read, and what follows it. -/
def readUnits : Text → Option (List StringUnit × Text)
  | [] => none
  | '"' :: t => some ([], t)
  | '\\' :: 'u' :: a :: b :: c :: d :: t =>
    match numberOf? 16 [a, b, c, d] with
    | some n => (readUnits t).map fun (units, rest) => (.ofNumber n :: units, rest)
    | none => none
  | '\\' :: e :: t =>
    match simpleEscape? e with
    | some c => (readUnits t).map fun (units, rest) => (.character c :: units, rest)
    | none => none
  | c :: t =>
    if c = '\\' ∨ c.toNat < 32 then none
    else (readUnits t).map fun (units, rest) => (.character c :: units, rest)

/-- A string literal whose opening quote is read, and what follows it. -/
def readLiteral (t : Text) : Option (Literal × Text) :=
  (readUnits t).map fun (units, rest) => (literalOfUnits units, rest)

/-- One or more digits and what follows them. -/
def readDigits (t : Text) : Option (Text × Text) :=
  match t.takeWhile Char.isDigit with
  | [] => none
  | digits => some (digits, t.dropWhile Char.isDigit)

/-- An integer numeral without a sign and what follows it; it starts with a zero only when it
is that zero. -/
def readInteger : Text → Option (Text × Text)
  | '0' :: t => some (['0'], t)
  | t => readDigits t

/-- The fraction that the text may start with, and what follows it. -/
def readFraction : Text → Option (Text × Text)
  | '.' :: t => (readDigits t).map fun (digits, rest) => ('.' :: digits, rest)
  | t => some ([], t)

/-- The exponent that the text may start with, and what follows it. -/
def readExponent : Text → Option (Text × Text)
  | [] => some ([], [])
  | e :: t =>
    if e = 'e' ∨ e = 'E' then
      match t with
      | '+' :: t => (readDigits t).map fun (digits, rest) => (e :: '+' :: digits, rest)
      | '-' :: t => (readDigits t).map fun (digits, rest) => (e :: '-' :: digits, rest)
      | t => (readDigits t).map fun (digits, rest) => (e :: digits, rest)
    else
      some ([], e :: t)

/-- A numeral without a sign and what follows it. -/
def readUnsigned (t : Text) : Option (Text × Text) :=
  (readInteger t).bind fun (integer, t) =>
    (readFraction t).bind fun (fraction, t) =>
      (readExponent t).map fun (exponent, t) => (integer ++ fraction ++ exponent, t)

/-- A numeral and what follows it. -/
def readNumber : Text → Option (Text × Text)
  | '-' :: t => (readUnsigned t).map fun (numeral, rest) => ('-' :: numeral, rest)
  | t => readUnsigned t

/-- One or more items as `read` reads them, at most `count`, with commas between them, up to
the character `close`, and what follows that. -/
def readItems {α : Type} (read : Text → Option (α × Text)) (close : Char) :
    (count : Nat) → Text → Option (List α × Text)
  | 0, _ => none
  | count + 1, t =>
    match read t with
    | none => none
    | some (item, t) =>
      match skipBlanks t with
      | [] => none
      | c :: t =>
        if c = close then some ([item], t)
        else if c = ',' then
          (readItems read close count t).map fun (items, rest) => (item :: items, rest)
        else none

/-- Items as `read` reads them, with commas between them, up to the character `close`, and
what follows that. -/
def readList {α : Type} (read : Text → Option (α × Text)) (close : Char) (t : Text) :
    Option (List α × Text) :=
  match skipBlanks t with
  | [] => none
  | c :: rest => if c = close then some ([], rest) else readItems read close (rest.length + 1) t

/-- A name, a colon, a value as `read` reads it, and what follows that. -/
def readMember (read : Text → Option (Value × Text)) (t : Text) :
    Option ((Literal × Value) × Text) :=
  match skipBlanks t with
  | '"' :: t =>
    match readLiteral t with
    | none => none
    | some (name, t) =>
      match skipBlanks t with
      | ':' :: t => (read t).map fun (v, rest) => ((name, v), rest)
      | _ => none
  | _ => none

/-- A value with brackets and braces nested less than `depth` deep, and what follows it. -/
def readValue : (depth : Nat) → Text → Option (Value × Text)
  | 0, _ => none
  | depth + 1, t =>
    match skipBlanks t with
    | '"' :: t => (readLiteral t).map fun (literal, rest) => (.string literal, rest)
    | '[' :: t =>
      (readList (readValue depth) ']' t).map fun (items, rest) => (.array items, rest)
    | '{' :: t =>
      (readList (readMember (readValue depth)) '}' t).map fun (members, rest) =>
        (.object members, rest)
    | t =>
      match after? "null".toList t, after? "true".toList t, after? "false".toList t with
      | some t, _, _ => some (.null, t)
      | _, some t, _ => some (.boolean true, t)
      | _, _, some t => some (.boolean false, t)
      | _, _, _ => (readNumber t).map fun (numeral, rest) => (.number numeral, rest)

/-- The value that a whole text writes. -/
def Value.ofText? (t : Text) : Option Value :=
  match readValue (t.length + 1) t with
  | some (v, rest) => if (skipBlanks rest).isEmpty then some v else none
  | none => none

end Json
end BuildBlocks
