import BuildBlocks.Text.Digits

/-!
# Strings in TOML

A string is basic, with escapes, or literal, without; either may run over several lines.
Each reader here starts after the opening quotes and ends after the closing ones.
-/
namespace BuildBlocks
open Text

namespace Toml

/-- Whether the character may stand in a string or a comment: no control character but the
tab. -/
def isPrintable (c : Char) : Bool :=
  c == '\t' || (c.toNat ≥ 0x20 && c.toNat != 0x7F)

/-- The character whose number hexadecimal digits write, if there is such a character. -/
def hexCharacter? (digits : Text) : Option Char :=
  match numberOf? 16 digits with
  | some n => if n.isValidChar then some (Char.ofNat n) else none
  | none => none

/-- The character that a backslash and a letter write. -/
def escaped? : Char → Option Char
  | 'b' => some (Char.ofNat 8)
  | 't' => some '\t'
  | 'n' => some '\n'
  | 'f' => some (Char.ofNat 12)
  | 'r' => some '\r'
  | 'e' => some (Char.ofNat 27)
  | '"' => some '"'
  | '\\' => some '\\'
  | _ => none

/-- A string with the character `c` in front, when there is one. -/
def consCharacter (c : Option Char) (s : Option (Text × Text)) : Option (Text × Text) :=
  c.bind fun c => s.map fun (t, rest) => (c :: t, rest)

/-- A basic string on one line. -/
def readBasic : Text → Option (Text × Text)
  | [] => none
  | '"' :: t => some ([], t)
  | '\\' :: 'x' :: a :: b :: t => consCharacter (hexCharacter? [a, b]) (readBasic t)
  | '\\' :: 'u' :: a :: b :: c :: d :: t =>
    consCharacter (hexCharacter? [a, b, c, d]) (readBasic t)
  | '\\' :: 'U' :: a :: b :: c :: d :: e :: f :: g :: h :: t =>
    consCharacter (hexCharacter? [a, b, c, d, e, f, g, h]) (readBasic t)
  | '\\' :: e :: t => consCharacter (escaped? e) (readBasic t)
  | c :: t => if c ≠ '\\' ∧ isPrintable c then consCharacter (some c) (readBasic t) else none

/-- A literal string on one line. -/
def readLiteral : Text → Option (Text × Text)
  | [] => none
  | '\'' :: t => some ([], t)
  | c :: t => if isPrintable c then consCharacter (some c) (readLiteral t) else none

/-- Where the reader of a string over several lines stands. -/
inductive Place where
  /-- In the text. -/
  | inside
  /-- After a backslash that only blanks separate from the end of its line. -/
  | lineEnd
  /-- In the blanks and line breaks that such a backslash removes. -/
  | margin
  deriving DecidableEq, Repr

/-- A basic string over several lines.  Up to two quotes may stand directly before the
closing ones. -/
def readBasicLines : Place → Text → Option (Text × Text)
  | _, [] => none
  | .lineEnd, ' ' :: t => readBasicLines .lineEnd t
  | .lineEnd, '\t' :: t => readBasicLines .lineEnd t
  | .lineEnd, '\n' :: t => readBasicLines .margin t
  | .lineEnd, '\r' :: '\n' :: t => readBasicLines .margin t
  | .lineEnd, _ :: _ => none
  | .margin, ' ' :: t => readBasicLines .margin t
  | .margin, '\t' :: t => readBasicLines .margin t
  | .margin, '\n' :: t => readBasicLines .margin t
  | .margin, '\r' :: '\n' :: t => readBasicLines .margin t
  | _, '"' :: '"' :: '"' :: '"' :: '"' :: t => some (['"', '"'], t)
  | _, '"' :: '"' :: '"' :: '"' :: t => some (['"'], t)
  | _, '"' :: '"' :: '"' :: t => some ([], t)
  | _, '\\' :: 'x' :: a :: b :: t =>
    consCharacter (hexCharacter? [a, b]) (readBasicLines .inside t)
  | _, '\\' :: 'u' :: a :: b :: c :: d :: t =>
    consCharacter (hexCharacter? [a, b, c, d]) (readBasicLines .inside t)
  | _, '\\' :: 'U' :: a :: b :: c :: d :: e :: f :: g :: h :: t =>
    consCharacter (hexCharacter? [a, b, c, d, e, f, g, h]) (readBasicLines .inside t)
  | _, '\\' :: e :: t =>
    if e = ' ' ∨ e = '\t' ∨ e = '\n' ∨ e = '\r' then readBasicLines .lineEnd (e :: t)
    else consCharacter (escaped? e) (readBasicLines .inside t)
  | _, '\r' :: '\n' :: t =>
    consCharacter (some '\r') (consCharacter (some '\n') (readBasicLines .inside t))
  | _, c :: t =>
    if c = '\n' ∨ (c ≠ '\\' ∧ isPrintable c) then
      consCharacter (some c) (readBasicLines .inside t)
    else
      none

/-- A literal string over several lines.  Up to two quotes may stand directly before the
closing ones. -/
def readLiteralLines : Text → Option (Text × Text)
  | [] => none
  | '\'' :: '\'' :: '\'' :: '\'' :: '\'' :: t => some (['\'', '\''], t)
  | '\'' :: '\'' :: '\'' :: '\'' :: t => some (['\''], t)
  | '\'' :: '\'' :: '\'' :: t => some ([], t)
  | '\r' :: '\n' :: t => consCharacter (some '\r') (consCharacter (some '\n') (readLiteralLines t))
  | c :: t =>
    if c = '\n' ∨ isPrintable c then consCharacter (some c) (readLiteralLines t) else none

/-- The text without the line break that it may start with. -/
def dropLineBreak : Text → Text
  | '\n' :: t => t
  | '\r' :: '\n' :: t => t
  | t => t

/-- The string that the text starts with, on one line, and what follows it. -/
def readLineString : Text → Option (Text × Text)
  | '"' :: t => readBasic t
  | '\'' :: t => readLiteral t
  | _ => none

/-- The string of any kind that the text starts with, and what follows it. -/
def readString : Text → Option (Text × Text)
  | '"' :: '"' :: '"' :: t => readBasicLines .inside (dropLineBreak t)
  | '\'' :: '\'' :: '\'' :: t => readLiteralLines (dropLineBreak t)
  | t => readLineString t

end Toml
end BuildBlocks
