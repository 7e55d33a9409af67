import BuildBlocks.Log.Pattern.Mode
import BuildBlocks.Text.Digits

/-!
# Escapes in patterns

A backslash gives characters a meaning or takes it from them: it writes a character by its
number, names a class, sets a condition on the place, or lets a sign stand for itself.
-/
namespace BuildBlocks
open Text

namespace Log.Pattern

/-- What a character or an escape stands for. -/
inductive Atom where
  | character (c : Char)
  /-- One of many characters. -/
  | set
  /-- A condition on the place. -/
  | assertion
  deriving DecidableEq, Repr

/-- The character of a number. -/
def characterOf? (n : Nat) : Option Char :=
  if n.isValidChar then some (Char.ofNat n) else none

/-- The number that `count` more hexadecimal digits write behind those of `n`, and what
follows them. -/
def readHex? (m : Mode) : (count : Nat) → (n : Nat) → Text → Option (Nat × Text)
  | 0, n, t => some (n, t)
  | count + 1, n, t =>
    match m.skip t with
    | [] => none
    | c :: rest => (hexValue? c).bind fun value => readHex? m count (16 * n + value) rest

/-- The letters of the general categories that have names of one letter. -/
def categoryLetters : Text :=
  "clmnpsz".toList

/-- The characters that letters behind a backslash stand for. -/
def control? : Char → Option Char
  | 'a' => some '\x07'
  | 'f' => some '\x0c'
  | 't' => some '\t'
  | 'n' => some '\n'
  | 'r' => some '\r'
  | 'v' => some '\x0b'
  | _ => none

/-- What stands behind a backslash, and what follows it.  Words are not delimited in Unicode;
outside it no escape stands for anything beyond ASCII. -/
def readEscape? (m : Mode) : Text → Option (Atom × Text)
  | [] => none
  | 'x' :: t =>
    (readHex? m 2 0 t).bind fun (n, rest) =>
      if m.unicode || n < 128 then (characterOf? n).map fun c => (.character c, rest) else none
  | 'u' :: t =>
    (readHex? m 4 0 t).bind fun (n, rest) => (characterOf? n).map fun c => (.character c, rest)
  | 'U' :: t =>
    (readHex? m 8 0 t).bind fun (n, rest) => (characterOf? n).map fun c => (.character c, rest)
  | c :: t =>
    if c = 'p' ∨ c = 'P' then
      match m.skip t with
      | letter :: rest =>
        if m.unicode && categoryLetters.contains letter.toLower then some (.set, rest) else none
      | [] => none
    else if "dsw".toList.contains c || ("DSW".toList.contains c && m.unicode) then some (.set, t)
    else if "Az".toList.contains c || ("bB<>".toList.contains c && !m.unicode) then
      some (.assertion, t)
    else if (control? c).isSome then (control? c).map fun c => (.character c, t)
    else if c.toNat < 128 && !c.isAlphanum && c != '<' && c != '>' then some (.character c, t)
    else none

end Log.Pattern
end BuildBlocks
