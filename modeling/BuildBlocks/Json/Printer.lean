import BuildBlocks.Json.Value

/-!
# Writing JSON

Values are written over several lines, two blanks deeper for every level; empty arrays and
objects stay on one line.  In a string only the quote, the backslash and the control
characters below the blank are escaped.
-/
namespace BuildBlocks
open Text

namespace Json

/-- The lower-case hexadecimal digit of a number below sixteen. -/
def hexDigit (n : Nat) : Char :=
  Nat.digitChar n

/-- A character as it stands in a string literal. -/
def escape (c : Char) : Text :=
  if c = '"' then ['\\', '"']
  else if c = '\\' then ['\\', '\\']
  else if c.toNat = 8 then ['\\', 'b']
  else if c.toNat = 9 then ['\\', 't']
  else if c.toNat = 10 then ['\\', 'n']
  else if c.toNat = 12 then ['\\', 'f']
  else if c.toNat = 13 then ['\\', 'r']
  else if c.toNat < 32 then
    ['\\', 'u', '0', '0', hexDigit (c.toNat / 16), hexDigit (c.toNat % 16)]
  else [c]

/-- The string literal of a text. -/
def quote (t : Text) : Text :=
  '"' :: t.flatMap escape ++ ['"']

/-- A line break and the indentation of a level. -/
def newLine (level : Nat) : Text :=
  '\n' :: List.replicate (2 * level) ' '

mutual

/-- A value that starts on a line of the given level.  A literal without a text is written
as the empty one. -/
def render (level : Nat) : Value → Text
  | .null => "null".toList
  | .boolean b => if b then "true".toList else "false".toList
  | .number numeral => numeral
  | .string literal => quote (literal.getD [])
  | .array [] => "[]".toList
  | .array (v :: items) =>
    '[' :: newLine (level + 1) ++ render (level + 1) v ++ renderItems (level + 1) items ++
      newLine level ++ [']']
  | .object [] => "\x7b\x7d".toList
  | .object ((name, v) :: members) =>
    '{' :: newLine (level + 1) ++ quote (name.getD []) ++ ": ".toList ++ render (level + 1) v ++
      renderMembers (level + 1) members ++ newLine level ++ ['}']

/-- The items after the first one, each on a line of its own. -/
def renderItems (level : Nat) : List Value → Text
  | [] => []
  | v :: items => ',' :: newLine level ++ render level v ++ renderItems level items

/-- The members after the first one, each on a line of its own. -/
def renderMembers (level : Nat) : List (Literal × Value) → Text
  | [] => []
  | (name, v) :: members =>
    ',' :: newLine level ++ quote (name.getD []) ++ ": ".toList ++ render level v ++
      renderMembers level members

end

/-- A whole text that writes the value. -/
def Value.text (v : Value) : Text :=
  render 0 v

end Json
end BuildBlocks
