import BuildBlocks.Text.Blank
import BuildBlocks.Text.Letters

/-!
# Conditional comments

A stretch of markup that only some browsers read, from `<!--[if …]>` to `<![endif]-->`.
The condition stands on one line, apart from a line break directly after `[if`.
-/
namespace BuildBlocks
open Text

/-- The two ends of a conditional comment, as they are written. -/
structure ConditionalComment where
  /-- The opening comment with its condition. -/
  opener : Text
  /-- The closing comment. -/
  closer : Text
  deriving DecidableEq, Repr

namespace ConditionalComment

/-- The start of an opener, in lower case. -/
def lead : Text :=
  "<!--[if".toList

/-- The end of an opener. -/
def leadEnd : Text :=
  "]>".toList

/-- A closer, in lower case. -/
def closing : Text :=
  "<![endif]-->".toList

/-- The condition that the text starts with, up to and with the first `]>`, and what
follows it.  A condition holds no line feed. -/
def condition? (t : Text) : Option (Text × Text) :=
  match cut? leadEnd t with
  | some (condition, rest) =>
    if condition.contains '\n' then none else some (condition ++ leadEnd, rest)
  | none => none

/-- The conditional comment that the text starts with. -/
def at? (t : Text) : Option ConditionalComment :=
  match afterFolded? lead t with
  | some (written, blank :: rest) =>
    if isBlank blank then
      (condition? rest).bind fun (condition, rest) =>
        (search (afterFolded? closing) rest).map fun (_, closer, _) =>
          ⟨written ++ blank :: condition, closer⟩
    else
      none
  | _ => none

/-- The leftmost conditional comment of a text. -/
def find (t : Text) : Option ConditionalComment :=
  (search at? t).map Prod.snd

end ConditionalComment
end BuildBlocks
