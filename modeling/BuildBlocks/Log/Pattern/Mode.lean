import BuildBlocks.Text.Blank

/-!
# How patterns are read

Flags in a pattern change how the rest of a group is read.  Two of them matter for whether a
text is a pattern: one lets blanks and comments stand between the parts, the other says
whether classes are those of Unicode.
-/
namespace BuildBlocks
open Text

namespace Log.Pattern

/-- How a part of a pattern is read. -/
structure Mode where
  /-- Whether blanks and comments stand between the parts and mean nothing. -/
  verbose : Bool
  /-- Whether classes are classes of Unicode; otherwise they are classes of ASCII. -/
  unicode : Bool
  deriving DecidableEq, Repr

namespace Mode

/-- The mode in which a pattern starts. -/
def initial : Mode :=
  ⟨false, true⟩

/-- The flags that have a meaning, and the sign behind which they are switched off. -/
def flags : Text :=
  "imsUuRx-".toList

/-- Whether a text is a list of flags: none stands twice, and the sign does not stand last. -/
def areFlags (t : Text) : Bool :=
  t.all flags.contains && t.Nodup && t.getLast? != some '-'

/-- The mode after flags. -/
def switch (m : Mode) (t : Text) : Mode :=
  let on := t.takeWhile (· != '-')
  let off := t.dropWhile (· != '-')
  ⟨on.contains 'x' || (m.verbose && !off.contains 'x'),
    on.contains 'u' || (m.unicode && !off.contains 'u')⟩

/-- The text without the blanks and comments it starts with; `inComment` says whether it starts
inside a comment. -/
def skipFiller : (inComment : Bool) → Text → Text
  | _, [] => []
  | true, c :: t => skipFiller (c != '\n') t
  | false, c :: t =>
    if isBlank c then skipFiller false t else if c = '#' then skipFiller true t else c :: t

/-- The text from the next part of the pattern on. -/
def skip (m : Mode) (t : Text) : Text :=
  if m.verbose then skipFiller false t else t

/-- The next character that is no blank.  A comment is looked into, not passed over. -/
def peek? (m : Mode) (t : Text) : Option Char :=
  if m.verbose then
    match t.dropWhile isBlank with
    | '#' :: t => (t.dropWhile isBlank).head?
    | t => t.head?
  else
    t.head?

end Mode
end Log.Pattern
end BuildBlocks
