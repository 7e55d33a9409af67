import BuildBlocks.Text.Basic

/-!
# Blank characters

The characters with the Unicode property `White_Space`, and texts without the blanks at
their ends.  Every place of the library that skips or removes blanks uses this one class.
-/
namespace BuildBlocks.Text

/-- Whether the character is a blank: one of the twenty-five with the property `White_Space`. -/
def isBlank (c : Char) : Bool :=
  let n := c.toNat
  (0x9 ≤ n && n ≤ 0xD) || n == 0x20 || n == 0x85 || n == 0xA0 || n == 0x1680 ||
    (0x2000 ≤ n && n ≤ 0x200A) || n == 0x2028 || n == 0x2029 || n == 0x202F || n == 0x205F ||
    n == 0x3000

/-- The blanks that a text starts with. -/
def indentation (t : Text) : Text :=
  t.takeWhile isBlank

/-- The text without the blanks at its start. -/
def trimStart (t : Text) : Text :=
  t.dropWhile isBlank

/-- The text without the blanks at its end. -/
def trimEnd : Text → Text
  | [] => []
  | c :: t =>
    match trimEnd t with
    | [] => if isBlank c then [] else [c]
    | d :: rest => c :: d :: rest

/-- The text without the blanks at its ends. -/
def trim (t : Text) : Text :=
  trimEnd (trimStart t)

theorem indentation_append_trimStart (t : Text) : indentation t ++ trimStart t = t :=
  List.takeWhile_append_dropWhile

end BuildBlocks.Text
