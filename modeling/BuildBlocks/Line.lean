import BuildBlocks.Text.Basic

/-!
# The lines of a document

A document is read as lines, each with the line break that ends it.  Nothing is lost:
written one after the other the lines give the document back (`flatMap_source_lines`).
-/
namespace BuildBlocks

/-- The two kinds of line break. -/
inductive LineEnding where
  /-- A line feed. -/
  | lf
  /-- A carriage return and a line feed. -/
  | crlf
  deriving DecidableEq, Repr

namespace LineEnding

/-- The characters of a line break. -/
def text : LineEnding → Text
  | lf => ['\n']
  | crlf => ['\r', '\n']

/-- The line break with which text is put together again in a document: `crlf` as soon as
one line of the document ends so. -/
def detect (document : Text) : LineEnding :=
  if Text.holds crlf.text document then crlf else lf

end LineEnding

/-- A line of a document. -/
structure Line where
  /-- The characters of the line without its line break. -/
  text : Text
  /-- The line break, which only the last line of a document can lack. -/
  ending : Option LineEnding
  deriving DecidableEq, Repr

namespace Line

/-- The line as it stands in the document. -/
def source (l : Line) : Text :=
  l.text ++ (l.ending.elim [] LineEnding.text)

/-- The lines of a text in front of which the character `c`, not a line feed, is put. -/
def extend (c : Char) : List Line → List Line
  | [] => [⟨[c], none⟩]
  | l :: rest =>
    if c = '\r' ∧ l = ⟨[], some .lf⟩ then ⟨[], some .crlf⟩ :: rest
    else ⟨c :: l.text, l.ending⟩ :: rest

/-- The lines of a document.  A line feed ends a line, together with a carriage return
directly before it; the end of the document starts no further line. -/
def lines : Text → List Line
  | [] => []
  | c :: t => if c = '\n' then ⟨[], some .lf⟩ :: lines t else extend c (lines t)

theorem flatMap_source_extend (c : Char) (ls : List Line) :
    (extend c ls).flatMap source = c :: ls.flatMap source := by
  cases ls with
  | nil => simp [extend, source]
  | cons l rest =>
    rw [extend]
    split
    · rename_i h
      obtain ⟨rfl, rfl⟩ := h
      rfl
    · simp [source]

theorem flatMap_source_lines (document : Text) : (lines document).flatMap source = document := by
  induction document with
  | nil => rfl
  | cons c t ih =>
    rw [lines]
    split
    · rename_i h
      subst h
      rw [List.flatMap_cons, ih]
      rfl
    · rw [flatMap_source_extend, ih]

end Line
end BuildBlocks
