import BuildBlocks.Directive
import BuildBlocks.Line

/-!
# The segments of a document

Lines are grouped into passages, each opened by a directive line, and the plain lines
between them.  Passages do not nest: a directive line ends the passage before it, which
then lacks an end marker.  Grouping loses no line (`flatMap_lines_ofLines`).
-/
namespace BuildBlocks

/-- The lines of a build block in its document. -/
structure Passage where
  /-- The directive of the first line. -/
  directive : Directive
  /-- The directive line, the lines after it and, if there is one, the end marker line. -/
  lines : List Line
  /-- Whether the last line holds an end marker. -/
  terminated : Bool
  deriving DecidableEq, Repr

namespace Passage

/-- The passage that a directive is about to open. -/
def opened (d : Directive) : Passage :=
  ⟨d, [], false⟩

/-- The passage with one more line, which closes it when it holds an end marker. -/
def push (p : Passage) (l : Line) : Passage :=
  ⟨p.directive, p.lines ++ [l], Directive.isEndMarker l.text⟩

/-- Lines as they stand in the document, without the line break of the last one. -/
def joined : List Line → Text
  | [] => []
  | [l] => l.text
  | l :: m :: rest => l.source ++ joined (m :: rest)

/-- The passage as it stands in the document, without the line break that follows it. -/
def extent (p : Passage) : Text :=
  joined p.lines

/-- The passage as it stands in the document, with the line break that follows it. -/
def source (p : Passage) : Text :=
  p.lines.flatMap Line.source

end Passage

/-- A plain line or a whole passage. -/
inductive Segment where
  | plain (line : Line)
  | passage (p : Passage)
  deriving DecidableEq, Repr

namespace Segment

/-- The lines of a segment. -/
def lines : Segment → List Line
  | plain l => [l]
  | passage p => p.lines

/-- What a line does to the passage that is open before it: the passage that it abandons
and the one that takes it in.  A directive line abandons the open passage for its own. -/
def turn (current : Option Passage) (l : Line) : Option Passage × Option Passage :=
  match Directive.parse l.text with
  | some d => (current, some (.opened d))
  | none => (none, current)

/-- The segments of the lines that follow the open passage, if there is one. -/
def scan : Option Passage → List Line → List Segment
  | current, [] => (current.map passage).toList
  | current, l :: rest =>
    let (abandoned, taking) := turn current l
    (abandoned.map passage).toList ++
      match taking with
      | none => plain l :: scan none rest
      | some p =>
        if (p.push l).terminated then passage (p.push l) :: scan none rest
        else scan (some (p.push l)) rest

/-- The segments of a document's lines. -/
def ofLines (ls : List Line) : List Segment :=
  scan none ls

/-- The segments of a document. -/
def ofDocument (document : Text) : List Segment :=
  ofLines (Line.lines document)

theorem flatMap_lines_scan (current : Option Passage) (ls : List Line) :
    (scan current ls).flatMap lines = current.elim [] Passage.lines ++ ls := by
  induction ls generalizing current with
  | nil => cases current <;> simp [scan, lines]
  | cons l rest ih =>
    cases hd : Directive.parse l.text <;> cases current <;>
      by_cases hend : Directive.isEndMarker l.text <;>
        simp [scan, turn, Passage.push, Passage.opened, hd, hend, lines, ih]

theorem flatMap_lines_ofLines (ls : List Line) : (ofLines ls).flatMap lines = ls :=
  flatMap_lines_scan none ls

end Segment
end BuildBlocks
