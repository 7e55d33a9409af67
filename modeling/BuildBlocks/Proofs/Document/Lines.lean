import BuildBlocks.Line

/-! # Lines as the pieces between line feeds

`Line.lines` reads a document from its end, one character at a time.  Here the same lines
are described from the outside: cut the document at every line feed, drop one carriage
return at the end of each piece that a line feed follows, and count the last piece only
when it is not empty (`lines_eq_ofPieces`, and `map_text_lines` for the texts alone).
-/
namespace BuildBlocks

namespace Text

theorem splitOn_ne_nil (separator : Char) (t : Text) : splitOn separator t ≠ [] := by
  cases t with
  | nil => simp [splitOn]
  | cons c t =>
    rw [splitOn]
    split
    · simp
    · split <;> simp

/-- A character that does not separate joins the first piece of what follows it. -/
theorem splitOn_cons_of_ne {separator c : Char} (h : c ≠ separator) {t piece : Text}
    {pieces : List Text} (ht : splitOn separator t = piece :: pieces) :
    splitOn separator (c :: t) = (c :: piece) :: pieces := by
  rw [splitOn, if_neg h, ht]

/-- No piece holds the separator. -/
theorem not_mem_of_mem_splitOn {separator : Char} {t piece : Text}
    (h : piece ∈ splitOn separator t) : separator ∉ piece := by
  induction t generalizing piece with
  | nil =>
    rw [splitOn, List.mem_singleton] at h
    simp [h]
  | cons c t ih =>
    by_cases hc : c = separator
    · rw [splitOn, if_pos hc] at h
      rcases List.mem_cons.mp h with rfl | h
      · simp
      · exact ih h
    · obtain ⟨first, pieces, ht⟩ := List.exists_cons_of_ne_nil (splitOn_ne_nil separator t)
      rw [splitOn_cons_of_ne hc ht] at h
      rcases List.mem_cons.mp h with rfl | h
      · have hfirst : separator ∉ first := ih (by rw [ht]; exact List.mem_cons_self)
        simp [hfirst, Ne.symm hc]
      · exact ih (by rw [ht]; exact List.mem_cons_of_mem _ h)

/-- The text without a carriage return at its end. -/
def dropReturn (t : Text) : Text :=
  if t.getLast? = some '\r' then t.dropLast else t

end Text

namespace Line
open Text

/-- The line that a piece makes when a line feed follows it. -/
def ofPiece (piece : Text) : Line :=
  ⟨dropReturn piece, some (if piece.getLast? = some '\r' then .crlf else .lf)⟩

/-- The lines of a document that line feeds cut into the given pieces. -/
def ofPieces (pieces : List Text) : List Line :=
  pieces.dropLast.map ofPiece ++
    (pieces.getLast?.toList.filter fun last => !last.isEmpty).map fun last => ⟨last, none⟩

/-- The texts of a document's lines. -/
def texts (document : Text) : List Text :=
  let pieces := splitOn '\n' document
  pieces.dropLast.map dropReturn ++ pieces.getLast?.toList.filter fun last => !last.isEmpty

/-- A character in front of a piece stands in front of its line. -/
theorem extend_ofPiece (c : Char) (piece : Text) (rest : List Line) :
    extend c (ofPiece piece :: rest) = ofPiece (c :: piece) :: rest := by
  cases piece with
  | nil =>
    by_cases hc : c = '\r'
    · subst hc
      rfl
    · simp [extend, ofPiece, dropReturn, hc]
  | cons d piece =>
    have hlast : (c :: d :: piece).getLast? = (d :: piece).getLast? := List.getLast?_cons_cons
    by_cases hr : (d :: piece).getLast? = some '\r' <;>
      simp [extend, ofPiece, dropReturn, hlast, hr]

theorem lines_eq_ofPieces (document : Text) : lines document = ofPieces (splitOn '\n' document) := by
  induction document with
  | nil => rfl
  | cons c t ih =>
    obtain ⟨piece, pieces, ht⟩ := List.exists_cons_of_ne_nil (splitOn_ne_nil '\n' t)
    rw [ht] at ih
    by_cases hc : c = '\n'
    · -- the line feed makes a piece of its own, and that piece is empty
      rw [lines, if_pos hc, splitOn, if_pos hc, ih, ht]
      simp [ofPieces, ofPiece, dropReturn]
    · rw [lines, if_neg hc, ih, splitOn_cons_of_ne hc ht]
      -- only the last piece may have no line feed behind it
      cases pieces with
      | nil => cases piece <;> simp [ofPieces, extend]
      | cons next pieces =>
        simp only [ofPieces, List.dropLast_cons_cons, List.map_cons, List.cons_append,
          extend_ofPiece, List.getLast?_cons_cons]

/-- **The lines of a document are its pieces between line feeds**, without the carriage
returns in front of these. -/
theorem map_text_lines (document : Text) : (lines document).map text = texts document := by
  rw [lines_eq_ofPieces, ofPieces, texts, List.map_append, List.map_map, List.map_map]
  congr 1
  exact List.map_id _

/-- A carriage return counts only in front of a line feed. -/
example : texts "a\r\n\nb\r".toList = ["a".toList, [], "b\r".toList] := by decide

end Line
end BuildBlocks
