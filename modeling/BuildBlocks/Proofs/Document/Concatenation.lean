import BuildBlocks.Proofs.Block.Naming
import BuildBlocks.Proofs.Document.Division
import BuildBlocks.Proofs.Block.Extraction
import BuildBlocks.Proofs.Text.Mark

/-! # Documents that are put together

Behind a line break a document starts anew: its lines come after those of the document in front
of it (`lines_append`), and a text without line feeds stands on one line with the end of the text
in front of it (`exists_mem_texts_append`).  The walk over lines hands nothing on to later lines
but the passage that is open (`exists_scan_append`), so when no block is open at the end of the
first document, the segments of the two come after each other (`ofDocument_append`).  What the
blocks of the first one leave to those of the second are a place, a line number and the keys that
are taken (`ofSegments_append`).
-/
namespace BuildBlocks
open Text

/-! ## Lines -/

namespace Line
variable {first second : Text}

/-- A document that is empty or ends with a line feed breaks no line of what comes behind it. -/
theorem lines_append (hline : first = [] ∨ first.getLast? = some '\n') (second : Text) :
    lines (first ++ second) = lines first ++ lines second := by
  have hended : ∀ l ∈ lines first, l.ending ≠ none := by
    rcases hline with rfl | hline
    · exact fun l hl => absurd hl List.not_mem_nil
    · exact ended_lines hline
  have hdivided : Divided (lines first ++ lines second) :=
    (divided_lines first).append (divided_lines second) fun _ => hended
  have hsource : (lines first ++ lines second).flatMap source = first ++ second := by
    rw [List.flatMap_append, flatMap_source_lines, flatMap_source_lines]
  rw [← hsource]
  exact lines_flatMap_source hdivided

/-- Two documents with line breaks of one kind make a document with such line breaks. -/
theorem detect_append (hline : first = [] ∨ first.getLast? = some '\n')
    (hending : LineEnding.detect second = LineEnding.detect first) :
    LineEnding.detect (first ++ second) = LineEnding.detect first := by
  have hholds : holds LineEnding.crlf.text (first ++ second) = true ↔
      holds LineEnding.crlf.text first = true ∨ holds LineEnding.crlf.text second = true := by
    simp only [holds_crlf_iff, lines_append hline, List.mem_append]
    constructor
    · rintro ⟨l, hl | hl, he⟩
      · exact .inl ⟨l, hl, he⟩
      · exact .inr ⟨l, hl, he⟩
    · rintro (⟨l, hl, he⟩ | ⟨l, hl, he⟩)
      · exact ⟨l, .inl hl, he⟩
      · exact ⟨l, .inr hl, he⟩
  simp only [LineEnding.detect] at hending ⊢
  by_cases hfirst : holds LineEnding.crlf.text first = true
  · rw [if_pos (hholds.mpr (.inl hfirst)), if_pos hfirst]
  · have hsecond : ¬ holds LineEnding.crlf.text second = true := by
      intro h
      rw [if_pos h, if_neg hfirst] at hending
      cases hending
    rw [if_neg fun h => (hholds.mp h).elim hfirst hsecond, if_neg hfirst]

end Line

/-! ## The last line of a text -/

namespace Text
variable {t u : Text}

/-- What stands behind the last line feed of a text. -/
def lastLine (t : Text) : Text :=
  match cutLast? ['\n'] t with
  | some (_, rest) => rest
  | none => t

/-- The last line of a text is the end of it that holds no line feed and follows one. -/
theorem lastLine_append (ht : t = [] ∨ t.getLast? = some '\n') (hu : '\n' ∉ u) :
    lastLine (t ++ u) = u := by
  rw [lastLine]
  rcases ht with rfl | ht
  · have hnone : cutLast? ['\n'] u = none := by
      rwa [← Option.not_isSome_iff_eq_none, isSome_cutLast?_iff, List.singleton_infix_iff]
    rw [List.nil_append, hnone]
  · obtain ⟨before, rfl⟩ := List.getLast?_eq_some_iff.mp ht
    have hsome : cutLast? ['\n'] (before ++ ['\n'] ++ u) = some (before, u) :=
      (cutLast?_eq_some_iff rfl).mpr
        ⟨List.append_assoc .., by rwa [List.nil_append, List.singleton_infix_iff]⟩
    rw [hsome]

theorem exists_append_lastLine (t : Text) :
    ∃ earlier, t = earlier ++ lastLine t ∧ (earlier = [] ∨ earlier.getLast? = some '\n') ∧
      '\n' ∉ lastLine t := by
  rw [lastLine]
  split
  · rename_i before rest hcut
    obtain ⟨rfl, hrest⟩ := (cutLast?_eq_some_iff rfl).mp hcut
    refine ⟨before ++ ['\n'], (List.append_assoc ..).symm, .inr (by simp), ?_⟩
    rwa [List.nil_append, List.singleton_infix_iff] at hrest
  · rename_i hnone
    rw [← Option.not_isSome_iff_eq_none, isSome_cutLast?_iff, List.singleton_infix_iff] at hnone
    exact ⟨[], rfl, .inl rfl, hnone⟩

end Text

namespace Line
variable {t : Text}

/-- A text that does not end with a carriage return keeps its place in front of others. -/
theorem prefix_dropReturn_append (ht : t.getLast? ≠ some '\r') (u : Text) :
    t <+: dropReturn (t ++ u) := by
  rw [dropReturn]
  split
  · rename_i hreturn
    have hu : u ≠ [] := by
      rintro rfl
      exact ht (by rwa [List.append_nil] at hreturn)
    rw [List.dropLast_append_of_ne_nil hu]
    exact List.prefix_append _ _
  · exact List.prefix_append _ _

/-- The first line of a text starts as the text does. -/
theorem exists_mem_texts (ht : '\n' ∉ t) (hne : t ≠ []) (hlast : t.getLast? ≠ some '\r')
    (u : Text) : ∃ rest, t ++ rest ∈ texts (t ++ u) := by
  by_cases hu : '\n' ∈ u
  · obtain ⟨line, later, rfl, hline⟩ := List.eq_append_cons_of_mem hu
    have hpiece : '\n' ∉ t ++ line := by simp [ht, hline]
    obtain ⟨rest, hrest⟩ := prefix_dropReturn_append hlast line
    refine ⟨rest, ?_⟩
    rw [← map_text_lines, ← List.append_assoc, lines_piece_append hpiece, hrest]
    exact List.mem_cons_self
  · refine ⟨u, ?_⟩
    rw [texts, splitOn_of_not_mem (by simp [ht, hu])]
    simp [hne]

/-- A text stands on one line with the last line of the text in front of it. -/
theorem exists_mem_texts_append (ht : '\n' ∉ t) (hne : t ≠ []) (hlast : t.getLast? ≠ some '\r')
    (before after : Text) :
    ∃ rest, lastLine before ++ (t ++ rest) ∈ texts (before ++ (t ++ after)) := by
  obtain ⟨earlier, hsource, hearlier, hline⟩ := exists_append_lastLine before
  obtain ⟨rest, hrest⟩ := exists_mem_texts (t := lastLine before ++ t) (by simp [hline, ht])
    (by simp [hne]) (by rwa [List.getLast?_append_of_ne_nil _ hne]) after
  rw [List.append_assoc, List.append_assoc] at hrest
  have htexts : texts ((earlier ++ lastLine before) ++ (t ++ after)) =
      texts earlier ++ texts (lastLine before ++ (t ++ after)) := by
    rw [List.append_assoc, ← map_text_lines, ← map_text_lines, ← map_text_lines,
      lines_append hearlier, List.map_append]
  rw [← hsource] at htexts
  refine ⟨rest, ?_⟩
  rw [htexts]
  exact List.mem_append_right _ hrest

end Line

/-! ## Segments -/

namespace Segment
variable {current : Option Passage} {ls : List Line} {p : Passage}

/-- The passage that is open behind lines, when `current` is open in front of them. -/
def openAfter : Option Passage → List Line → Option Passage
  | current, [] => current
  | current, l :: rest =>
    match (turn current l).2 with
    | none => openAfter none rest
    | some p => openAfter (if (p.push l).terminated then none else some (p.push l)) rest

/-- Lines make segments that stay, whatever lines follow, and the passage that is open behind
them goes on. -/
theorem exists_scan_append (current : Option Passage) (ls : List Line) :
    ∃ settled, scan current ls = settled ++ ((openAfter current ls).map passage).toList ∧
      ∀ later, scan current (ls ++ later) = settled ++ scan (openAfter current ls) later := by
  induction ls generalizing current with
  | nil => exact ⟨[], rfl, fun _ => rfl⟩
  | cons l ls ih =>
    cases htaking : (turn current l).2 with
    | none =>
      obtain ⟨settled, hscan, happend⟩ := ih none
      refine ⟨((turn current l).1.map passage).toList ++ plain l :: settled, ?_, fun later => ?_⟩
      · simp [scan, openAfter, htaking, hscan]
      · simp [scan, openAfter, htaking, happend]
    | some p =>
      cases ht : (p.push l).terminated with
      | true =>
        obtain ⟨settled, hscan, happend⟩ := ih none
        refine ⟨((turn current l).1.map passage).toList ++ passage (p.push l) :: settled, ?_,
          fun later => ?_⟩
        · simp [scan, openAfter, htaking, ht, hscan]
        · simp [scan, openAfter, htaking, ht, happend]
      | false =>
        obtain ⟨settled, hscan, happend⟩ := ih (some (p.push l))
        refine ⟨((turn current l).1.map passage).toList ++ settled, ?_, fun later => ?_⟩
        · simp [scan, openAfter, htaking, ht, hscan]
        · simp [scan, openAfter, htaking, ht, happend]

/-- When no passage is left open, the lines that follow are grouped as if they stood alone. -/
theorem scan_append (h : openAfter current ls = none) (later : List Line) :
    scan current (ls ++ later) = scan current ls ++ scan none later := by
  obtain ⟨settled, hscan, happend⟩ := exists_scan_append current ls
  rw [happend, hscan, h]
  simp

/-- The directive of a passage. -/
def directive? : Segment → Option Directive
  | plain _ => none
  | passage p => some p.directive

end Segment

/-! ## Blocks -/

namespace BlockTable
open Extraction

/-- The end of the document finds a block open: the last one, as every other block is closed or
abandoned by then. -/
def endsOpen (t : BlockTable) : Bool :=
  t.blocks.getLast?.any fun b => !b.terminated

/-- Blocks come after each other as their segments do. -/
theorem ofSegments_append (offset number : Nat) (naming : Naming) (segs later : List Segment) :
    ofSegments offset number naming (segs ++ later) =
      ofSegments offset number naming segs ++
        ofSegments (offset + byteLength (segs.flatMap Segment.source))
          (number + (segs.flatMap Segment.lines).length)
          (naming.after (segs.filterMap Segment.directive?)) later := by
  induction segs generalizing offset number naming with
  | nil => rfl
  | cons s segs ih =>
    rw [List.cons_append, List.flatMap_cons, List.flatMap_cons, byteLength_append,
      List.length_append, ← Nat.add_assoc, ← Nat.add_assoc]
    cases s with
    | plain l =>
      rw [ofSegments, ih, ofSegments, Segment.source_plain]
      rfl
    | passage p =>
      rw [ofSegments_passage, ih, ofSegments_passage, List.cons_append]
      rfl

/-- So do rewritten segments. -/
theorem rewritten_append (chosen : Block → Option Text) (offset number : Nat) (naming : Naming)
    (segs later : List Segment) :
    rewritten chosen offset number naming (segs ++ later) =
      rewritten chosen offset number naming segs ++
        rewritten chosen (offset + byteLength (segs.flatMap Segment.source))
          (number + (segs.flatMap Segment.lines).length)
          (naming.after (segs.filterMap Segment.directive?)) later := by
  induction segs generalizing offset number naming with
  | nil => rfl
  | cons s segs ih =>
    rw [List.cons_append, List.flatMap_cons, List.flatMap_cons, byteLength_append,
      List.length_append, ← Nat.add_assoc, ← Nat.add_assoc]
    cases s with
    | plain l =>
      rw [rewritten, ih, rewritten, Segment.source_plain]
      rfl
    | passage p =>
      rw [rewritten, ih, rewritten, List.append_assoc]
      rfl

/-! ## The block that is open at the end -/

/-- A passage that is open in front of lines makes a block. -/
theorem ofSegments_scan_some_ne_nil (q : Passage) (ls : List Line) (offset number : Nat)
    (naming : Naming) : ofSegments offset number naming (Segment.scan (some q) ls) ≠ [] := by
  induction ls generalizing q offset number naming with
  | nil => exact List.cons_ne_nil _ _
  | cons l ls ih =>
    cases hd : Directive.parse l.text with
    | none =>
      rw [scan_some_cons hd, resume]
      split
      · exact List.cons_ne_nil _ _
      · exact ih _ _ _ _
    | some d =>
      rw [scan_cons_of_opens hd]
      exact List.cons_ne_nil _ _

theorem any_getLast?_cons (p : Block → Bool) (b : Block) {bs : List Block}
    (h : bs = [] → p b = false) : (b :: bs).getLast?.any p = bs.getLast?.any p := by
  cases bs with
  | nil => exact h rfl
  | cons c bs => rw [List.getLast?_cons_cons]

/-- The last block is open exactly when the walk over the lines leaves a passage open. -/
theorem any_getLast?_scan (ls : List Line) (current : Option Passage)
    (hcurrent : ∀ q, current = some q → q.terminated = false) (offset number : Nat)
    (naming : Naming) :
    ((ofSegments offset number naming (Segment.scan current ls)).getLast?.any
      fun b => !b.terminated) = (Segment.openAfter current ls).isSome := by
  induction ls generalizing current offset number naming with
  | nil =>
    cases current with
    | none => rfl
    | some q =>
      show (!q.terminated) = true
      rw [hcurrent q rfl]
      rfl
  | cons l ls ih =>
    have hidle := ih none fun q hq => by cases hq
    -- what comes behind a passage that has just taken in the line
    have hresume : ∀ (q : Passage) (offset number : Nat) (naming : Naming),
        ((ofSegments offset number naming (resume q ls)).getLast?.any fun b => !b.terminated) =
          (Segment.openAfter (if q.terminated then none else some q) ls).isSome ∧
        ofSegments offset number naming (resume q ls) ≠ [] := by
      intro q offset number naming
      cases ht : q.terminated with
      | true =>
        rw [resume, if_pos ht, if_pos rfl, ofSegments_passage,
          any_getLast?_cons _ _ fun _ => by simp [ht], hidle]
        exact ⟨rfl, List.cons_ne_nil _ _⟩
      | false =>
        rw [resume, if_neg (by simp [ht]), if_neg Bool.false_ne_true]
        refine ⟨ih (some q) (fun r hr => ?_) _ _ _, ofSegments_scan_some_ne_nil q ls _ _ _⟩
        rw [← Option.some.inj hr, ht]
    cases hd : Directive.parse l.text with
    | none =>
      cases current with
      | none =>
        rw [scan_none_cons hd, ofSegments, hidle]
        simp [Segment.openAfter, Segment.turn, hd]
      | some q =>
        rw [scan_some_cons hd, (hresume _ _ _ _).1]
        simp [Segment.openAfter, Segment.turn, hd]
    | some d =>
      have hopen : Segment.openAfter current (l :: ls) =
          Segment.openAfter (if ((Passage.opened d).push l).terminated then none
            else some ((Passage.opened d).push l)) ls := by
        simp [Segment.openAfter, Segment.turn, hd]
      rw [scan_cons_of_opens hd, hopen]
      cases current with
      | none => exact (hresume _ _ _ _).1
      | some q =>
        -- the passage that the line abandons is not the last one
        rw [Option.map_some, Option.toList_some, List.singleton_append, ofSegments_passage,
          any_getLast?_cons _ _ fun hnil => absurd hnil (hresume _ _ _ _).2]
        exact (hresume _ _ _ _).1

theorem endsOpen_extract (document : Text) :
    (extract document).endsOpen = (Segment.openAfter none (Line.lines document)).isSome :=
  any_getLast?_scan (Line.lines document) none (fun q hq => by cases hq) 0 1 .initial

end BlockTable

/-- Behind a document that leaves no block open the segments of another one stay what they are. -/
theorem Segment.ofDocument_append {first : Text} (hline : first = [] ∨ first.getLast? = some '\n')
    (hclosed : (BlockTable.extract first).endsOpen = false) (second : Text) :
    ofDocument (first ++ second) = ofDocument first ++ ofDocument second := by
  rw [BlockTable.endsOpen_extract, Option.isSome_eq_false_iff, Option.isNone_iff_eq_none] at hclosed
  rw [ofDocument, Line.lines_append hline]
  exact scan_append hclosed (Line.lines second)

end BuildBlocks
