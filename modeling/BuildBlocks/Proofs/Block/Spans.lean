import BuildBlocks.Proofs.Block.Grouping
import BuildBlocks.Proofs.Document.Division
import BuildBlocks.Proofs.Rewrite.Frame

/-! # The spans of blocks

A block takes some neighbouring lines of its document (`exists_takes`), and its span says at
which bytes these stand.  Hence a span lies in the document on boundaries of characters, starts
with a line, and stops before the next one starts.  The main statement is `extract_spans`; it
also says that the splices of a transformation always apply.
-/
namespace BuildBlocks
open Text

/-- The block takes the lines `own` of a document, which come after the lines `earlier`. -/
structure Block.Takes (b : Block) (earlier own : List Line) : Prop where
  lines : b.lines = own.map Line.text
  /-- The first line of the block holds its directive. -/
  opening : ∃ l rest, own = l :: rest ∧ Directive.parse l.text = some b.directive
  lineNumber : b.lineNumber = earlier.length + 1
  span : b.span = ⟨byteLength (earlier.flatMap Line.source),
    byteLength (earlier.flatMap Line.source) + byteLength (Passage.joined own)⟩

/-- A part of a document is where a block stands: `before` comes before it, and it is
`extent`. -/
structure Block.StandsAt (b : Block) (document before extent : Text) : Prop where
  /-- The span lies inside the document, and no character is cut in two at its ends. -/
  inside : ∃ after, document = before ++ extent ++ after
  span : b.span = ⟨byteLength before, byteLength before + byteLength extent⟩
  /-- The span starts where a line starts. -/
  lineStart : before = [] ∨ before.getLast? = some '\n'
  /-- This line is the directive line. -/
  opening : ∃ line rest, b.lines = line :: rest ∧ Directive.parse line = some b.directive ∧
    line <+: extent
  /-- Lines are counted by the line feeds before them. -/
  lineNumber : b.lineNumber = 1 + before.count '\n'
  /-- The block is its text, up to the line breaks. -/
  text : unifyBreaks extent = b.text .lf

namespace Passage

/-- Lines as they stand in the document start with the first one. -/
theorem prefix_joined (l : Line) (ls : List Line) : l.text <+: joined (l :: ls) := by
  cases ls with
  | nil => exact List.prefix_refl l.text
  | cons m ls =>
    rw [joined, Line.source, List.append_assoc]
    exact List.prefix_append _ _

/-- The line break behind lines takes at least one byte. -/
theorem byteLength_joined_lt {ls : List Line} (hne : ls ≠ [])
    (hended : ∀ l ∈ ls, l.ending ≠ none) :
    byteLength (joined ls) < byteLength (ls.flatMap Line.source) := by
  induction ls with
  | nil => exact absurd rfl hne
  | cons l ls ih =>
    cases ls with
    | nil =>
      rw [joined, List.flatMap_singleton, Line.source, byteLength_append]
      cases he : l.ending with
      | none => exact absurd he (hended l List.mem_cons_self)
      | some ending => cases ending <;> simp [LineEnding.text, Char.utf8Size]
    | cons m ls =>
      have := ih (List.cons_ne_nil m ls) fun n hn => hended n (List.mem_cons_of_mem _ hn)
      rw [joined, List.flatMap_cons, byteLength_append, byteLength_append]
      omega

end Passage

namespace BlockTable

/-- Every block of segments that come after some lines takes lines of theirs. -/
theorem takes_of_mem_ofSegments {segs : List Segment} (hsegs : ∀ s ∈ segs, s.WellFormed)
    {b : Block} :
    ∀ (start : List Line) (naming : Naming),
      b ∈ ofSegments (byteLength (start.flatMap Line.source)) (start.length + 1) naming segs →
      ∃ earlier own later, start ++ segs.flatMap Segment.lines = earlier ++ own ++ later ∧
        b.Takes earlier own := by
  induction segs with
  | nil => exact fun start naming hb => absurd hb List.not_mem_nil
  | cons s segs ih =>
    intro start naming hb
    have hrest := ih (fun t ht => hsegs t (List.mem_cons_of_mem _ ht)) (start ++ s.lines)
    rw [List.flatMap_append, byteLength_append, List.length_append, List.append_assoc] at hrest
    rw [List.flatMap_cons]
    cases hsegs s List.mem_cons_self with
    | plain h =>
      refine hrest naming ?_
      rw [ofSegments] at hb
      simpa [Segment.lines, Nat.add_right_comm] using hb
    | @passage p h =>
      rw [ofSegments_passage] at hb
      rcases List.mem_cons.mp hb with rfl | hb
      · obtain ⟨l, rest, hlines, hdirective, _⟩ := h.opening
        exact ⟨start, p.lines, segs.flatMap Segment.lines, (List.append_assoc ..).symm,
          rfl, ⟨l, rest, hlines, hdirective⟩, rfl, rfl⟩
      · refine hrest (naming.assign p.directive).2 ?_
        rw [Nat.add_right_comm]
        exact hb

/-- Every block takes lines of its document. -/
theorem exists_takes {document : Text} {b : Block} (hb : b ∈ (extract document).blocks) :
    ∃ earlier own later, Line.lines document = earlier ++ own ++ later ∧ b.Takes earlier own := by
  have h := takes_of_mem_ofSegments (fun _ => Segment.wellFormed_ofDocument) [] .initial hb
  rwa [List.nil_append, Segment.flatMap_lines_ofDocument] at h

/-- No line of a block is broken. -/
theorem not_mem_of_mem_lines {document : Text} {b : Block} (hb : b ∈ (extract document).blocks)
    {line : Text} (hline : line ∈ b.lines) : '\n' ∉ line := by
  obtain ⟨earlier, own, later, hlines, htakes⟩ := exists_takes hb
  rw [htakes.lines] at hline
  obtain ⟨l, hl, rfl⟩ := List.mem_map.mp hline
  refine ((Line.divided_lines document).whole l ?_).unbroken
  rw [hlines]
  exact List.mem_append_left _ (List.mem_append_right _ hl)

theorem not_mem_of_mem_innerLines {document : Text} {b : Block}
    (hb : b ∈ (extract document).blocks) {line : Text} (hline : line ∈ b.innerLines) :
    '\n' ∉ line :=
  not_mem_of_mem_lines hb (List.mem_of_mem_tail (List.mem_of_mem_dropLast hline))

end BlockTable

/-- A block stands in the document where its lines do. -/
theorem Block.Takes.standsAt {b : Block} {earlier own later : List Line} (h : b.Takes earlier own)
    (hdivided : Line.Divided (earlier ++ own ++ later)) :
    b.StandsAt ((earlier ++ own ++ later).flatMap Line.source) (earlier.flatMap Line.source)
      (Passage.joined own) := by
  obtain ⟨l, rest, hown, hdirective⟩ := h.opening
  obtain ⟨behind, hsource⟩ : ∃ behind, own.flatMap Line.source = Passage.joined own ++ behind :=
    ⟨_, Passage.source_eq_extent_append ⟨b.directive, own, b.terminated⟩⟩
  -- the lines before the block have line breaks, since it follows them
  rw [List.append_assoc] at hdivided
  have hended : ∀ m ∈ earlier, m.ending ≠ none :=
    hdivided.ended_of_append (by rw [hown]; exact List.cons_ne_nil _ _)
  have hwhole : ∀ m ∈ earlier, m.Whole := fun m hm =>
    hdivided.whole m (List.mem_append_left _ hm)
  have hpart : Line.Divided own := by
    refine ⟨fun m hm => hdivided.whole m ?_, ?_⟩
    · exact List.mem_append_right _ (List.mem_append_left _ hm)
    · exact hdivided.ended.sublist
        ((List.sublist_append_left own later).trans (List.sublist_append_right earlier _))
  refine ⟨⟨behind ++ later.flatMap Line.source, ?_⟩, h.span, ?_, ?_, ?_, ?_⟩
  · rw [List.flatMap_append, List.flatMap_append, hsource]
    simp only [List.append_assoc]
  · by_cases hnil : earlier = []
    · exact .inl (by rw [hnil]; rfl)
    · exact .inr (Line.getLast?_flatMap_source hended hnil)
  · refine ⟨l.text, rest.map Line.text, ?_, hdirective, ?_⟩
    · rw [h.lines, hown, List.map_cons]
    · rw [hown]
      exact Passage.prefix_joined l rest
  · rw [h.lineNumber, Line.count_flatMap_source hwhole hended, Nat.add_comm]
  · rw [Line.unifyBreaks_joined hpart, Block.text, h.lines]

/-- The part of the document that a span takes is where the block stands. -/
theorem Block.StandsAt.slice? {b : Block} {document before extent : Text}
    (h : b.StandsAt document before extent) : document.slice? b.span = some extent := by
  obtain ⟨after, hafter⟩ := h.inside
  rw [h.span, hafter]
  exact slice?_append before extent after

namespace BlockTable

theorem exists_standsAt {document : Text} {b : Block} (hb : b ∈ (extract document).blocks) :
    ∃ before extent, b.StandsAt document before extent := by
  obtain ⟨earlier, own, later, hlines, htakes⟩ := exists_takes hb
  have hstands := htakes.standsAt (hlines ▸ Line.divided_lines document)
  rw [← hlines, Line.flatMap_source_lines] at hstands
  exact ⟨_, _, hstands⟩

/-- When the lines of segments are divided, every block stops before the next one starts. -/
theorem pairwise_stop_lt_start {segs : List Segment} (hsegs : ∀ s ∈ segs, s.WellFormed)
    (hdivided : Line.Divided (segs.flatMap Segment.lines)) (offset number : Nat)
    (naming : Naming) :
    (ofSegments offset number naming segs).Pairwise fun a b => a.span.stop < b.span.start := by
  induction segs generalizing offset number naming with
  | nil => exact List.Pairwise.nil
  | cons s segs ih =>
    have hrest : ∀ t ∈ segs, t.WellFormed := fun t ht => hsegs t (List.mem_cons_of_mem _ ht)
    rw [List.flatMap_cons] at hdivided
    have hlater : Line.Divided (segs.flatMap Segment.lines) := hdivided.right
    cases hsegs s List.mem_cons_self with
    | plain h => exact ih hrest hlater _ _ _
    | @passage p h =>
      rw [ofSegments_passage]
      refine List.pairwise_cons.mpr ⟨fun b hb => ?_, ih hrest hlater _ _ _⟩
      have hstart := start_le_of_mem_ofSegments hb
      -- a block comes after the passage, so lines come after those of the passage
      have hmore : segs.flatMap Segment.lines ≠ [] := by
        refine Segment.flatMap_lines_ne_nil hrest ?_
        rintro rfl
        exact absurd hb List.not_mem_nil
      have hlt : byteLength p.extent < byteLength p.source :=
        Passage.byteLength_joined_lt h.lines_ne_nil (hdivided.ended_of_append hmore)
      show offset + byteLength p.extent < b.span.start
      omega

/-- **Spans are where blocks stand.**  Every block, closed or not, stands in the document at the
bytes of its span, and stops before the next one starts; the splices of a transformation
therefore always apply. -/
theorem extract_spans (document : Text) :
    let t := extract document
    (∀ b ∈ t.blocks, ∃ before extent, b.StandsAt document before extent ∧
        document.slice? b.span = some extent) ∧
      t.blocks.Pairwise (fun a b => a.span.stop < b.span.start) ∧
      ∀ o, ∃ content, Splice.apply (t.splices o) document = some content ∧
        (transform document o).content = content := by
  intro t
  refine ⟨fun b hb => ?_, ?_, fun o => ?_⟩
  · obtain ⟨before, extent, hstands⟩ := exists_standsAt hb
    exact ⟨before, extent, hstands, hstands.slice?⟩
  · refine pairwise_stop_lt_start (fun _ => Segment.wellFormed_ofDocument) ?_ 0 1 .initial
    rw [Segment.flatMap_lines_ofDocument]
    exact Line.divided_lines document
  · obtain ⟨cuts, tail, hsource, hplaced, hsplices⟩ := exists_cuts_splices document o
    have happly : Splice.apply (t.splices o) document = some (Cut.results cuts ++ tail) := by
      rw [← hsplices, hsource]
      exact Cut.apply_cuts tail hplaced
    refine ⟨_, happly, ?_⟩
    show (Splice.apply (t.splices o) document).getD document = _
    rw [happly, Option.getD_some]

/-- A document with line breaks of both kinds, carriage returns that belong to neither, and
characters of two bytes. -/
def mixed : Text :=
  ("é\r\n" ++
    "<!-- build:js -->\r\n" ++
    "<!-- build:css ü.css -->\n" ++
    "<link href='a.css'>\r\r\n" ++
    "<!-- endbuild -->\r").toList

/-- The closed block of `mixed`. -/
def mixedBlock : Block where
  key := ⟨"css".toList, some "ü.css".toList, none, none⟩
  directive := ⟨"css".toList, none, some "ü.css".toList, none⟩
  lines := ["<!-- build:css ü.css -->".toList, "<link href='a.css'>\r".toList,
    "<!-- endbuild -->\r".toList]
  span := ⟨23, 89⟩
  lineNumber := 3
  terminated := true

theorem standsAt_mixedBlock :
    mixedBlock ∈ (extract mixed).blocks ∧ ∃ before extent, mixedBlock.StandsAt mixed before extent ∧
      mixed.slice? ⟨23, 89⟩ = some extent := by
  have hb : mixedBlock ∈ (extract mixed).blocks := by decide +kernel
  exact ⟨hb, (extract_spans mixed).1 mixedBlock hb⟩

end BlockTable
end BuildBlocks
