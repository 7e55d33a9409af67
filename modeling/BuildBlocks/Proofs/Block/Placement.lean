import BuildBlocks.Block.Table
import BuildBlocks.Proofs.Splice.Cuts
import Mathlib.Data.List.Pairwise

/-! # Where blocks stand in their document

The segments of a document make it up without loss.  Hence its blocks stand in it one after
the other (`pairwise_span`), and any choice of blocks cuts it into gaps and the extents of
these blocks (`exists_cuts`).
-/
namespace BuildBlocks
open Text

/-- The segment as it stands in the document. -/
def Segment.source (s : Segment) : Text :=
  s.lines.flatMap Line.source

theorem Segment.source_plain (l : Line) : (plain l).source = l.source :=
  List.flatMap_singleton Line.source l

theorem Segment.flatMap_source_map_plain (ls : List Line) :
    (ls.map Segment.plain).flatMap Segment.source = ls.flatMap Line.source := by
  rw [List.flatMap_map]
  simp [Segment.source, Segment.lines]

theorem Segment.flatMap_source_ofDocument (document : Text) :
    (Segment.ofDocument document).flatMap Segment.source = document := by
  have h : (Segment.ofDocument document).flatMap Segment.source =
      ((Segment.ofDocument document).flatMap Segment.lines).flatMap Line.source :=
    List.flatMap_assoc.symm
  rw [h, Segment.ofDocument, Segment.flatMap_lines_ofLines, Line.flatMap_source_lines]

namespace Passage

/-- The line break of the last line. -/
def lineBreak (p : Passage) : Text :=
  (p.lines.getLast?.bind Line.ending).elim [] LineEnding.text

/-- Behind the extent of a passage stands the line break of its last line. -/
theorem source_eq_extent_append (p : Passage) : p.source = p.extent ++ p.lineBreak := by
  suffices h : ∀ ls : List Line, ls.flatMap Line.source =
      joined ls ++ (ls.getLast?.bind Line.ending).elim [] LineEnding.text from h p.lines
  intro ls
  induction ls with
  | nil => rfl
  | cons l rest ih =>
    cases rest with
    | nil => simp [joined, Line.source]
    | cons m rest =>
      rw [List.flatMap_cons, ih, joined, List.append_assoc, List.getLast?_cons_cons]

/-- The block of a passage that starts at byte `offset` in line `number`, with the key that
`naming` gives it. -/
def block (p : Passage) (offset number : Nat) (naming : Naming) : Block where
  key := (naming.assign p.directive).1
  directive := p.directive
  lines := p.lines.map Line.text
  span := ⟨offset, offset + byteLength p.extent⟩
  lineNumber := number
  terminated := p.terminated

@[simp] theorem block_terminated (p : Passage) (offset number : Nat) (naming : Naming) :
    (p.block offset number naming).terminated = p.terminated := rfl

end Passage

namespace BlockTable

theorem ofSegments_passage (offset number : Nat) (naming : Naming) (p : Passage)
    (rest : List Segment) :
    ofSegments offset number naming (.passage p :: rest) =
      p.block offset number naming ::
        ofSegments (offset + byteLength p.source) (number + p.lines.length)
          (naming.assign p.directive).2 rest := rfl

/-- The segments that are left when blocks of segments that start at byte `offset` in line
`number` give way to the texts that are chosen for them.  The line break behind such a block
stays. -/
def rewritten (chosen : Block → Option Text) (offset number : Nat) (naming : Naming) :
    List Segment → List Segment
  | [] => []
  | .plain l :: rest =>
    .plain l :: rewritten chosen (offset + byteLength l.source) (number + 1) naming rest
  | .passage p :: rest =>
    (match chosen (p.block offset number naming) with
      | some text => (Line.lines (text ++ p.lineBreak)).map Segment.plain
      | none => [.passage p]) ++
      rewritten chosen (offset + byteLength p.source) (number + p.lines.length)
        (naming.assign p.directive).2 rest

/-- No block of segments starts before these or stops before it starts. -/
theorem start_le_of_mem_ofSegments {segs : List Segment} {offset number : Nat} {naming : Naming}
    {b : Block} (hb : b ∈ ofSegments offset number naming segs) : offset ≤ b.span.start := by
  induction segs generalizing offset number naming with
  | nil => exact absurd hb List.not_mem_nil
  | cons s rest ih =>
    cases s with
    | plain l =>
      have := ih hb
      omega
    | passage p =>
      rw [ofSegments_passage] at hb
      rcases List.mem_cons.mp hb with rfl | hb
      · exact Nat.le_refl offset
      · have := ih hb
        omega

/-- Blocks follow each other in the document. -/
theorem pairwise_span (segs : List Segment) (offset number : Nat) (naming : Naming) :
    (ofSegments offset number naming segs).Pairwise fun a b => a.span.stop ≤ b.span.start := by
  induction segs generalizing offset number naming with
  | nil => exact List.Pairwise.nil
  | cons s rest ih =>
    cases s with
    | plain l => exact ih _ _ _
    | passage p =>
      rw [ofSegments_passage]
      refine List.pairwise_cons.mpr ⟨fun b hb => ?_, ih _ _ _⟩
      have hstart := start_le_of_mem_ofSegments hb
      rw [p.source_eq_extent_append, byteLength_append] at hstart
      show offset + byteLength p.extent ≤ b.span.start
      omega

/-- Different blocks have no byte in common. -/
theorem disjoint_span {segs : List Segment} {offset number : Nat} {naming : Naming} {a b : Block}
    (ha : a ∈ ofSegments offset number naming segs) (hb : b ∈ ofSegments offset number naming segs)
    (hne : a ≠ b) : a.span.stop ≤ b.span.start ∨ b.span.stop ≤ a.span.start := by
  have hsymm : Std.Symm fun a b : Block =>
      a.span.stop ≤ b.span.start ∨ b.span.stop ≤ a.span.start := ⟨fun _ _ h => h.symm⟩
  have hpair : (ofSegments offset number naming segs).Pairwise fun a b =>
      a.span.stop ≤ b.span.start ∨ b.span.stop ≤ a.span.start :=
    (pairwise_span segs offset number naming).imp Or.inl
  exact hpair.forall ha hb hne

/-- Any choice of blocks cuts the text that the segments make, and a text kept in front of
it, at the extents of these blocks.  What the cuts result in are the rewritten segments. -/
theorem exists_cuts (chosen : Block → Option Text) (segs : List Segment) :
    ∀ offset number naming cursor gap, offset = cursor + byteLength gap →
      ∃ cuts tail, gap ++ segs.flatMap Segment.source = Cut.sources cuts ++ tail ∧
        Cut.Placed cursor cuts ∧
        (cuts.map Cut.splice = (ofSegments offset number naming segs).filterMap fun b =>
          (chosen b).map fun text => ⟨b.span, text⟩) ∧
        Cut.results cuts ++ tail =
          gap ++ (rewritten chosen offset number naming segs).flatMap Segment.source := by
  induction segs with
  | nil =>
    intro offset number naming cursor gap _
    exact ⟨[], gap, by simp, trivial, rfl, by simp [rewritten]⟩
  | cons s rest ih =>
    intro offset number naming cursor gap hoffset
    cases s with
    | plain l =>
      obtain ⟨cuts, tail, hsource, hplaced, hsplices, hresults⟩ :=
        ih (offset + byteLength l.source) (number + 1) naming cursor (gap ++ l.source)
          (by rw [hoffset, byteLength_append]; omega)
      refine ⟨cuts, tail, ?_, hplaced, hsplices, ?_⟩
      · rw [← hsource, List.flatMap_cons, List.append_assoc]
        simp [Segment.source, Segment.lines]
      · rw [hresults, rewritten, List.flatMap_cons, List.append_assoc]
        simp [Segment.source, Segment.lines]
    | passage p =>
      rw [ofSegments_passage, List.filterMap_cons, rewritten]
      cases hchosen : chosen (p.block offset number naming) with
      | none =>
        -- a block that is not chosen is part of the gap
        obtain ⟨cuts, tail, hsource, hplaced, hsplices, hresults⟩ :=
          ih (offset + byteLength p.source) (number + p.lines.length)
            (naming.assign p.directive).2 cursor (gap ++ p.source)
            (by rw [hoffset, byteLength_append]; omega)
        refine ⟨cuts, tail, ?_, hplaced, hsplices, ?_⟩
        · rw [← hsource, List.flatMap_cons, List.append_assoc]
          rfl
        · rw [hresults, List.singleton_append, List.flatMap_cons, List.append_assoc]
          rfl
      | some text =>
        -- the next gap starts with the line break behind the extent
        obtain ⟨cuts, tail, hsource, hplaced, hsplices, hresults⟩ :=
          ih (offset + byteLength p.source) (number + p.lines.length)
            (naming.assign p.directive).2 (offset + byteLength p.extent) p.lineBreak
            (by rw [p.source_eq_extent_append, byteLength_append]; omega)
        refine ⟨⟨gap, p.extent, ⟨offset, offset + byteLength p.extent⟩, text⟩ :: cuts, tail,
          ?_, ⟨?_, hplaced⟩, ?_, ?_⟩
        · rw [Cut.sources_cons, List.append_assoc _ (Cut.sources cuts), ← hsource,
            List.flatMap_cons, ← List.append_assoc _ p.lineBreak, List.append_assoc gap,
            ← p.source_eq_extent_append, List.append_assoc]
          rfl
        · rw [hoffset]
        · rw [List.map_cons, hsplices]
          rfl
        · rw [Cut.results_cons, List.append_assoc _ (Cut.results cuts), hresults,
            List.flatMap_append, Segment.flatMap_source_map_plain, Line.flatMap_source_lines]
          simp only [List.append_assoc]

end BlockTable
end BuildBlocks
