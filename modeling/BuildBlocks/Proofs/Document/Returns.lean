import BuildBlocks.Proofs.Block.Silencing
import BuildBlocks.Proofs.Text.Returns

/-! # Documents with the other line breaks

When every line feed of a document without carriage returns gets one in front of it, the document
falls into the same lines, with the other line breaks (`lines_withReturns`).  As these take no
part in grouping, the segments are the same (`ofDocument_withReturns`), the blocks have only moved
(`forall₂_moved`), and segments are rewritten alike (`flatMap_source_rewritten`).
-/
namespace BuildBlocks
open Text

/-! ## Lines -/

namespace Line

/-- The line with a carriage return in its line break. -/
def withReturn (l : Line) : Line :=
  ⟨l.text, l.ending.map fun _ => .crlf⟩

variable {l : Line} {document : Text}

theorem text_withReturn (l : Line) : l.withReturn.text = l.text := rfl

theorem source_withReturn (hl : '\n' ∉ l.text) (he : l.ending ≠ some .crlf) :
    l.withReturn.source = withReturns l.source := by
  rw [source, source, withReturns_append, withReturns_of_not_mem hl]
  obtain ⟨text, ending⟩ := l
  cases ending with
  | none => rfl
  | some ending =>
    cases ending with
    | lf => rfl
    | crlf => exact absurd rfl he

/-- Without carriage returns only line feeds break lines. -/
theorem ending_ne_crlf (h : '\r' ∉ document) (hl : l ∈ lines document) :
    l.ending ≠ some .crlf := by
  intro he
  have hholds : LineEnding.crlf.text <:+: document :=
    holds_iff.mp ((holds_crlf_iff document).mpr ⟨l, hl, he⟩)
  exact h (hholds.subset (by decide))

theorem flatMap_source_withReturn {ls : List Line}
    (h : ∀ l ∈ ls, '\n' ∉ l.text ∧ l.ending ≠ some .crlf) :
    (ls.map withReturn).flatMap source = withReturns (ls.flatMap source) := by
  induction ls with
  | nil => rfl
  | cons l ls ih =>
    obtain ⟨⟨hl, he⟩, hrest⟩ := List.forall_mem_cons.mp h
    rw [List.map_cons, List.flatMap_cons, List.flatMap_cons, withReturns_append,
      source_withReturn hl he, ih hrest]

theorem Divided.withReturn {ls : List Line} (h : Divided ls) : Divided (ls.map withReturn) where
  whole := by
    intro m hm
    obtain ⟨l, hl, rfl⟩ := List.mem_map.mp hm
    obtain ⟨hunbroken, _, hnonempty⟩ := h.whole l hl
    refine ⟨hunbroken, fun hlf => ?_, fun hnone => hnonempty (Option.map_eq_none_iff.mp hnone)⟩
    obtain ⟨_, _, hcrlf⟩ := Option.map_eq_some_iff.mp hlf
    cases hcrlf
  ended := by
    rw [List.pairwise_map]
    exact h.ended.imp fun hended hnone => hended (Option.map_eq_none_iff.mp hnone)

/-- The lines of a document with the other line breaks. -/
theorem lines_withReturns (h : '\r' ∉ document) :
    lines (withReturns document) = (lines document).map withReturn := by
  have hdivided : Divided (lines document) := divided_lines document
  have hsource : ((lines document).map withReturn).flatMap source = withReturns document := by
    rw [flatMap_source_withReturn fun l hl => ⟨(hdivided.whole l hl).unbroken, ending_ne_crlf h hl⟩,
      flatMap_source_lines]
  rw [← hsource]
  exact lines_flatMap_source hdivided.withReturn

end Line

theorem LineEnding.detect_of_not_mem {document : Text} (h : '\r' ∉ document) :
    detect document = .lf := by
  rw [detect, if_neg]
  rw [holds_iff]
  exact not_infix_of_not_mem (by decide) h

theorem LineEnding.detect_withReturns {document : Text} (h : '\n' ∈ document) :
    detect (withReturns document) = .crlf := by
  obtain ⟨u, v, rfl⟩ := List.append_of_mem h
  rw [detect, if_pos]
  rw [holds_iff, withReturns_append, withReturns_lineFeed]
  exact ⟨withReturns u, withReturns v, by simp [text]⟩

/-! ## Segments -/

/-- The passage with its lines changed one by one. -/
def Passage.mapLines (f : Line → Line) (p : Passage) : Passage :=
  { p with lines := p.lines.map f }

/-- The segment with its lines changed one by one. -/
def Segment.mapLines (f : Line → Line) : Segment → Segment
  | plain l => plain (f l)
  | passage p => passage (p.mapLines f)

namespace Segment
variable {f : Line → Line}

/-- Grouping looks at the texts of lines only. -/
theorem scan_mapLines (hf : ∀ l, (f l).text = l.text) (current : Option Passage) (ls : List Line) :
    scan (current.map (Passage.mapLines f)) (ls.map f) = (scan current ls).map (mapLines f) := by
  induction ls generalizing current with
  | nil => cases current <;> rfl
  | cons l ls ih =>
    have hidle := ih none
    have hpending := fun p => ih (some p)
    simp only [Option.map_none, Option.map_some, Passage.mapLines] at hidle hpending
    cases hd : Directive.parse l.text <;> cases current <;>
      by_cases hend : Directive.isEndMarker l.text <;>
        simp [scan, turn, Passage.push, Passage.opened, Passage.mapLines, mapLines, hf, hd, hend,
          hidle, ← hpending]

theorem ofDocument_withReturns {document : Text} (h : '\r' ∉ document) :
    ofDocument (withReturns document) = (ofDocument document).map (mapLines Line.withReturn) := by
  rw [ofDocument, Line.lines_withReturns h]
  exact scan_mapLines Line.text_withReturn none (Line.lines document)

end Segment

/-! ## Blocks -/

/-- Two blocks that differ at most in their places. -/
structure Block.Moved (b c : Block) : Prop extends b.Unchanged c where
  key : c.key = b.key

namespace BlockTable
variable {f : Line → Line} {segs : List Segment}

theorem moved_mapLines (hf : ∀ l, (f l).text = l.text) (p : Passage) (offset offset' number : Nat)
    (naming : Naming) :
    (p.block offset number naming).Moved ((p.mapLines f).block offset' number naming) where
  directive := rfl
  lines := by simp [Passage.block, Passage.mapLines, Function.comp_def, hf]
  lineNumber := rfl
  terminated := rfl
  key := rfl

/-- Lines with the same texts make the same blocks in other places. -/
theorem forall₂_moved (hf : ∀ l, (f l).text = l.text) (segs : List Segment)
    (offset offset' number : Nat) (naming : Naming) :
    List.Forall₂ Block.Moved (ofSegments offset number naming segs)
      (ofSegments offset' number naming (segs.map (Segment.mapLines f))) := by
  induction segs generalizing offset offset' number naming with
  | nil => exact .nil
  | cons s segs ih =>
    cases s with
    | plain l => exact ih _ _ _ _
    | passage p =>
      have hlength : (p.mapLines f).lines.length = p.lines.length := List.length_map f
      rw [List.map_cons, Segment.mapLines, ofSegments_passage, ofSegments_passage, hlength]
      exact .cons (moved_mapLines hf p _ _ _ _) (ih _ _ _ _)

end BlockTable

/-! ## Rewritten segments -/

/-- A segment with the other line breaks. -/
theorem Segment.source_withReturn {s : Segment}
    (h : ∀ l ∈ s.lines, '\n' ∉ l.text ∧ l.ending ≠ some .crlf) :
    (s.mapLines Line.withReturn).source = withReturns s.source := by
  cases s with
  | plain l => exact Line.flatMap_source_withReturn (List.forall_mem_singleton.mpr (h l List.mem_cons_self))
  | passage p => exact Line.flatMap_source_withReturn h

theorem Passage.lineBreak_withReturn {p : Passage} (h : ∀ l ∈ p.lines, l.ending ≠ some .crlf) :
    (p.mapLines Line.withReturn).lineBreak = withReturns p.lineBreak := by
  rw [lineBreak, lineBreak, mapLines, List.getLast?_map]
  cases hlast : p.lines.getLast? with
  | none => rfl
  | some l =>
    have he := h l (List.mem_of_getLast? hlast)
    obtain ⟨text, ending⟩ := l
    cases ending with
    | none => rfl
    | some ending =>
      cases ending with
      | lf => rfl
      | crlf => exact absurd rfl he

/-- Segments are rewritten alike, when the blocks are given texts that differ in their line breaks
alone. -/
theorem BlockTable.flatMap_source_rewritten {segs : List Segment} {chosen chosen' : Block → Option Text}
    (hlines : ∀ s ∈ segs, ∀ l ∈ s.lines, '\n' ∉ l.text ∧ l.ending ≠ some .crlf)
    {offset number : Nat} {naming : Naming}
    (hchosen : ∀ b ∈ ofSegments offset number naming segs, ∀ c, b.Moved c →
      chosen' c = (chosen b).map withReturns) (offset' : Nat) :
    (rewritten chosen' offset' number naming
        (segs.map (Segment.mapLines Line.withReturn))).flatMap Segment.source =
      withReturns ((rewritten chosen offset number naming segs).flatMap Segment.source) := by
  induction segs generalizing offset offset' number naming with
  | nil => rfl
  | cons s segs ih =>
    obtain ⟨hhere, hlater⟩ := List.forall_mem_cons.mp hlines
    have hsource := Segment.source_withReturn hhere
    cases s with
    | plain l =>
      rw [List.map_cons, Segment.mapLines, rewritten, rewritten, List.flatMap_cons,
        List.flatMap_cons, withReturns_append, ← hsource, ih hlater hchosen]
      rfl
    | passage p =>
      rw [ofSegments_passage] at hchosen
      obtain ⟨hp, hchosen⟩ := List.forall_mem_cons.mp hchosen
      have hlength : (p.mapLines Line.withReturn).lines.length = p.lines.length := List.length_map _
      rw [List.map_cons, Segment.mapLines, rewritten, rewritten, List.flatMap_append,
        List.flatMap_append, withReturns_append, hlength, ← ih hlater hchosen,
        hp _ (moved_mapLines Line.text_withReturn p offset offset' number naming)]
      congr 1
      cases chosen (p.block offset number naming) with
      | none =>
        simp only [Option.map_none, List.flatMap_singleton]
        exact hsource
      | some text =>
        simp only [Option.map_some, Segment.flatMap_source_map_plain, Line.flatMap_source_lines]
        rw [withReturns_append, Passage.lineBreak_withReturn fun l hl => (hhere l hl).2]

end BuildBlocks
