import BuildBlocks.Proofs.Document.Concatenation
import BuildBlocks.Proofs.Rewrite.Repetition
import BuildBlocks.Template

/-! # Transforming documents that are put together

What comes in the place of a block is made of its directive and its lines; its key and its place
do not show in it, and its line number only in what a handler makes of it.  Templates have no
placeholder for that number.  So a document can be transformed in parts, cut behind a line break
where no block is open (`transform_append`): the keys that the first part takes, and its length,
show in the manifest alone.
-/
namespace BuildBlocks
open Text

/-! ## What templates see of a block -/

namespace Template

/-- A template says nothing of the line on which the directive stands. -/
theorem render_congr {c e : BlockContext} (hcontent : e.content = c.content)
    (htarget : e.target = c.target) (hattributes : e.attributes = c.attributes)
    (hpaths : e.searchPaths = c.searchPaths) (template : Template) :
    template.render e = template.render c := by
  have hpiece : Piece.render e = Piece.render c := by
    funext piece
    cases piece with
    | literal t => rfl
    | placeholder p => cases p <;> simp [Piece.render, Placeholder.value, *]
  rw [render, render, hpiece]

end Template

/-- Every handler renders a template. -/
def Options.Templated (o : Options) : Prop :=
  ∀ kind handler, o.handlers.get? kind = some handler → ∃ t : Template, handler = t.handler

namespace Block.Recurs
variable {b c : Block} {o : Options}

theorem innerContent_eq (h : b.Recurs c) (ending : LineEnding) :
    c.innerContent ending = b.innerContent ending := by
  rw [innerContent, innerContent, innerLines, innerLines, h.lines]

theorem handler_context_eq (h : b.Recurs c) (t : Template) (ending : LineEnding) :
    t.handler (c.context ending) = t.handler (b.context ending) := by
  refine congrArg some (t.render_congr (h.innerContent_eq ending) ?_ ?_ ?_)
  · simp only [context, h.directive]
  · simp only [context, h.directive]
  · simp only [context, h.directive]

/-- With templates only, blocks that are made of the same lines have the same reference. -/
theorem reference?_eq (h : b.Recurs c) (ho : o.Templated) (ending : LineEnding) :
    c.reference? ending o = b.reference? ending o := by
  rw [reference?, reference?, h.directive, h.innerContent_eq]
  cases b.directive.blockType with
  | css => rfl
  | js => rfl
  | remove => rfl
  | custom name =>
    cases hhandler : o.handlers.get? name with
    | none => simp [hhandler]
    | some handler =>
      obtain ⟨t, rfl⟩ := ho name handler hhandler
      simp only [hhandler, Option.bind_some]
      exact h.handler_context_eq t ending

theorem successor?_eq (h : b.Recurs c) (ho : o.Templated) (ending : LineEnding) :
    c.successor? ending o = b.successor? ending o := by
  have hwrap : c.wrap ending = b.wrap ending := by
    funext reference
    simp only [wrap, text, indent, h.lines]
  rw [successor?, successor?, h.terminated, replacement?, replacement?, h.reference?_eq ho, hwrap,
    h.innerContent_eq]

end Block.Recurs

/-! ## What a later part of a document makes of a block -/

namespace BlockTable

/-- What is chosen for blocks without a look at their keys and places is put in alike wherever
their segments start. -/
theorem rewritten_congr {chosen : Block → Option Text}
    (hchosen : ∀ b c : Block, b.Recurs c → chosen c = chosen b) (segs : List Segment)
    (offset offset' number number' : Nat) (naming naming' : Naming) :
    rewritten chosen offset number naming segs = rewritten chosen offset' number' naming' segs := by
  induction segs generalizing offset offset' number number' naming naming' with
  | nil => rfl
  | cons s segs ih =>
    cases s with
    | plain l => rw [rewritten, rewritten, ih]
    | passage p =>
      have hp : chosen (p.block offset number naming) = chosen (p.block offset' number' naming') :=
        hchosen _ _ ⟨rfl, rfl, rfl⟩
      rw [rewritten, rewritten, hp, ih]

end BlockTable

/-- The same block, `n` lines further down. -/
structure Block.Lowered (n : Nat) (b c : Block) : Prop extends b.Recurs c where
  kind : c.key.kind = b.key.kind
  lineNumber : c.lineNumber = b.lineNumber + n

/-- The report of a block that stands `n` lines further down. -/
def UnterminatedBlock.lowered (n : Nat) (u : UnterminatedBlock) : UnterminatedBlock :=
  { u with line := u.line + n }

theorem Naming.kind_assign (s : Naming) (d : Directive) : (s.assign d).1.kind = d.kind := by
  rw [assign]
  split <;> rfl

namespace BlockTable

theorem forall₂_lowered (n : Nat) (segs : List Segment) (offset offset' number : Nat)
    (naming naming' : Naming) :
    List.Forall₂ (Block.Lowered n) (ofSegments offset number naming segs)
      (ofSegments offset' (number + n) naming' segs) := by
  induction segs generalizing offset offset' number naming naming' with
  | nil => exact .nil
  | cons s segs ih =>
    cases s with
    | plain l =>
      have hrest := ih (offset + byteLength l.source) (offset' + byteLength l.source) (number + 1)
        naming naming'
      rw [Nat.add_right_comm] at hrest
      exact hrest
    | passage p =>
      have hkind : (p.block offset' (number + n) naming').key.kind =
          (p.block offset number naming).key.kind :=
        (naming'.kind_assign p.directive).trans (naming.kind_assign p.directive).symm
      rw [ofSegments_passage, ofSegments_passage, Nat.add_right_comm]
      exact .cons ⟨⟨rfl, rfl, rfl⟩, hkind, rfl⟩ (ih _ _ _ _ _)

/-- The blocks that are reported as open. -/
def reported (blocks : List Block) : List UnterminatedBlock :=
  (blocks.filter (!·.terminated)).map fun b => ⟨b.lineNumber, b.key.kind⟩

theorem reported_append (blocks later : List Block) :
    reported (blocks ++ later) = reported blocks ++ reported later := by
  rw [reported, List.filter_append, List.map_append]
  rfl

theorem reported_lowered {n : Nat} {blocks later : List Block}
    (h : List.Forall₂ (Block.Lowered n) blocks later) :
    reported later = (reported blocks).map (UnterminatedBlock.lowered n) := by
  have hopen : List.Forall₂ (Block.Lowered n) (blocks.filter (!·.terminated))
      (later.filter (!·.terminated)) :=
    List.rel_filter (fun _ _ hbc => by simp only [hbc.terminated]) h
  rw [reported, reported, List.map_map]
  refine (hopen.map_eq_map fun b c hbc => ?_).symm
  simp [UnterminatedBlock.lowered, hbc.lineNumber, hbc.kind]

end BlockTable

/-! ## Documents -/

section
variable {first second : Text} {o : Options}

theorem content_append (hline : first = [] ∨ first.getLast? = some '\n')
    (hclosed : (BlockTable.extract first).endsOpen = false)
    (hending : LineEnding.detect second = LineEnding.detect first) (ho : o.Templated) :
    (transform (first ++ second) o).content =
      (transform first o).content ++ (transform second o).content := by
  simp only [content_eq_flatMap_rewrittenSegments, rewrittenSegments]
  rw [Segment.ofDocument_append hline hclosed, Line.detect_append hline hending, hending,
    BlockTable.rewritten_append, List.flatMap_append]
  congr 2
  exact BlockTable.rewritten_congr (fun b c h => h.successor?_eq ho _) _ _ _ _ _ _ _

theorem unterminated_append (hline : first = [] ∨ first.getLast? = some '\n')
    (hclosed : (BlockTable.extract first).endsOpen = false) :
    (transform (first ++ second) o).unterminated =
      (transform first o).unterminated ++
        (transform second o).unterminated.map (UnterminatedBlock.lowered (first.count '\n')) := by
  -- the lines of the first document are counted by its line feeds
  have hcount : (Line.lines first).length = first.count '\n' := by
    have hended : ∀ l ∈ Line.lines first, l.ending ≠ none := by
      rcases hline with rfl | hline
      · exact fun l hl => absurd hl List.not_mem_nil
      · exact Line.ended_lines hline
    rw [← Line.count_flatMap_source (Line.divided_lines first).whole hended,
      Line.flatMap_source_lines]
  show BlockTable.reported (BlockTable.ofSegments 0 1 .initial (Segment.ofDocument (first ++ second))) =
    BlockTable.reported (BlockTable.ofSegments 0 1 .initial (Segment.ofDocument first)) ++ _
  rw [Segment.ofDocument_append hline hclosed, BlockTable.ofSegments_append,
    BlockTable.reported_append, Segment.flatMap_lines_ofDocument, hcount]
  congr 1
  exact BlockTable.reported_lowered (BlockTable.forall₂_lowered _ _ 0 _ 1 .initial _)

/-- **A document can be transformed in parts.**  Let the first part be empty or end with a line
feed, let no block be open at its end, let both parts have line breaks of one kind, and let every
handler render a template.  Then the contents of the transformed parts make the content of the
whole, and the blocks that are open in the whole are those of the first part and, as many lines
further down as the first part has, those of the second. -/
theorem transform_append (hline : first = [] ∨ first.getLast? = some '\n')
    (hclosed : (BlockTable.extract first).endsOpen = false)
    (hending : LineEnding.detect second = LineEnding.detect first) (ho : o.Templated) :
    (transform (first ++ second) o).content =
        (transform first o).content ++ (transform second o).content ∧
      (transform (first ++ second) o).unterminated =
        (transform first o).unterminated ++
          (transform second o).unterminated.map (UnterminatedBlock.lowered (first.count '\n')) :=
  ⟨content_append hline hclosed hending ho, unterminated_append hline hclosed⟩

end

/-- A stylesheet block that is abandoned, and a script block. -/
def forepart : Text :=
  "<!-- build:css -->\n".toList ++
    "<!-- build:js app.js -->\n".toList ++
    "<script src=\"a.js\"></script>\n".toList ++
    "<!-- endbuild -->\n".toList

/-- A script block with the directive of the one in `forepart`, a custom block, and a block that
is open at the end. -/
def afterpart : Text :=
  "<!-- build:js app.js -->\n".toList ++
    "<script src=\"b.js\"></script>\n".toList ++
    "<!-- endbuild -->\n".toList ++
    "<!-- build:img logo.png -->\n".toList ++
    "<!-- endbuild -->\n".toList ++
    "<!-- build:remove -->".toList

/-- A template that shows the target. -/
def imageTemplate : Template :=
  ⟨[.literal "<img src=".toList, .placeholder .target, .literal ">".toList]⟩

/-- Images are rendered by `imageTemplate`. -/
def imageOptions : Options :=
  ⟨SortedMap.empty.insert "img".toList imageTemplate.handler, false⟩

theorem templated_imageOptions : imageOptions.Templated := by
  intro kind handler h
  rw [imageOptions, SortedMap.insert, SortedMap.get?_alter] at h
  split at h
  · exact ⟨imageTemplate, (Option.some.inj h).symm⟩
  · cases h

set_option maxRecDepth 8000 in
/-- The script block of `afterpart` has another key behind `forepart`, and is written alike. -/
theorem transform_append_forepart :
    forepart.getLast? = some '\n' ∧ (BlockTable.extract forepart).endsOpen = false ∧
      LineEnding.detect afterpart = LineEnding.detect forepart ∧ imageOptions.Templated ∧
      (transform (forepart ++ afterpart) imageOptions).content =
        ("<!-- build:css -->\n".toList ++ "<script src=\"app.js\"></script>\n".toList) ++
          ("<script src=\"app.js\"></script>\n".toList ++ "<img src=logo.png>\n".toList ++
            "<!-- build:remove -->".toList) ∧
      (transform (forepart ++ afterpart) imageOptions).unterminated =
        [⟨1, "css".toList⟩, ⟨10, "remove".toList⟩] := by
  have hline : forepart.getLast? = some '\n' := by decide
  have hclosed : (BlockTable.extract forepart).endsOpen = false := by decide
  have hending : LineEnding.detect afterpart = LineEnding.detect forepart := by decide
  obtain ⟨hcontent, hunterminated⟩ :=
    transform_append (.inr hline) hclosed hending templated_imageOptions
  refine ⟨hline, hclosed, hending, templated_imageOptions, ?_, ?_⟩
  · rw [hcontent, content_eq_flatMap_rewrittenSegments, content_eq_flatMap_rewrittenSegments]
    decide
  · rw [hunterminated]
    decide

end BuildBlocks
