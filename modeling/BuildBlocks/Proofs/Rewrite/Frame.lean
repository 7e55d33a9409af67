import BuildBlocks.Proofs.Block.Placement
import BuildBlocks.Proofs.Matching
import BuildBlocks.Transform

/-! # What a transformation keeps of a document

A transformation touches the blocks that resolve and nothing else.  `Block.resolves` tells
which they are and `Replaces` what comes in the place of one; `transform_content` cuts the
document at these blocks and says that the gaps stay as they are.
-/
namespace BuildBlocks
open Text

namespace Block
variable {b : Block} {ending : LineEnding} {o : Options}

/-- Whether a terminated block gives way to another text: its type is built in, or a handler
of its type returns one. -/
def resolves (b : Block) (ending : LineEnding) (o : Options) : Bool :=
  match b.directive.blockType with
  | .custom name => ((o.handlers.get? name).bind fun handler => handler (b.context ending)).isSome
  | _ => true

/-- The text that comes in the place of a block. -/
inductive Replaces (b : Block) (ending : LineEnding) (o : Options) : Text → Prop
  /-- A preview puts in the inner lines. -/
  | preview {reference : Text} (hr : b.reference? ending o = some reference)
      (ho : o.preview = true) : Replaces b ending o (join ending.text b.innerLines)
  /-- The reference stands where the directive stood. -/
  | plain {reference : Text} (hr : b.reference? ending o = some reference)
      (ho : o.preview = false) (hc : ConditionalComment.find (b.text ending) = none) :
      Replaces b ending o (b.indent ++ reference)
  /-- A conditional comment stays around the reference, each of the three on a line. -/
  | conditional {reference : Text} {c : ConditionalComment}
      (hr : b.reference? ending o = some reference) (ho : o.preview = false)
      (hc : ConditionalComment.find (b.text ending) = some c) :
      Replaces b ending o
        (join ending.text [b.indent ++ c.opener, b.indent ++ reference, b.indent ++ c.closer])

/-- The text that a transformation puts in the place of a block, if it is closed and resolves. -/
def successor? (b : Block) (ending : LineEnding) (o : Options) : Option Text :=
  if b.terminated then b.replacement? ending o else none

theorem successor?_of_terminated (h : b.terminated = true) :
    b.successor? ending o = b.replacement? ending o :=
  if_pos h

theorem isSome_replacement? : (b.replacement? ending o).isSome = b.resolves ending o := by
  rw [replacement?, Option.isSome_map, reference?, resolves]
  cases b.directive.blockType <;> rfl

theorem replaces_of_replacement? {text : Text} (h : b.replacement? ending o = some text) :
    b.Replaces ending o text := by
  obtain ⟨reference, hr, rfl⟩ := Option.map_eq_some_iff.mp h
  split
  · rename_i ho
    exact .preview hr ho
  · rename_i ho
    rw [Bool.not_eq_true] at ho
    rw [wrap]
    split
    · rename_i c hc
      have hlines : join ending.text
          [b.indent ++ c.opener, b.indent ++ reference, b.indent ++ c.closer] =
          b.indent ++ c.opener ++ ending.text ++ b.indent ++ reference ++ ending.text ++
            b.indent ++ c.closer := by
        simp only [join, List.append_assoc]
      rw [← hlines]
      exact .conditional hr ho hc
    · rename_i hc
      exact .plain hr ho hc

/-- Without a preview the reference stands in the text that replaces the block. -/
theorem Replaces.infix {reference text : Text} (h : b.Replaces ending o text)
    (ho : o.preview = false) (hr : b.reference? ending o = some reference) :
    reference <:+: text := by
  cases h with
  | preview _ hpreview =>
    rw [ho] at hpreview
    cases hpreview
  | plain hr' =>
    obtain rfl := Option.some.inj (hr.symm.trans hr')
    exact (List.suffix_append _ _).isInfix
  | @conditional _ c hr' =>
    obtain rfl := Option.some.inj (hr.symm.trans hr')
    refine ⟨b.indent ++ c.opener ++ ending.text ++ b.indent,
      ending.text ++ (b.indent ++ c.closer), ?_⟩
    simp only [join, List.append_assoc]

/-- Only an empty reference outside of a conditional comment leaves nothing but the blanks. -/
theorem Replaces.eq_indent_iff {reference text : Text} (h : b.Replaces ending o text)
    (ho : o.preview = false) (hr : b.reference? ending o = some reference) :
    text = b.indent ↔ reference = [] ∧ ConditionalComment.find (b.text ending) = none := by
  cases h with
  | preview _ hpreview =>
    rw [ho] at hpreview
    cases hpreview
  | plain hr' _ hc =>
    obtain rfl := Option.some.inj (hr.symm.trans hr')
    rw [and_iff_left hc, List.append_right_eq_self]
  | @conditional _ c hr' _ hc =>
    refine iff_of_false (fun htext => ?_) (by simp [hc])
    have hlength := congrArg List.length htext
    cases ending <;> simp [join, LineEnding.text] at hlength

end Block

namespace BlockTable

/-- The terminated blocks that resolve, in document order. -/
def resolved (t : BlockTable) (o : Options) : List Block :=
  t.terminated.filter fun b => b.resolves t.ending o

end BlockTable

/-- What a transformation makes of the segments of a document. -/
def rewrittenSegments (document : Text) (o : Options) : List Segment :=
  BlockTable.rewritten (fun b => b.successor? (.detect document) o) 0 1 .initial
    (Segment.ofDocument document)

/-- The splices of a transformation cut the document, and result in the rewritten segments. -/
theorem exists_cuts_rewritten (document : Text) (o : Options) :
    ∃ (cuts : List Cut) (tail : Text), document = Cut.sources cuts ++ tail ∧
      Cut.Placed 0 cuts ∧
      cuts.map Cut.splice = (BlockTable.extract document).splices o ∧
      Cut.results cuts ++ tail = (rewrittenSegments document o).flatMap Segment.source := by
  obtain ⟨cuts, tail, hsource, hplaced, hsplices, hresults⟩ :=
    BlockTable.exists_cuts (fun b => b.successor? (.detect document) o)
      (Segment.ofDocument document) 0 1 .initial 0 [] rfl
  rw [List.nil_append, Segment.flatMap_source_ofDocument] at hsource
  refine ⟨cuts, tail, hsource, hplaced, ?_, hresults⟩
  rw [hsplices, BlockTable.splices, BlockTable.terminated, List.filterMap_filter]
  congr 1
  funext b
  rw [Block.successor?]
  cases b.terminated <;> rfl

theorem exists_cuts_splices (document : Text) (o : Options) :
    ∃ (cuts : List Cut) (tail : Text), document = Cut.sources cuts ++ tail ∧
      Cut.Placed 0 cuts ∧
      cuts.map Cut.splice = (BlockTable.extract document).splices o := by
  obtain ⟨cuts, tail, hsource, hplaced, hsplices, _⟩ := exists_cuts_rewritten document o
  exact ⟨cuts, tail, hsource, hplaced, hsplices⟩

/-- A transformed document is made up of the rewritten segments. -/
theorem content_eq_flatMap_rewrittenSegments (document : Text) (o : Options) :
    (transform document o).content =
      (rewrittenSegments document o).flatMap Segment.source := by
  obtain ⟨cuts, tail, hsource, hplaced, hsplices, hresults⟩ := exists_cuts_rewritten document o
  show (Splice.apply ((BlockTable.extract document).splices o) document).getD document = _
  rw [← hsplices, hsource, Cut.apply_cuts tail hplaced, Option.getD_some, hresults, ← hsource]

/-- Cuts that carry the splices of a table belong to the blocks that resolve. -/
theorem forall₂_resolved_of_map_splice {t : BlockTable} {o : Options} {cuts : List Cut}
    (h : cuts.map Cut.splice = t.splices o) :
    List.Forall₂ (fun b c => c.splice.span = b.span ∧
      b.Replaces t.ending o c.splice.replacement) (t.resolved o) cuts := by
  have hforall := List.Forall₂.of_map_eq_filterMap h
  simp only [Option.isSome_map, Block.isSome_replacement?] at hforall
  refine hforall.imp fun b c hc => ?_
  obtain ⟨text, htext, hsplice⟩ := Option.map_eq_some_iff.mp hc
  rw [← hsplice]
  exact ⟨rfl, Block.replaces_of_replacement? htext⟩

/-- Every closed block that resolves has its place among the cuts of the document. -/
theorem exists_cut_of_resolves {document : Text} {b : Block} {o : Options}
    (hb : b ∈ (BlockTable.extract document).terminated)
    (hresolves : b.resolves (BlockTable.extract document).ending o = true) :
    ∃ (cuts : List Cut) (tail : Text) (c : Cut), document = Cut.sources cuts ++ tail ∧
      (transform document o).content = Cut.results cuts ++ tail ∧ c ∈ cuts ∧
      c.splice.span = b.span ∧
      b.Replaces (BlockTable.extract document).ending o c.splice.replacement := by
  obtain ⟨cuts, tail, hsource, hplaced, hsplices⟩ := exists_cuts_splices document o
  have hforall := forall₂_resolved_of_map_splice hsplices
  obtain ⟨c, hc, hspan, hreplaces⟩ :=
    hforall.flip.exists_of_mem_right (List.mem_filter.mpr ⟨hb, hresolves⟩)
  refine ⟨cuts, tail, c, hsource, ?_, hc, hspan, hreplaces⟩
  show (Splice.apply ((BlockTable.extract document).splices o) document).getD document = _
  rw [← hsplices, hsource, Cut.apply_cuts tail hplaced, Option.getD_some]

/-- **A transformation touches nothing outside the blocks that resolve.**  The document is
cut at these blocks; what stands between them stays, every other block included, and each of
them gives way to its replacement. -/
theorem transform_content (document : Text) (o : Options) :
    let t := BlockTable.extract document
    ∃ (cuts : List Cut) (tail : Text),
      document = Cut.sources cuts ++ tail ∧
      (transform document o).content = Cut.results cuts ++ tail ∧
      List.Forall₂ (fun b c => c.splice.span = b.span ∧
        b.Replaces t.ending o c.splice.replacement) (t.resolved o) cuts ∧
      Cut.Placed 0 cuts ∧ (∀ c ∈ cuts, document.slice? c.splice.span = some c.extent) ∧
      (∀ b ∈ t.blocks, b ∉ t.resolved o → ∀ c ∈ cuts,
        b.span.stop ≤ c.splice.span.start ∨ c.splice.span.stop ≤ b.span.start) ∧
      (t.resolved o = [] → (transform document o).content = document) := by
  intro t
  obtain ⟨cuts, tail, hsource, hplaced, hsplices⟩ := exists_cuts_splices document o
  have hcontent : (transform document o).content = Cut.results cuts ++ tail := by
    show (Splice.apply (t.splices o) document).getD document = Cut.results cuts ++ tail
    rw [← hsplices, hsource, Cut.apply_cuts tail hplaced, Option.getD_some]
  have hforall : List.Forall₂ (fun b c => c.splice.span = b.span ∧
      b.Replaces t.ending o c.splice.replacement) (t.resolved o) cuts :=
    forall₂_resolved_of_map_splice hsplices
  refine ⟨cuts, tail, hsource, hcontent, hforall, hplaced, ?_, ?_, ?_⟩
  · have hslice := hplaced.slice? [] tail
    rwa [List.nil_append, ← hsource] at hslice
  · -- every cut is made at a block that resolves, and this is another one
    intro b hb hkept c hc
    obtain ⟨r, hr, hspan, _⟩ := hforall.exists_of_mem_right hc
    have hne : b ≠ r := fun h => hkept (h ▸ hr)
    have hmem : r ∈ t.blocks := List.mem_of_mem_filter (List.mem_of_mem_filter hr)
    rw [hspan]
    exact BlockTable.disjoint_span hb hmem hne
  · intro hnone
    rw [hnone, List.forall₂_nil_left_iff] at hforall
    rw [hcontent, hsource, hforall]
    rfl

end BuildBlocks
