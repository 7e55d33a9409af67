import BuildBlocks.Proofs.Manifest.Deletion
import BuildBlocks.Proofs.Rewrite.Frame

/-! # What is left of a block without a reference

Blocks that are dropped, and blocks of a built type without an element of that type, have an
empty reference.  Where the empty reference stands alone only the blanks in front of the
directive are left.  A conditional comment that the block holds is left around it all the same
(`transform_emptied`).
-/
namespace BuildBlocks
open Text

/-- The block is dropped, or holds no element of the type that it is built into. -/
def Block.Emptied (b : Block) (ending : LineEnding) : Prop :=
  b.directive.blockType = .remove ∨ b.Deleted ending

namespace Block
variable {b : Block} {ending : LineEnding} {o : Options} {text : Text}

theorem Emptied.reference?_eq (h : b.Emptied ending) (o : Options) :
    b.reference? ending o = some [] := by
  rcases h with htype | h
  · simp only [reference?, htype]
  · exact h.reference?_eq o

/-- A block with an empty reference resolves, whatever the options are. -/
theorem Emptied.resolves (h : b.Emptied ending) (o : Options) : b.resolves ending o = true := by
  rw [← isSome_replacement?, replacement?, Option.isSome_map, h.reference?_eq o]
  rfl

/-- Around an empty reference stands the conditional comment of the block, if it has one. -/
theorem Emptied.eq_of_replaces (h : b.Emptied ending) (ho : o.preview = false)
    (hreplaces : b.Replaces ending o text) :
    (ConditionalComment.find (b.text ending) = none ∧ text = b.indent) ∨
      ∃ c, ConditionalComment.find (b.text ending) = some c ∧
        text = join ending.text [b.indent ++ c.opener, b.indent, b.indent ++ c.closer] := by
  have hempty := h.reference?_eq o
  cases hreplaces with
  | preview hr hpreview =>
    rw [ho] at hpreview
    cases hpreview
  | plain hr _ hc =>
    rw [hempty] at hr
    obtain rfl := Option.some.inj hr
    exact .inl ⟨hc, List.append_nil _⟩
  | @conditional reference c hr _ hc =>
    rw [hempty] at hr
    obtain rfl := Option.some.inj hr
    exact .inr ⟨c, hc, by rw [List.append_nil]⟩

/-- A conditional comment makes more than blanks. -/
theorem join_conditional_ne_indent (b : Block) (ending : LineEnding) (c : ConditionalComment) :
    join ending.text [b.indent ++ c.opener, b.indent, b.indent ++ c.closer] ≠ b.indent := by
  intro h
  have hlength := congrArg List.length h
  cases ending <;> simp [join, LineEnding.text] at hlength

end Block

/-- **What is left of a block without a reference.**  When a document is transformed without a
preview, every closed block that is dropped, and every closed stylesheet or script block
without an element of its type, is replaced.  In its place stand the blanks in front of its
directive and nothing else, when its lines hold no conditional comment, and only then;
otherwise the two ends of the comment stand around them on lines of their own. -/
theorem transform_emptied {o : Options} (ho : o.preview = false) (document : Text) :
    let t := BlockTable.extract document
    ∃ (cuts : List Cut) (tail : Text),
      document = Cut.sources cuts ++ tail ∧
      (transform document o).content = Cut.results cuts ++ tail ∧
      (∀ c ∈ cuts, document.slice? c.splice.span = some c.extent) ∧
      (∀ b ∈ t.terminated, b.Emptied t.ending → b ∈ t.resolved o) ∧
      List.Forall₂ (fun b c => c.splice.span = b.span ∧ (b.Emptied t.ending →
        (c.splice.replacement = b.indent ↔ ConditionalComment.find (b.text t.ending) = none) ∧
        ∀ k, ConditionalComment.find (b.text t.ending) = some k → c.splice.replacement =
          join t.ending.text [b.indent ++ k.opener, b.indent, b.indent ++ k.closer]))
        (t.resolved o) cuts := by
  intro t
  obtain ⟨cuts, tail, hsource, hplaced, hsplices⟩ := exists_cuts_splices document o
  have hforall : List.Forall₂ (fun b c => c.splice.span = b.span ∧
      b.Replaces t.ending o c.splice.replacement) (t.resolved o) cuts :=
    forall₂_resolved_of_map_splice hsplices
  refine ⟨cuts, tail, hsource, ?_, ?_, fun b hb hempty => ?_, ?_⟩
  · show (Splice.apply (t.splices o) document).getD document = Cut.results cuts ++ tail
    rw [← hsplices, hsource, Cut.apply_cuts tail hplaced, Option.getD_some]
  · have hslice := hplaced.slice? [] tail
    rwa [List.nil_append, ← hsource] at hslice
  · exact List.mem_filter.mpr ⟨hb, hempty.resolves o⟩
  · refine hforall.imp fun b c ⟨hspan, hreplaces⟩ => ⟨hspan, fun hempty => ?_⟩
    rcases hempty.eq_of_replaces ho hreplaces with ⟨hnone, htext⟩ | ⟨k, hsome, htext⟩
    · refine ⟨iff_of_true htext hnone, fun k hk => ?_⟩
      rw [hnone] at hk
      cases hk
    · rw [hsome, htext]
      refine ⟨iff_of_false (b.join_conditional_ne_indent t.ending k) (by simp), fun k' hk' => ?_⟩
      rw [Option.some.inj hk']

/-- A block that is dropped, with a conditional comment in it. -/
def hollow : Text :=
  "<!-- build:remove -->\n".toList ++
    "  <!--[if IE]>\n".toList ++
    "  <p>old</p>\n".toList ++
    "  <![endif]-->\n".toList ++
    "<!-- endbuild -->\n".toList

/-- The block of `hollow`. -/
def hollowBlock : Block where
  key := ⟨"remove".toList, some "0".toList, none, none⟩
  directive := ⟨"remove".toList, none, none, none⟩
  lines := ["<!-- build:remove -->".toList, "  <!--[if IE]>".toList, "  <p>old</p>".toList,
    "  <![endif]-->".toList, "<!-- endbuild -->".toList]
  span := ⟨0, 82⟩
  lineNumber := 1
  terminated := true

theorem extract_hollow : BlockTable.extract hollow = ⟨[hollowBlock], .lf⟩ := by
  decide

theorem find_hollowBlock :
    ConditionalComment.find (hollowBlock.text .lf) =
      some ⟨"<!--[if IE]>".toList, "<![endif]-->".toList⟩ := by
  decide

theorem emptied_hollowBlock : hollowBlock.Emptied .lf :=
  .inl (by decide)

/-- Of `hollow` the conditional comment is left, with an empty line in it. -/
theorem transform_hollow :
    Options.default.preview = false ∧
      ∃ (cuts : List Cut) (tail : Text) (c : Cut), hollow = Cut.sources cuts ++ tail ∧
        (transform hollow .default).content = Cut.results cuts ++ tail ∧ c ∈ cuts ∧
        c.splice.span = hollowBlock.span ∧
        c.splice.replacement = "<!--[if IE]>\n\n<![endif]-->".toList := by
  refine ⟨rfl, ?_⟩
  obtain ⟨cuts, tail, hsource, hcontent, _, hresolved, hforall⟩ :=
    transform_emptied (o := .default) rfl hollow
  rw [extract_hollow] at hresolved hforall
  have hmem : hollowBlock ∈ (BlockTable.mk [hollowBlock] .lf).resolved .default :=
    hresolved hollowBlock (by decide) emptied_hollowBlock
  obtain ⟨c, hc, hspan, hleft⟩ := hforall.flip.exists_of_mem_right hmem
  refine ⟨cuts, tail, c, hsource, hcontent, hc, hspan, ?_⟩
  rw [(hleft emptied_hollowBlock).2 _ find_hollowBlock]
  decide

/-- Not every block without a reference leaves only the blanks in front of its directive. -/
theorem not_all_emptied_blank :
    ¬ ∀ (document : Text) (b : Block), b ∈ (BlockTable.extract document).terminated →
      b.Emptied (BlockTable.extract document).ending →
        b.replacement? (BlockTable.extract document).ending .default = some b.indent := by
  intro hblank
  have h := hblank hollow hollowBlock
  rw [extract_hollow] at h
  exact absurd (h (by decide) emptied_hollowBlock) (by decide)

end BuildBlocks
