import BuildBlocks.Proofs.Comment.Wording
import BuildBlocks.Proofs.Manifest.Deletion
import BuildBlocks.Proofs.Manifest.References
import BuildBlocks.Proofs.Reference.Elements
import BuildBlocks.Proofs.Rewrite.Returns

/-! # Blocks that hold nothing but comments

When comments are removed nothing but blanks is left of such a block, so that it adds no asset to
a manifest.  Its reference is decided on the text with its comments: a stylesheet or script block
is replaced by blanks only if its comments mention no element of its type, and no conditional
comment is recognised in it (`transform_commented`).
-/
namespace BuildBlocks
open Text Reference

/-! ## Assets -/

namespace Asset

theorem attributeAt?_of_isBlank {c : Char} (hc : isBlank c = true) (t : Text) :
    attributeAt? (c :: t) = none := by
  have hletters : c ≠ 'h' ∧ c ≠ 's' := by
    constructor
    · rintro rfl
      exact absurd hc (by decide)
    · rintro rfl
      exact absurd hc (by decide)
  rw [attributeAt?, show "href=".toList = 'h' :: "ref=".toList from rfl,
    show "src=".toList = 's' :: "rc=".toList from rfl, after?, after?, if_neg hletters.1,
    if_neg hletters.2]
  rfl

/-- Blanks name no asset. -/
theorem ofLine_of_blanks {line : Text} (h : ∀ c ∈ line, isBlank c = true) : ofLine line = [] := by
  have hnone : search attributeAt? line = none := by
    rw [search_eq_none_iff]
    rintro u v rfl
    cases v with
    | nil => rfl
    | cons c v => exact attributeAt?_of_isBlank (h c (by simp)) v
  rw [ofLine, hnone]

end Asset

/-! ## Blocks -/

namespace Block
variable {document : Text} {b : Block} {ending : LineEnding} {o : Options} {reference : Text}

/-- Nothing but blanks is left of the inner lines when comments are removed. -/
def Commented (b : Block) : Prop :=
  Comment.LeavesBlanks (join ['\n'] b.innerLines)

/-- What the comments in the block say that are removed. -/
def comments (b : Block) : List Text :=
  Comment.bodies (join ['\n'] b.innerLines)

/-- The comments in the block mention an element of the type that it is built into. -/
def MentionsElement (b : Block) : Prop :=
  b.directive.blockType = .css ∧ (∃ body ∈ b.comments, Comment.MentionsLink body) ∨
    b.directive.blockType = .js ∧ Comment.MentionsScript b.comments

theorem Commented.ofInnerLines_eq_nil (h : b.Commented) : Asset.ofInnerLines b.innerLines = [] := by
  rw [Asset.ofInnerLines, List.flatMap_eq_nil_iff]
  intro l hl
  exact Asset.ofLine_of_blanks fun c hc => h c ((Line.infix_of_mem_lines hl).subset hc)

/-- Whether a block holds an element does not hang on the line breaks. -/
theorem elements_innerContent (hb : b ∈ (BlockTable.extract document).blocks)
    (ending : LineEnding) :
    linksStylesheet (b.innerContent ending) = linksStylesheet (join ['\n'] b.innerLines) ∧
      holdsScript (b.innerContent ending) = holdsScript (join ['\n'] b.innerLines) := by
  cases ending with
  | lf => exact ⟨rfl, rfl⟩
  | crlf =>
    have hlines : ∀ l ∈ b.innerLines, '\n' ∉ l := fun _ hl =>
      BlockTable.not_mem_of_mem_innerLines hb hl
    have hcontent : b.innerContent .crlf = withReturns (join ['\n'] b.innerLines) :=
      (withReturns_join hlines).symm
    rw [hcontent]
    exact ⟨linksStylesheet_withReturns _, holdsScript_withReturns _⟩

/-- A block of comments is deleted when these mention no element of its type. -/
theorem Commented.deleted_iff (h : b.Commented) (hb : b ∈ (BlockTable.extract document).blocks)
    (htype : b.directive.blockType = .css ∨ b.directive.blockType = .js) (ending : LineEnding) :
    b.Deleted ending ↔ ¬ b.MentionsElement := by
  obtain ⟨hlink, hscript⟩ := elements_innerContent hb ending
  rw [Deleted, MentionsElement, hlink, hscript, ← Bool.not_eq_true, ← Bool.not_eq_true,
    Comment.linksStylesheet_iff h, Comment.holdsScript_iff h]
  rcases htype with htype | htype <;> simp [htype, comments]

/-- A stylesheet or script block resolves to an empty reference when it is deleted, and only
then. -/
theorem eq_nil_iff_deleted (htype : b.directive.blockType = .css ∨ b.directive.blockType = .js)
    (hr : b.reference? ending o = some reference) : reference = [] ↔ b.Deleted ending := by
  constructor
  · rintro rfl
    rcases htype with htype | htype <;> simp only [reference?, htype, Option.some.injEq] at hr
    · cases hlink : linksStylesheet (b.innerContent ending) with
      | false => exact .inl ⟨htype, hlink⟩
      | true =>
        rw [if_pos hlink] at hr
        exact absurd hr (stylesheetTag_ne_nil _ _)
    · cases hscript : holdsScript (b.innerContent ending) with
      | false => exact .inr ⟨htype, hscript⟩
      | true =>
        rw [if_pos hscript] at hr
        exact absurd hr (scriptTag_ne_nil _ _)
  · intro h
    rw [h.reference?_eq o] at hr
    exact (Option.some.inj hr).symm

end Block

/-- **What becomes of a block of comments.**  A closed stylesheet or script block in which nothing
but blanks is left when comments are removed names no asset, so that all assets in its entry are
those of other blocks.  When a document is transformed without a preview, the blanks in front of
the directive and nothing else come in the place of the block exactly when its comments mention no
element of its type and its lines hold no conditional comment.  A block whose comments mention an
element gives way to a tag like any other. -/
theorem transform_commented {document : Text} {b : Block} {o : Options} (ho : o.preview = false)
    (hb : b ∈ (BlockTable.extract document).terminated)
    (htype : b.directive.blockType = .css ∨ b.directive.blockType = .js)
    (hcommented : b.Commented) :
    let t := BlockTable.extract document
    Asset.ofInnerLines b.innerLines = [] ∧
      (∀ e, (transform document o).manifest.get? b.key.kind b.key.manifestTarget = some e →
        ∀ asset ∈ e.assets, ∃ c ∈ t.terminated, c ≠ b ∧
          asset ∈ Asset.ofInnerLines c.innerLines) ∧
      ∃ (cuts : List Cut) (tail : Text) (c : Cut), document = Cut.sources cuts ++ tail ∧
        (transform document o).content = Cut.results cuts ++ tail ∧ c ∈ cuts ∧
        c.splice.span = b.span ∧
        (c.splice.replacement = b.indent ↔
          ¬ b.MentionsElement ∧ ConditionalComment.find (b.text t.ending) = none) ∧
        (b.MentionsElement → ∃ tag, tag <:+: c.splice.replacement ∧
          (b.directive.blockType = .css ∧
              tag = stylesheetTag b.directive.targetOrDefault b.directive.attributes ∨
            b.directive.blockType = .js ∧
              tag = scriptTag b.directive.targetOrDefault b.directive.attributes)) := by
  intro t
  have hnone := hcommented.ofInnerLines_eq_nil
  refine ⟨hnone, fun e he asset hasset => ?_, ?_⟩
  · rw [Manifest.assets_of_get?_compile he, List.mem_eraseDups] at hasset
    obtain ⟨c, hc, hnamed⟩ := List.mem_flatMap.mp hasset
    refine ⟨c, List.mem_of_mem_filter hc, ?_, hnamed⟩
    rintro rfl
    rw [hnone] at hnamed
    exact List.not_mem_nil hnamed
  · have hresolves : b.resolves t.ending o = true := by
      rcases htype with htype | htype <;> simp [Block.resolves, htype]
    obtain ⟨cuts, tail, c, hsource, hcontent, hc, hspan, hreplaces⟩ :=
      exists_cut_of_resolves hb hresolves
    obtain ⟨reference, hr⟩ : ∃ reference, b.reference? t.ending o = some reference := by
      rwa [← Option.isSome_iff_exists, ← Option.isSome_map, ← Block.replacement?,
        Block.isSome_replacement?]
    have hempty : reference = [] ↔ ¬ b.MentionsElement :=
      (Block.eq_nil_iff_deleted htype hr).trans
        (hcommented.deleted_iff (List.mem_of_mem_filter hb) htype t.ending)
    refine ⟨cuts, tail, c, hsource, hcontent, hc, hspan, ?_, fun hmentions => ?_⟩
    · rw [hreplaces.eq_indent_iff ho hr, hempty]
    · have hne : reference ≠ [] := fun h => hempty.mp h hmentions
      exact ⟨reference, hreplaces.infix ho hr, Block.tag_of_reference? htype hr hne⟩

/-- A stylesheet block with a comment that says there is no link. -/
def vendored : Text :=
  "<!-- build:css /css/vendor.css -->\n".toList ++
    "<!-- no links yet -->\n".toList ++
    "<!-- endbuild -->\n".toList

/-- The block of `vendored`. -/
def vendoredBlock : Block where
  key := ⟨"css".toList, some "/css/vendor.css".toList, none, none⟩
  directive := ⟨"css".toList, none, some "/css/vendor.css".toList, none⟩
  lines := ["<!-- build:css /css/vendor.css -->".toList, "<!-- no links yet -->".toList,
    "<!-- endbuild -->".toList]
  span := ⟨0, 74⟩
  lineNumber := 1
  terminated := true

theorem extract_vendored : BlockTable.extract vendored = ⟨[vendoredBlock], .lf⟩ := by
  decide

theorem blockType_vendoredBlock : vendoredBlock.directive.blockType = .css := by
  decide

theorem parts_vendoredBlock :
    Comment.parts (join ['\n'] vendoredBlock.innerLines) =
      [.plain [], .removed " no links yet ".toList, .plain []] := by
  decide +kernel

theorem commented_vendoredBlock : vendoredBlock.Commented := by
  have hstrip : Comment.strip (join ['\n'] vendoredBlock.innerLines) = [] := by
    rw [Comment.strip, parts_vendoredBlock]
    rfl
  intro c hc
  rw [hstrip] at hc
  exact absurd hc List.not_mem_nil

theorem mentionsElement_vendoredBlock : vendoredBlock.MentionsElement := by
  have hcomments : vendoredBlock.comments = [" no links yet ".toList] := by
    rw [Block.comments, Comment.bodies, parts_vendoredBlock]
    rfl
  refine .inl ⟨blockType_vendoredBlock, " no links yet ".toList, ?_, ?_⟩
  · rw [hcomments]
    exact List.mem_singleton_self _
  · exact ⟨" no ".toList, "link".toList, "s yet ".toList, rfl, by decide,
      "s yet --".toList, '>', [], rfl, by decide, by decide, .inl rfl⟩

/-- The block of `vendored` names no asset, and a link to its stylesheet comes in its place. -/
theorem transform_commented_vendored :
    vendoredBlock ∈ (BlockTable.extract vendored).terminated ∧ vendoredBlock.Commented ∧
      Asset.ofInnerLines vendoredBlock.innerLines = [] ∧
      ∃ (cuts : List Cut) (tail : Text) (c : Cut), vendored = Cut.sources cuts ++ tail ∧
        (transform vendored .default).content = Cut.results cuts ++ tail ∧ c ∈ cuts ∧
        c.splice.span = vendoredBlock.span ∧ c.splice.replacement ≠ vendoredBlock.indent ∧
        stylesheetTag "/css/vendor.css".toList none <:+: c.splice.replacement := by
  have hb : vendoredBlock ∈ (BlockTable.extract vendored).terminated := by
    rw [extract_vendored]
    decide
  obtain ⟨hnone, _, cuts, tail, c, hsource, hcontent, hc, hspan, hindent, htag⟩ :=
    transform_commented (o := .default) rfl hb (.inl blockType_vendoredBlock)
      commented_vendoredBlock
  refine ⟨hb, commented_vendoredBlock, hnone, cuts, tail, c, hsource, hcontent, hc, hspan,
    fun h => (hindent.mp h).1 mentionsElement_vendoredBlock, ?_⟩
  obtain ⟨tag, hinfix, ⟨_, rfl⟩ | ⟨hjs, _⟩⟩ := htag mentionsElement_vendoredBlock
  · exact hinfix
  · rw [blockType_vendoredBlock] at hjs
    cases hjs

/-- Not every block of comments is replaced by the blanks in front of its directive. -/
theorem not_all_commented_blank :
    ¬ ∀ (document : Text) (b : Block), b ∈ (BlockTable.extract document).terminated →
      b.directive.blockType = .css ∨ b.directive.blockType = .js → b.Commented →
        b.replacement? (BlockTable.extract document).ending .default = some b.indent ∧
          Asset.ofInnerLines b.innerLines = [] := by
  intro hblank
  have h := hblank vendored vendoredBlock
  rw [extract_vendored] at h
  have hreplaced := (h (by decide) (.inl blockType_vendoredBlock) commented_vendoredBlock).1
  exact absurd hreplaced (by decide)

end BuildBlocks
