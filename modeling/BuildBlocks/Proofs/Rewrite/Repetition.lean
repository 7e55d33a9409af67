import BuildBlocks.Proofs.Block.Silencing
import BuildBlocks.Proofs.Directive.Recognition
import BuildBlocks.Proofs.Manifest.Sharing
import BuildBlocks.Proofs.Rewrite.Copying

/-! # Transforming a document again

Without handlers only custom blocks are left in a document after its transformation.  What is
put in the place of the others is plain: inner lines hold no directive, and a reference holds
`build:` only when it copies it out of its block.  The rewritten segments are therefore the
segments of the transformed document (`ofDocument_content`), and transforming it again changes
nothing (`transform_transform`).
-/
namespace BuildBlocks
open Text

/-- Two blocks that are made of the same lines. -/
structure Block.Recurs (b c : Block) : Prop where
  directive : c.directive = b.directive
  lines : c.lines = b.lines
  terminated : c.terminated = b.terminated

/-! ## What is put in is plain -/

namespace BlockTable

/-- The text that comes in the place of a closed block brings no directive with it, and none
arises where it meets the line break behind the block. -/
theorem plain_of_replacement? {document : Text} {o : Options} {b : Block} {text : Text}
    (hb : b ∈ (extract document).blocks) (ht : b.terminated = true) (ho : o.handlers = .empty)
    (hcopies : o.preview = false →
      ∀ t, b.Copies (extract document).ending o t → ¬ "build:".toList <:+: t)
    (htext : b.replacement? (extract document).ending o = some text)
    (last : Option LineEnding) : Plain (text ++ last.elim [] LineEnding.text) := by
  have hreplaces := Block.replaces_of_replacement? htext
  cases hpreview : o.preview with
  | false =>
    have hfree := Block.not_infix_of_replaces ho hpreview (hcopies hpreview) hreplaces
    exact Plain.of_not_isInfix (not_infix_append_lineBreak hfree last)
  | true =>
    obtain ⟨reference, hr, rfl⟩ := Option.map_eq_some_iff.mp htext
    rw [hpreview, if_pos rfl]
    obtain ⟨i, hi⟩ := Extraction.exists_openedAt hb
    refine Plain.join (fun l hl => ⟨?_, (hi.inner ht hl).1⟩) _ last
    exact not_mem_of_mem_innerLines hb hl

/-! ## The rewritten segments -/

/-- A text in the place of a passage ends with a line feed when the passage does. -/
theorem getLast?_append_lineBreak {p : Passage} (hp : p.WellFormed)
    (hended : ∀ l ∈ p.lines, l.ending ≠ none) (text : Text) :
    (text ++ p.lineBreak).getLast? = some '\n' := by
  obtain ⟨earlier, last, hlines, _⟩ := hp.closing
  have hlast : last ∈ p.lines := by simp [hlines]
  obtain ⟨ending, hending⟩ := Option.ne_none_iff_exists'.mp (hended last hlast)
  rw [Passage.lineBreak, hlines, List.getLast?_concat, Option.bind_some, hending]
  cases ending <;> simp [LineEnding.text]

variable {chosen : Block → Option Text} {segs : List Segment}

/-- Rewriting keeps the blocks that are not chosen, and makes no others. -/
theorem forall₂_recurs (chosen : Block → Option Text) (segs : List Segment)
    (offset offset' number number' : Nat) (naming naming' : Naming) :
    List.Forall₂ Block.Recurs
      ((ofSegments offset number naming segs).filter fun b => (chosen b).isNone)
      (ofSegments offset' number' naming' (rewritten chosen offset number naming segs)) := by
  induction segs generalizing offset offset' number number' naming naming' with
  | nil => exact .nil
  | cons s segs ih =>
    cases s with
    | plain l => exact ih _ _ _ _ _ _
    | passage p =>
      rw [ofSegments_passage, rewritten]
      cases hchosen : chosen (p.block offset number naming) with
      | none =>
        rw [List.filter_cons_of_pos (by rw [hchosen]; rfl), List.singleton_append,
          ofSegments_passage]
        exact .cons ⟨rfl, rfl, rfl⟩ (ih _ _ _ _ _ _)
      | some text =>
        rw [List.filter_cons_of_neg (by simp [hchosen]), ofSegments_map_plain]
        exact ih _ _ _ _ _ _

/-- Rewriting keeps segments well formed, as long as every block is closed and the texts that
are chosen are plain. -/
theorem wellFormed_rewritten (hsegs : ∀ s ∈ segs, s.WellFormed) {offset number : Nat}
    {naming : Naming}
    (hclosed : ∀ b ∈ ofSegments offset number naming segs, b.terminated = true)
    (hplain : ∀ b ∈ ofSegments offset number naming segs, ∀ text, chosen b = some text →
      ∀ last : Option LineEnding, Plain (text ++ last.elim [] LineEnding.text)) :
    ∀ s ∈ rewritten chosen offset number naming segs, s.WellFormed ∧ s.settled = true := by
  induction segs generalizing offset number naming with
  | nil => exact fun s hs => absurd hs List.not_mem_nil
  | cons s segs ih =>
    have hrest : ∀ t ∈ segs, t.WellFormed := fun t ht => hsegs t (List.mem_cons_of_mem _ ht)
    cases hsegs s List.mem_cons_self with
    | plain h =>
      intro t ht
      rcases List.mem_cons.mp ht with rfl | ht
      · exact ⟨.plain h, rfl⟩
      · exact ih hrest hclosed hplain t ht
    | @passage p h =>
      rw [ofSegments_passage] at hclosed hplain
      obtain ⟨hp, hclosed⟩ := List.forall_mem_cons.mp hclosed
      obtain ⟨hpplain, hplain⟩ := List.forall_mem_cons.mp hplain
      intro t ht
      rcases List.mem_append.mp ht with ht | ht
      · cases hchosen : chosen (p.block offset number naming) with
        | none =>
          rw [hchosen] at ht
          rw [List.mem_singleton.mp ht]
          exact ⟨.passage h, hp⟩
        | some text =>
          rw [hchosen] at ht
          obtain ⟨l, hl, rfl⟩ := List.mem_map.mp ht
          exact ⟨.plain (hpplain text hchosen _ l hl), rfl⟩
      · exact ih hrest hclosed hplain t ht

/-- The lines of rewritten segments are again the lines of a document. -/
theorem divided_rewritten (chosen : Block → Option Text) (hsegs : ∀ s ∈ segs, s.WellFormed)
    (hdivided : Line.Divided (segs.flatMap Segment.lines)) (offset number : Nat)
    (naming : Naming) :
    Line.Divided ((rewritten chosen offset number naming segs).flatMap Segment.lines) := by
  induction segs generalizing offset number naming with
  | nil => exact hdivided
  | cons s segs ih =>
    have hrest : ∀ t ∈ segs, t.WellFormed := fun t ht => hsegs t (List.mem_cons_of_mem _ ht)
    rw [List.flatMap_cons] at hdivided
    have hlater := ih hrest hdivided.right
    -- segments that others follow end with a line break
    have hended : ∀ offset number naming,
        (rewritten chosen offset number naming segs).flatMap Segment.lines ≠ [] →
          ∀ l ∈ s.lines, l.ending ≠ none := by
      intro offset number naming hne
      refine hdivided.ended_of_append (Segment.flatMap_lines_ne_nil hrest ?_)
      rintro rfl
      exact hne rfl
    cases hsegs s List.mem_cons_self with
    | plain h =>
      rw [rewritten, List.flatMap_cons]
      exact hdivided.left.append (hlater _ _ _) (hended _ _ _)
    | @passage p h =>
      rw [rewritten, List.flatMap_append]
      cases hchosen : chosen (p.block offset number naming) with
      | none =>
        rw [List.flatMap_singleton]
        exact hdivided.left.append (hlater _ _ _) (hended _ _ _)
      | some text =>
        have hlines : ((Line.lines (text ++ p.lineBreak)).map Segment.plain).flatMap
            Segment.lines = Line.lines (text ++ p.lineBreak) := by
          rw [List.flatMap_map]
          exact List.flatMap_singleton' _
        rw [hlines]
        refine (Line.divided_lines _).append (hlater _ _ _) fun hne => Line.ended_lines ?_
        exact getLast?_append_lineBreak h (hended _ _ _ hne) text

end BlockTable

/-- The segments of a transformed document are the rewritten ones, when these are well formed
and closed. -/
theorem ofDocument_content {document : Text} {o : Options}
    (h : ∀ s ∈ rewrittenSegments document o, s.WellFormed ∧ s.settled = true) :
    Segment.ofDocument (transform document o).content = rewrittenSegments document o := by
  have hsource : (transform document o).content =
      ((rewrittenSegments document o).flatMap Segment.lines).flatMap Line.source := by
    rw [content_eq_flatMap_rewrittenSegments]
    exact List.flatMap_assoc.symm
  have hdivided : Line.Divided ((rewrittenSegments document o).flatMap Segment.lines) :=
    BlockTable.divided_rewritten _ (fun _ => Segment.wellFormed_ofDocument)
      (divided_ofDocument document) 0 1 .initial
  rw [Segment.ofDocument, hsource, Line.lines_flatMap_source hdivided]
  exact Segment.ofLines_flatMap_lines (fun s hs => (h s hs).1) (fun s hs => (h s hs).2)

/-! ## The second transformation -/

theorem unterminated_eq_nil_iff {document : Text} {o : Options} :
    (transform document o).unterminated = [] ↔
      ∀ b ∈ (BlockTable.extract document).blocks, b.terminated = true := by
  show ((BlockTable.extract document).blocks.filter (!·.terminated)).map _ = [] ↔ _
  rw [List.map_eq_nil_iff, List.filter_eq_nil_iff]
  simp

namespace Block
variable {b : Block} {ending : LineEnding} {o : Options}

/-- Only a custom block can be left in place. -/
theorem blockType_of_not_resolves (h : b.resolves ending o = false) :
    b.directive.blockType = .custom b.directive.kind := by
  rw [resolves] at h
  split at h
  · rename_i name htype
    rw [Directive.blockType, BlockType.ofName] at htype ⊢
    split_ifs at htype ⊢
    rfl
  · cases h

/-- Without handlers a custom block does not give way to another text. -/
theorem replacement?_of_custom (ho : o.handlers = .empty) {name : Text}
    (h : b.directive.blockType = .custom name) : b.replacement? ending o = none := by
  rw [← Option.not_isSome_iff_eq_none, isSome_replacement?, resolves, h, ho]
  exact Bool.false_ne_true

end Block

/-- A document of closed custom blocks stays as it is when there are no handlers, and its manifest
lists these blocks. -/
theorem transform_of_custom {document : Text} {o : Options} (ho : o.handlers = .empty)
    (hcustom : ∀ c ∈ (BlockTable.extract document).blocks,
      c.terminated = true ∧ c.directive.blockType = .custom c.directive.kind) :
    (transform document o).content = document ∧ (transform document o).unterminated = [] ∧
      ∀ kind target, ((transform document o).manifest.get? kind target).isSome = true ↔
        ∃ c ∈ (BlockTable.extract document).blocks,
          c.directive.kind = kind ∧ c.key.manifestTarget = target := by
  refine ⟨?_, unterminated_eq_nil_iff.mpr fun c hc => (hcustom c hc).1, fun kind target => ?_⟩
  · have hsplices : (BlockTable.extract document).splices o = [] := by
      refine List.filterMap_eq_nil_iff.mpr fun c hc => ?_
      rw [Block.replacement?_of_custom ho (hcustom c (List.mem_of_mem_filter hc)).2]
      rfl
    show (Splice.apply ((BlockTable.extract document).splices o) document).getD document = document
    rw [hsplices, Splice.apply_nil, Option.getD_some]
  · have hkind : ∀ c ∈ (BlockTable.extract document).blocks, c.key.kind = c.directive.kind :=
      fun c hc =>
        congrArg BlockKey.kind (BlockTable.key_eq_of_kept hc (by rw [(hcustom c hc).2]; simp))
    show ((Manifest.compile (BlockTable.extract document)).get? kind target).isSome = true ↔ _
    rw [Manifest.isSome_get?_compile]
    constructor
    · rintro ⟨c, hc, hckind, hctarget⟩
      have hmem : c ∈ (BlockTable.extract document).blocks := List.mem_of_mem_filter hc
      exact ⟨c, hmem, (hkind c hmem).symm.trans hckind, hctarget⟩
    · rintro ⟨c, hc, hckind, hctarget⟩
      exact ⟨c, List.mem_filter.mpr ⟨hc, (hcustom c hc).1⟩, (hkind c hc).trans hckind, hctarget⟩

/-- The blocks of a transformed document are those that were left in place. -/
theorem forall₂_recurs_content {document : Text} {o : Options} (ho : o.handlers = .empty)
    (hclosed : (transform document o).unterminated = [])
    (hcopies : o.preview = false → ∀ b ∈ (BlockTable.extract document).blocks, ∀ text,
      b.Copies (BlockTable.extract document).ending o text → ¬ "build:".toList <:+: text) :
    List.Forall₂ Block.Recurs
      ((BlockTable.extract document).blocks.filter fun b =>
        !b.resolves (BlockTable.extract document).ending o)
      (BlockTable.extract (transform document o).content).blocks := by
  have hterminated := unterminated_eq_nil_iff.mp hclosed
  have hsegments : Segment.ofDocument (transform document o).content =
      rewrittenSegments document o := by
    refine ofDocument_content (BlockTable.wellFormed_rewritten
      (fun _ => Segment.wellFormed_ofDocument) hterminated fun b hb text htext => ?_)
    rw [Block.successor?_of_terminated (hterminated b hb)] at htext
    exact BlockTable.plain_of_replacement? hb (hterminated b hb) ho (fun h => hcopies h b hb) htext
  have hkept := BlockTable.forall₂_recurs (fun b => b.successor? (.detect document) o)
    (Segment.ofDocument document) 0 0 1 1 .initial .initial
  rw [BlockTable.extract, BlockTable.extract, hsegments]
  refine (List.filter_congr fun b hb => ?_) ▸ hkept
  rw [Block.successor?_of_terminated (hterminated b hb), ← Option.not_isSome,
    Block.isSome_replacement?]

/-- **Transforming a document again changes nothing.**  Take options without handlers and a
document in which every block is closed, and say that what is copied into references, if these
are written, holds no `build:`.  The blocks of the transformed document are then the custom
blocks that were left in place; transforming it returns the same content, reports no block as
open, and lists these blocks and no others. -/
theorem transform_transform {document : Text} {o : Options} (ho : o.handlers = .empty)
    (hclosed : (transform document o).unterminated = [])
    (hcopies : o.preview = false → ∀ b ∈ (BlockTable.extract document).blocks, ∀ text,
      b.Copies (BlockTable.extract document).ending o text → ¬ "build:".toList <:+: text) :
    let first := transform document o
    let second := transform first.content o
    let t := BlockTable.extract document
    let left := (BlockTable.extract first.content).blocks
    second.content = first.content ∧ second.unterminated = [] ∧
      List.Forall₂ Block.Recurs (t.blocks.filter fun b => !b.resolves t.ending o) left ∧
      (∀ c ∈ left, c.directive.blockType = .custom c.directive.kind) ∧
      ∀ kind target, (second.manifest.get? kind target).isSome = true ↔
        ∃ c ∈ left, c.directive.kind = kind ∧ c.key.manifestTarget = target := by
  intro first second t left
  have hrecurs : List.Forall₂ Block.Recurs
      (t.blocks.filter fun b => !b.resolves t.ending o) left :=
    forall₂_recurs_content ho hclosed hcopies
  -- what is left did not resolve, so it is custom
  have hcustom : ∀ c ∈ left, c.terminated = true ∧
      c.directive.blockType = .custom c.directive.kind := by
    intro c hc
    obtain ⟨b, hb, hbc⟩ := hrecurs.exists_of_mem_right hc
    obtain ⟨hb, hresolves⟩ := List.mem_filter.mp hb
    rw [hbc.terminated, hbc.directive]
    exact ⟨unterminated_eq_nil_iff.mp hclosed b hb,
      Block.blockType_of_not_resolves (by simpa using hresolves)⟩
  obtain ⟨hcontent, hunterminated, hlisted⟩ := transform_of_custom ho hcustom
  exact ⟨hcontent, hunterminated, hrecurs, fun c hc => (hcustom c hc).2, hlisted⟩

/-- A stylesheet block with attributes and a conditional comment, and a custom block. -/
def composed : Text :=
  "  <!-- build:css site.css media=\"all\" -->\n".toList ++
    "  <!--[if IE]>\n".toList ++
    "  <link href=\"a.css\">\n".toList ++
    "  <![endif]-->\n".toList ++
    "  <!-- endbuild -->\n".toList ++
    "<!-- build:tpl -->\n".toList ++
    "<p></p>\n".toList ++
    "<!-- endbuild -->\n".toList

/-- The stylesheet block of `composed`. -/
def stylesheetBlock : Block where
  key := ⟨"css".toList, some "site.css".toList, some "media=\"all\"".toList, none⟩
  directive := ⟨"css".toList, none, some "site.css".toList, some "media=\"all\"".toList⟩
  lines := ["  <!-- build:css site.css media=\"all\" -->".toList, "  <!--[if IE]>".toList,
    "  <link href=\"a.css\">".toList, "  <![endif]-->".toList, "  <!-- endbuild -->".toList]
  span := ⟨0, 113⟩
  lineNumber := 1
  terminated := true

/-- The custom block of `composed`. -/
def templateBlock : Block where
  key := ⟨"tpl".toList, none, none, none⟩
  directive := ⟨"tpl".toList, none, none, none⟩
  lines := ["<!-- build:tpl -->".toList, "<p></p>".toList, "<!-- endbuild -->".toList]
  span := ⟨114, 158⟩
  lineNumber := 6
  terminated := true

set_option maxRecDepth 4000 in
theorem extract_composed :
    BlockTable.extract composed = ⟨[stylesheetBlock, templateBlock], .lf⟩ := by
  decide

theorem reference?_templateBlock : templateBlock.reference? .lf .default = none := by
  decide

theorem find_stylesheetBlock :
    ConditionalComment.find (stylesheetBlock.text .lf) =
      some ⟨"<!--[if IE]>".toList, "<![endif]-->".toList⟩ := by
  decide

/-- The reference of `composed` copies three texts out of its block. -/
theorem not_infix_of_copies_composed {b : Block} (hb : b ∈ [stylesheetBlock, templateBlock])
    {text : Text} (h : b.Copies .lf .default text) : ¬ "build:".toList <:+: text := by
  simp only [List.mem_cons, List.not_mem_nil, or_false] at hb
  rcases hb with rfl | rfl
  · cases h with
    | target => decide
    | attributes _ _ ha =>
      obtain rfl := Option.some.inj ha
      decide
    | opener _ hc =>
      rw [find_stylesheetBlock] at hc
      obtain rfl := Option.some.inj hc
      decide
  · -- a custom block has no reference
    cases h with
    | target hr _ => rw [reference?_templateBlock] at hr; cases hr
    | attributes hr _ _ => rw [reference?_templateBlock] at hr; cases hr
    | opener hr _ => rw [reference?_templateBlock] at hr; cases hr

set_option maxRecDepth 4000 in
/-- Of `composed` the custom block is left, and it is left again. -/
theorem transform_transform_composed :
    let first := transform composed .default
    let second := transform first.content .default
    first.content =
        "  <!--[if IE]>\n".toList ++
          "  <link rel=\"stylesheet\" href=\"site.css\" media=\"all\">\n".toList ++
          "  <![endif]-->\n".toList ++
          "<!-- build:tpl -->\n".toList ++
          "<p></p>\n".toList ++
          "<!-- endbuild -->\n".toList ∧
      second.content = first.content ∧ second.unterminated = [] ∧
      List.Forall₂ Block.Recurs [templateBlock] (BlockTable.extract first.content).blocks := by
  intro first second
  have hclosed : (transform composed .default).unterminated = [] := by
    rw [unterminated_eq_nil_iff, extract_composed]
    decide
  have hleft : ((BlockTable.extract composed).blocks.filter fun b =>
      !b.resolves (BlockTable.extract composed).ending .default) = [templateBlock] := by
    rw [extract_composed]
    decide
  obtain ⟨hcontent, hunterminated, hrecurs, _⟩ :=
    transform_transform (o := .default) rfl hclosed fun _ b hb text htext => by
      rw [extract_composed] at hb htext
      exact not_infix_of_copies_composed hb htext
  rw [hleft] at hrecurs
  refine ⟨?_, hcontent, hunterminated, hrecurs⟩
  show (transform composed .default).content = _
  rw [content_eq_flatMap_rewrittenSegments]
  decide

end BuildBlocks
