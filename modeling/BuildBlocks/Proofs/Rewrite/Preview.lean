import BuildBlocks.Proofs.Block.Spans
import BuildBlocks.Proofs.Document.Concatenation
import BuildBlocks.Proofs.Document.Uniform
import BuildBlocks.Proofs.Rewrite.Repetition

/-! # What a preview leaves of a document

Without handlers a preview takes the first and the last line of each closed block of a built type
out of the document, and leaves an empty line where there is nothing between them (`left`).  In
the text this is done with splices, whose texts are put together with the line break of the
document; in a document with line breaks of one kind nothing can be told from that
(`flatMap_source_rewritten_left`), and the lines that are left are the lines of the result
(`transform_preview`).
-/
namespace BuildBlocks
open Text

/-! ## Lines that are left -/

/-- Whether the type is built in. -/
def BlockType.isBuiltIn : BlockType → Bool
  | custom _ => false
  | _ => true

theorem BlockType.exists_eq_custom {type : BlockType} (h : type.isBuiltIn = false) :
    ∃ name, type = custom name := by
  cases type with
  | custom name => exact ⟨name, rfl⟩
  | _ => cases h

namespace Block

/-- The number of the last line. -/
def lastNumber (b : Block) : Nat :=
  b.lineNumber + (b.lines.length - 1)

/-- Whether the line with this number is the first or the last one of the block. -/
def isEdge (number : Nat) (b : Block) : Bool :=
  number == b.lineNumber || number == b.lastNumber

/-- Whether a preview takes the edges of the block away: it is closed and of a built type. -/
def dissolves (b : Block) : Bool :=
  b.terminated && b.directive.blockType.isBuiltIn

/-- The inner lines, or an empty line if there are none. -/
def innerLinesOrBlank (b : Block) : List Text :=
  if b.innerLines = [] then [[]] else b.innerLines

/-- The text that a preview puts in the place of the block. -/
def previewed? (ending : LineEnding) (b : Block) : Option Text :=
  if b.dissolves then some (b.innerContent ending) else none

variable {b : Block} {n : Nat}

theorem lineNumber_le_lastNumber (b : Block) : b.lineNumber ≤ b.lastNumber :=
  Nat.le_add_right _ _

theorem isEdge_eq_false (h : n < b.lineNumber ∨ b.lastNumber < n) : b.isEdge n = false := by
  have := b.lineNumber_le_lastNumber
  simp only [isEdge, Bool.or_eq_false_iff, beq_eq_false_iff_ne]
  omega

theorem lastNumber_lt (h : b.lines ≠ []) : b.lastNumber < b.lineNumber + b.lines.length := by
  have := List.length_pos_iff.mpr h
  rw [lastNumber]
  omega

end Block

namespace Preview

/-- What is left of the line with this number when blocks lose their edges. -/
def leftOf (blocks : List Block) (number : Nat) (line : Text) : List Text :=
  match blocks.find? (Block.isEdge number) with
  | none => [line]
  | some b => if number = b.lineNumber ∧ b.innerLines = [] then [[]] else []

/-- What is left of lines, the first of which has the number `n`. -/
def left (blocks : List Block) : Nat → List Text → List Text
  | _, [] => []
  | n, line :: rest => leftOf blocks n line ++ left blocks (n + 1) rest

variable {blocks others : List Block} {n : Nat} {ls ms : List Text}

theorem left_append (blocks : List Block) (n : Nat) (ls ms : List Text) :
    left blocks n (ls ++ ms) = left blocks n ls ++ left blocks (n + ls.length) ms := by
  induction ls generalizing n with
  | nil => rfl
  | cons l ls ih =>
    rw [List.cons_append, left, ih, left, List.append_assoc, List.length_cons,
      show n + 1 + ls.length = n + (ls.length + 1) by omega]

/-- Only the edges on these lines count. -/
theorem left_congr (h : ∀ m, n ≤ m → m < n + ls.length →
      blocks.find? (Block.isEdge m) = others.find? (Block.isEdge m)) :
    left blocks n ls = left others n ls := by
  induction ls generalizing n with
  | nil => rfl
  | cons l ls ih =>
    rw [List.length_cons] at h
    rw [left, left, leftOf, leftOf, h n (Nat.le_refl n) (by omega),
      ih fun m hle hlt => h m (by omega) (by omega)]

theorem left_nil (n : Nat) (ls : List Text) : left [] n ls = ls := by
  induction ls generalizing n with
  | nil => rfl
  | cons l ls ih =>
    rw [left, ih]
    rfl

theorem find?_isEdge_eq_none (h : ∀ b ∈ blocks, n < b.lineNumber ∨ b.lastNumber < n) :
    blocks.find? (Block.isEdge n) = none :=
  List.find?_eq_none.mpr fun b hb => by simp [Block.isEdge_eq_false (h b hb)]

/-- Blocks that start behind the lines leave them alone. -/
theorem left_append_left (h : ∀ b ∈ others, n + ls.length ≤ b.lineNumber) :
    left (blocks ++ others) n ls = left blocks n ls := by
  refine left_congr fun m _ hlt => ?_
  have hnone : others.find? (Block.isEdge m) = none :=
    find?_isEdge_eq_none fun b hb => .inl (Nat.lt_of_lt_of_le hlt (h b hb))
  rw [List.find?_append, hnone, Option.or_none]

/-- So do blocks that end in front of them. -/
theorem left_append_right (h : ∀ b ∈ blocks, b.lastNumber < n) :
    left (blocks ++ others) n ls = left others n ls := by
  refine left_congr fun m hle _ => ?_
  have hnone : blocks.find? (Block.isEdge m) = none :=
    find?_isEdge_eq_none fun b hb => .inr (Nat.lt_of_lt_of_le (h b hb) hle)
  rw [List.find?_append, hnone, Option.none_or]

/-- Nothing but the lines and empty ones are left. -/
theorem eq_nil_or_mem_of_mem_left {t : Text} (h : t ∈ left blocks n ls) : t = [] ∨ t ∈ ls := by
  induction ls generalizing n with
  | nil => exact absurd h List.not_mem_nil
  | cons l ls ih =>
    rw [left] at h
    rcases List.mem_append.mp h with h | h
    · rw [leftOf] at h
      split at h
      · exact .inr (List.mem_singleton.mp h ▸ List.mem_cons_self)
      · split at h
        · exact .inl (List.mem_singleton.mp h)
        · exact absurd h List.not_mem_nil
    · exact (ih h).imp_right (List.mem_cons_of_mem l)

/-- Lines with no edge among them are left. -/
theorem left_of_not_isEdge (h : ∀ m, n ≤ m → m < n + ls.length → ∀ b ∈ blocks,
    b.isEdge m = false) : left blocks n ls = ls := by
  have hcongr : left blocks n ls = left [] n ls := left_congr fun m hle hlt =>
    List.find?_eq_none.mpr fun b hb => by simp [h m hle hlt b hb]
  rw [hcongr, left_nil]

/-- Of a block its inner lines are left. -/
theorem left_lines {b : Block} (h : b.lines ≠ []) :
    left [b] b.lineNumber b.lines = b.innerLinesOrBlank := by
  obtain ⟨first, rest, hlines⟩ := List.exists_cons_of_ne_nil h
  have hfirst : leftOf [b] b.lineNumber first = if b.innerLines = [] then [[]] else [] := by
    simp [leftOf, Block.isEdge]
  rw [hlines, left, hfirst, Block.innerLinesOrBlank]
  rcases List.eq_nil_or_concat' rest with rfl | ⟨inner, last, rfl⟩
  · simp [Block.innerLines, hlines, left]
  · have hinner : b.innerLines = inner := by simp [Block.innerLines, hlines]
    have hlast : b.lastNumber = b.lineNumber + 1 + inner.length := by
      simp only [Block.lastNumber, hlines, List.length_cons, List.length_append, List.length_nil]
      omega
    have hmiddle : left [b] (b.lineNumber + 1) inner = inner := by
      refine left_of_not_isEdge fun m hle hlt c hc => ?_
      rw [List.mem_singleton.mp hc]
      simp only [Block.isEdge, hlast, Bool.or_eq_false_iff, beq_eq_false_iff_ne]
      omega
    have hend : leftOf [b] (b.lineNumber + 1 + inner.length) last = [] := by
      have hne : b.lineNumber + 1 + inner.length ≠ b.lineNumber := by omega
      simp [leftOf, Block.isEdge, hlast, hne]
    rw [left_append, hmiddle, left, hend, hinner]
    cases inner <;> simp [left]

end Preview

theorem Passage.WellFormed.lines_block_ne_nil {p : Passage} (h : p.WellFormed)
    (offset number : Nat) (naming : Naming) : (p.block offset number naming).lines ≠ [] :=
  mt List.map_eq_nil_iff.mp h.lines_ne_nil

namespace BlockTable

/-- The lines of a block come before those of the next one. -/
theorem pairwise_lines (segs : List Segment) (offset number : Nat) (naming : Naming) :
    (ofSegments offset number naming segs).Pairwise fun a b =>
      a.lineNumber + a.lines.length ≤ b.lineNumber := by
  induction segs generalizing offset number naming with
  | nil => exact List.Pairwise.nil
  | cons s segs ih =>
    cases s with
    | plain l => exact ih _ _ _
    | passage p =>
      rw [ofSegments_passage]
      refine List.pairwise_cons.mpr ⟨fun b hb => ?_, ih _ _ _⟩
      have hnumber := number_le_of_mem_ofSegments hb
      rwa [← List.length_map Line.text] at hnumber

theorem lines_ne_nil_of_mem {document : Text} {b : Block} (hb : b ∈ (extract document).blocks) :
    b.lines ≠ [] := by
  obtain ⟨earlier, own, later, _, htakes⟩ := exists_takes hb
  obtain ⟨l, rest, hown, _⟩ := htakes.opening
  rw [htakes.lines, hown]
  exact List.cons_ne_nil _ _

theorem lastNumber_lt_of_mem_singleton {s : Segment} (hs : s.WellFormed) {offset number : Nat}
    {naming : Naming} {b : Block} (hb : b ∈ ofSegments offset number naming [s]) :
    b.lastNumber < number + s.lines.length := by
  cases hs with
  | plain _ => exact absurd hb List.not_mem_nil
  | @passage p h =>
    rw [ofSegments_passage] at hb
    obtain rfl := List.mem_singleton.mp hb
    have hlast := Block.lastNumber_lt (h.lines_block_ne_nil offset number naming)
    simpa [Passage.block, Segment.lines] using hlast

end BlockTable

/-! ## Rewritten segments -/

/-- Without handlers a preview puts the inner lines of the blocks that dissolve in their place. -/
theorem Block.successor?_of_preview {o : Options} (ho : o.handlers = .empty)
    (hpreview : o.preview = true) (b : Block) (ending : LineEnding) :
    b.successor? ending o = b.previewed? ending := by
  rw [previewed?, dissolves]
  cases hbuilt : b.directive.blockType.isBuiltIn with
  | false =>
    obtain ⟨name, htype⟩ := BlockType.exists_eq_custom hbuilt
    simp [successor?, replacement?_of_custom ho htype]
  | true =>
    -- a block of a built type has a reference, which a preview takes no notice of
    have hresolves : b.resolves ending o = true := by
      by_contra hfalse
      rw [blockType_of_not_resolves (Bool.eq_false_iff.mpr hfalse)] at hbuilt
      cases hbuilt
    rw [← isSome_replacement?, replacement?, Option.isSome_map] at hresolves
    obtain ⟨reference, hr⟩ := Option.isSome_iff_exists.mp hresolves
    simp [successor?, replacement?, hr, hpreview]

theorem Block.innerContent_append (b : Block) (ending : LineEnding) :
    b.innerContent ending ++ ending.text = b.innerLinesOrBlank.flatMap (· ++ ending.text) := by
  rw [innerContent, innerLinesOrBlank]
  split
  · rename_i hnil
    rw [hnil, List.flatMap_singleton]
    rfl
  · rename_i hne
    exact join_append_separator hne

/-- The line break of a passage, or the one that it lacks. -/
theorem Passage.lineBreak_append_missingBreak {p : Passage} {ending : LineEnding}
    (hne : p.lines ≠ []) (hdivided : Line.Divided p.lines)
    (hends : ∀ l ∈ p.lines, l.EndsWith ending) :
    p.lineBreak ++ Line.missingBreak ending p.lines = ending.text := by
  obtain ⟨earlier, last, hlines⟩ := (List.eq_nil_or_concat' p.lines).resolve_left hne
  rw [hlines] at hdivided hends
  rw [lineBreak, hlines, Line.missingBreak_append (hdivided.ended_of_append (by simp))]
  cases he : last.ending with
  | none => simp [Line.missingBreak, he]
  | some e =>
    obtain rfl := (hends last (by simp)).ending e he
    simp [Line.missingBreak, he]

namespace BlockTable
open Line (Divided missingBreak)
open Preview (left)
variable {segs : List Segment} {ending : LineEnding}

/-- What is rewritten of one segment, when its last line gets its line break, are the lines that
are left of it. -/
theorem flatMap_source_rewritten_singleton {s : Segment} (hs : s.WellFormed)
    (hdivided : Divided s.lines) (hends : ∀ l ∈ s.lines, l.EndsWith ending) (offset number : Nat)
    (naming : Naming) :
    (rewritten (Block.previewed? ending) offset number naming [s]).flatMap Segment.source ++
        missingBreak ending s.lines =
      (left ((ofSegments offset number naming [s]).filter Block.dissolves) number
        (s.lines.map Line.text)).flatMap (· ++ ending.text) := by
  have hkept := Line.flatMap_source_append_missingBreak hdivided hends
  cases hs with
  | @plain l _ =>
    have hleft : left ((ofSegments offset number naming [.plain l]).filter Block.dissolves) number
        ((Segment.plain l).lines.map Line.text) = (Segment.plain l).lines.map Line.text :=
      Preview.left_nil _ _
    rw [hleft, ← hkept, rewritten, rewritten, List.flatMap_singleton]
    rfl
  | @passage p h =>
    rw [ofSegments_passage, ofSegments, rewritten, rewritten, List.append_nil, Block.previewed?]
    cases hd : (p.block offset number naming).dissolves with
    | false =>
      rw [List.filter_cons_of_neg (by simp [hd]), List.filter_nil, Preview.left_nil, ← hkept,
        if_neg Bool.false_ne_true, List.flatMap_singleton]
      rfl
    | true =>
      have hleft : left [p.block offset number naming] number
          ((Segment.passage p).lines.map Line.text) =
            (p.block offset number naming).innerLinesOrBlank :=
        Preview.left_lines (h.lines_block_ne_nil offset number naming)
      have hbreak : p.lineBreak ++ missingBreak ending (Segment.passage p).lines = ending.text :=
        Passage.lineBreak_append_missingBreak h.lines_ne_nil hdivided hends
      rw [List.filter_cons_of_pos hd, List.filter_nil, hleft, if_pos rfl]
      simp only [Segment.flatMap_source_map_plain, Line.flatMap_source_lines]
      rw [List.append_assoc, hbreak, Block.innerContent_append]

/-- What is rewritten of segments, when the last line gets its line break, are the lines that are
left of them. -/
theorem flatMap_source_rewritten_left (hsegs : ∀ s ∈ segs, s.WellFormed)
    (hdivided : Divided (segs.flatMap Segment.lines))
    (hends : ∀ l ∈ segs.flatMap Segment.lines, l.EndsWith ending) (offset number : Nat)
    (naming : Naming) :
    (rewritten (Block.previewed? ending) offset number naming segs).flatMap Segment.source ++
        missingBreak ending (segs.flatMap Segment.lines) =
      (left ((ofSegments offset number naming segs).filter Block.dissolves) number
        ((segs.flatMap Segment.lines).map Line.text)).flatMap (· ++ ending.text) := by
  induction segs generalizing offset number naming with
  | nil => rfl
  | cons s segs ih =>
    obtain ⟨hs, hsegs⟩ := List.forall_mem_cons.mp hsegs
    rw [List.flatMap_cons] at hdivided hends ⊢
    have hhead := flatMap_source_rewritten_singleton hs hdivided.left
      (fun l hl => hends l (List.mem_append_left _ hl)) offset number naming
    by_cases hnil : segs = []
    · subst hnil
      simpa using hhead
    · -- lines follow, so the segment lacks no line break
      have hended : ∀ l ∈ s.lines, l.ending ≠ none :=
        hdivided.ended_of_append (Segment.flatMap_lines_ne_nil hsegs hnil)
      rw [Line.missingBreak_of_ended hended, List.append_nil] at hhead
      have htail := ih hsegs hdivided.right fun l hl => hends l (List.mem_append_right _ hl)
      rw [← List.singleton_append, rewritten_append, ofSegments_append, List.flatMap_singleton,
        List.flatMap_singleton, Line.missingBreak_append hended, List.flatMap_append,
        List.append_assoc, htail, hhead, List.map_append, Preview.left_append, List.flatMap_append,
        List.filter_append, List.length_map]
      -- neither have later blocks edges in the segment nor its own block edges behind it
      rw [Preview.left_append_left fun b hb => ?_, Preview.left_append_right fun b hb => ?_]
      · exact lastNumber_lt_of_mem_singleton hs (List.mem_of_mem_filter hb)
      · rw [List.length_map]
        exact number_le_of_mem_ofSegments (List.mem_of_mem_filter hb)

/-- The blocks that a preview takes the edges away from, in the order of the document. -/
def dissolved (t : BlockTable) : List Block :=
  t.blocks.filter Block.dissolves

theorem lastNumber_le_of_mem {document : Text} {b : Block} (hb : b ∈ (extract document).blocks) :
    b.lastNumber ≤ (Line.lines document).length := by
  obtain ⟨earlier, own, later, hlines, htakes⟩ := exists_takes hb
  have hlast := Block.lastNumber_lt (lines_ne_nil_of_mem hb)
  rw [htakes.lineNumber, htakes.lines, List.length_map] at hlast
  rw [hlines, List.length_append, List.length_append]
  omega

/-- A preview leaves the inner lines of a block that dissolves, and all lines of any other. -/
theorem left_dissolved_lines {document : Text} {b : Block}
    (hb : b ∈ (extract document).blocks) :
    left (extract document).dissolved b.lineNumber b.lines =
      if b.dissolves then b.innerLinesOrBlank else b.lines := by
  obtain ⟨before, after, hsplit⟩ := List.append_of_mem hb
  have hpairwise : (before ++ b :: after).Pairwise fun c d =>
      c.lineNumber + c.lines.length ≤ d.lineNumber := by
    rw [← hsplit]
    exact pairwise_lines _ _ _ _
  obtain ⟨_, hafter, hbefore⟩ := List.pairwise_append.mp hpairwise
  have hfirst : ∀ c ∈ before.filter Block.dissolves, c.lastNumber < b.lineNumber := by
    intro c hc
    have hmem : c ∈ before := List.mem_of_mem_filter hc
    have hlines : c.lines ≠ [] :=
      lines_ne_nil_of_mem (hsplit ▸ List.mem_append_left _ hmem : c ∈ (extract document).blocks)
    exact Nat.lt_of_lt_of_le (Block.lastNumber_lt hlines) (hbefore c hmem b List.mem_cons_self)
  have hrest : ∀ c ∈ after.filter Block.dissolves, b.lineNumber + b.lines.length ≤ c.lineNumber :=
    fun c hc => (List.pairwise_cons.mp hafter).1 c (List.mem_of_mem_filter hc)
  rw [dissolved, hsplit, List.filter_append, Preview.left_append_right hfirst, List.filter_cons]
  split
  · rw [← List.singleton_append, Preview.left_append_left hrest,
      Preview.left_lines (lines_ne_nil_of_mem hb)]
  · rw [← List.nil_append (after.filter _), Preview.left_append_left hrest, Preview.left_nil]

end BlockTable

/-! ## The lines of a preview -/

/-- The lines that a preview leaves of a document. -/
def Preview.kept (document : Text) : List Text :=
  left (BlockTable.extract document).dissolved 1 (Line.betweenBreaks document)

/-- The empty line behind a line break at the end is among them. -/
theorem Preview.kept_eq (document : Text) :
    kept document =
      left (BlockTable.extract document).dissolved 1 ((Line.lines document).map Line.text) ++
        Line.endBlank (Line.lines document) := by
  rw [kept, Line.betweenBreaks_eq, left_append, List.length_map]
  congr 1
  refine left_of_not_isEdge fun m hm _ b hb => ?_
  have hlast := BlockTable.lastNumber_le_of_mem (List.mem_of_mem_filter hb)
  exact Block.isEdge_eq_false (.inr (by omega))

/-- The content of a preview is put together from the lines that are left, and there is one. -/
theorem content_preview {document : Text} {o : Options} (ho : o.handlers = .empty)
    (hpreview : o.preview = true) (huniform : document.Uniform) :
    Preview.kept document ≠ [] ∧
      (transform document o).content =
        join (LineEnding.detect document).text (Preview.kept document) := by
  have hchosen : (fun b : Block => b.successor? (.detect document) o) =
      Block.previewed? (.detect document) :=
    funext fun b => b.successor?_of_preview ho hpreview _
  have hlines : (Segment.ofDocument document).flatMap Segment.lines = Line.lines document :=
    Segment.flatMap_lines_ofDocument document
  have hrewritten := BlockTable.flatMap_source_rewritten_left
    (fun _ => Segment.wellFormed_ofDocument) (divided_ofDocument document)
    (fun l hl => Line.endsWith_detect huniform (hlines ▸ hl)) 0 1 .initial
  rw [hlines] at hrewritten
  rw [content_eq_flatMap_rewrittenSegments, rewrittenSegments, hchosen, Preview.kept_eq]
  exact Line.eq_join_of_append_missingBreak hrewritten

/-- **A preview takes lines out of a document.**  Without handlers a document with line breaks of
one kind is previewed by taking the directive line and the end marker line of each closed block of
a built type away.  What is left are the lines of the result, with the line breaks of the document
between them.  A block that dissolves leaves its inner lines, or one empty line if it has none;
every other block leaves all its lines, as do the lines that belong to no block. -/
theorem transform_preview {document : Text} {o : Options} (ho : o.handlers = .empty)
    (hpreview : o.preview = true) (huniform : document.Uniform) :
    let t := BlockTable.extract document
    let lines := Line.betweenBreaks document
    let kept := Preview.kept document
    document = join t.ending.text lines ∧
      (transform document o).content = join t.ending.text kept ∧
      Line.betweenBreaks (transform document o).content = kept ∧
      kept = Preview.left t.dissolved 1 lines ∧
      ∀ b ∈ t.blocks, ∃ earlier later, lines = earlier ++ b.lines ++ later ∧
        b.lineNumber = earlier.length + 1 ∧
        kept = Preview.left t.dissolved 1 earlier ++
          (if b.dissolves then b.innerLinesOrBlank else b.lines) ++
          Preview.left t.dissolved (b.lineNumber + b.lines.length) later := by
  intro t lines kept
  obtain ⟨hne, hcontent⟩ := content_preview ho hpreview huniform
  refine ⟨Line.join_betweenBreaks huniform, hcontent, ?_, rfl, fun b hb => ?_⟩
  · rw [hcontent]
    refine Line.betweenBreaks_join hne (fun line hline => ?_) _
    rcases Preview.eq_nil_or_mem_of_mem_left hline with rfl | hline
    · exact ⟨List.not_mem_nil, List.not_mem_nil⟩
    · exact Line.not_mem_of_mem_betweenBreaks huniform hline
  · obtain ⟨earlier, own, later, hlines, htakes⟩ := BlockTable.exists_takes hb
    have hsplit : lines = earlier.map Line.text ++ b.lines ++
        (later.map Line.text ++ Line.endBlank (Line.lines document)) := by
      show Line.betweenBreaks document = _
      rw [Line.betweenBreaks_eq, htakes.lines, hlines]
      simp only [List.map_append, List.append_assoc]
    have hnumber : 1 + (earlier.map Line.text).length = b.lineNumber := by
      rw [htakes.lineNumber, List.length_map, Nat.add_comm]
    refine ⟨_, _, hsplit, by rw [← hnumber, Nat.add_comm], ?_⟩
    show Preview.left t.dissolved 1 lines = _
    rw [hsplit, Preview.left_append, Preview.left_append, List.length_append, ← Nat.add_assoc,
      hnumber, BlockTable.left_dissolved_lines hb]

/-- A script block with two lines in it, a stylesheet block on one line, a block to be dropped
without a line in it, a block of another type, and a block that nothing closes. -/
def brochure : Text :=
  withReturns <|
    "<!-- build:js app.js -->\n".toList ++
      "<script src=\"a.js\"></script>\n".toList ++
      "\n".toList ++
      "<!-- endbuild -->\n".toList ++
      "<!-- build:css --><!-- endbuild -->\n".toList ++
      "<!-- build:remove -->\n".toList ++
      "<!-- endbuild -->\n".toList ++
      "<!-- build:img -->\n".toList ++
      "<!-- endbuild -->\n".toList ++
      "<!-- build:js -->".toList

/-- Of the first block of `brochure` two lines are left, of each of the next two an empty one, and
the others stay. -/
theorem transform_preview_brochure :
    let o := Options.default.withPreview true
    let kept := ["<script src=\"a.js\"></script>".toList, [], [], [], "<!-- build:img -->".toList,
      "<!-- endbuild -->".toList, "<!-- build:js -->".toList]
    o.handlers = .empty ∧ o.preview = true ∧ brochure.Uniform ∧ Preview.kept brochure = kept ∧
      (transform brochure o).content = join LineEnding.crlf.text kept ∧
      Line.betweenBreaks (transform brochure o).content = kept := by
  intro o kept
  have huniform : brochure.Uniform := .inr (paired_withReturns (by decide))
  have hkept : Preview.kept brochure = kept := by decide
  have hending : (BlockTable.extract brochure).ending = .crlf := by decide
  obtain ⟨_, hcontent, hbetween, _⟩ := transform_preview (o := o) rfl rfl huniform
  rw [hkept] at hcontent hbetween
  rw [hending] at hcontent
  exact ⟨rfl, rfl, huniform, hkept, hcontent, hbetween⟩

end BuildBlocks
