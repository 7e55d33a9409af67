import BuildBlocks.Proofs.Options.Registry
import BuildBlocks.Proofs.Rewrite.Frame

/-! # Which blocks a handler can change

The closed blocks of a document and the gaps between them do not hang on options
(`exists_stretches`); options tell what comes in the place of each block, and of the handlers only
the one of the block's own type has a say in that (`Block.replacement?_congr`).  Which handler
this is after any number of changes to options, the changes themselves tell: the last one
registered counts (`get?_configure`).  The main statement is `transform_register`.
-/
namespace BuildBlocks
open Text

/-! ## Changes to options -/

namespace Options

/-- A change to options. -/
inductive Change where
  /-- A handler is registered for a type. -/
  | handler (kind : Text) (handler : Handler)
  /-- The preview is turned on or off. -/
  | preview (on : Bool)

/-- The options after a change, unless it is refused. -/
def change (o : Options) : Change → Except HandlerError Options
  | .handler kind handler => o.register kind handler
  | .preview on => .ok (o.withPreview on)

/-- The options after changes, unless one of them is refused. -/
def configure (o : Options) : List Change → Except HandlerError Options
  | [] => .ok o
  | c :: rest => (o.change c).bind fun o => o.configure rest

/-- The handler that a change registers for the type. -/
def Change.handlerFor? (kind : Text) : Change → Option Handler
  | .handler kind' registered => if kind' = kind then some registered else none
  | .preview _ => none

/-- The handler that changes leave for the type: the last one that they register. -/
def lastHandler? (kind : Text) (changes : List Change) : Option Handler :=
  (changes.filterMap (Change.handlerFor? kind)).getLast?

variable {o o' : Options} {c : Change} {changes : List Change} {kind : Text}

theorem lastHandler?_cons (kind : Text) (c : Change) (changes : List Change) :
    lastHandler? kind (c :: changes) =
      (lastHandler? kind changes).or (c.handlerFor? kind) := by
  rw [lastHandler?, lastHandler?, List.filterMap_cons]
  cases c.handlerFor? kind with
  | none => simp
  | some handler => exact List.getLast?_cons.trans (by cases (changes.filterMap _).getLast? <;> rfl)

theorem get?_change (h : o.change c = .ok o') (kind : Text) :
    o'.handlers.get? kind = (c.handlerFor? kind).or (o.handlers.get? kind) := by
  cases c with
  | handler kind' handler =>
    rw [(of_register_eq_ok h).2.2.2, Change.handlerFor?]
    split <;> rfl
  | preview on =>
    obtain rfl := Except.ok.inj h
    rfl

/-- Of changes that are not refused the first one is not, and neither are the others after it. -/
theorem of_configure_cons (h : o.configure (c :: changes) = .ok o') :
    ∃ p, o.change c = .ok p ∧ p.configure changes = .ok o' := by
  rw [configure] at h
  cases hc : o.change c with
  | error e =>
    rw [hc] at h
    cases h
  | ok p =>
    rw [hc] at h
    exact ⟨p, rfl, h⟩

/-- After changes a type has the last handler that they register for it, or the one that it had
before. -/
theorem get?_configure (h : o.configure changes = .ok o') (kind : Text) :
    o'.handlers.get? kind = (lastHandler? kind changes).or (o.handlers.get? kind) := by
  induction changes generalizing o with
  | nil =>
    obtain rfl := Except.ok.inj h
    rfl
  | cons c changes ih =>
    obtain ⟨p, hc, hp⟩ := of_configure_cons h
    rw [ih hp, get?_change hc, lastHandler?_cons, Option.or_assoc]

/-- No handler is ever registered for a built type. -/
theorem lastHandler?_eq_none_of_mem_reserved (h : o.configure changes = .ok o')
    (hmem : kind ∈ BlockType.reserved) : lastHandler? kind changes = none := by
  induction changes generalizing o with
  | nil => rfl
  | cons c changes ih =>
    obtain ⟨p, hc, hp⟩ := of_configure_cons h
    rw [lastHandler?_cons, ih hp, Option.none_or]
    cases c with
    | handler kind' handler =>
      have hne : kind' ≠ kind := fun heq => (of_register_eq_ok hc).1 (heq ▸ hmem)
      rw [Change.handlerFor?, if_neg hne]
    | preview on => rfl

end Options

/-! ## What a handler has a say in -/

/-- Options that agree on the preview and on the handler of a block's type put the same text in
its place. -/
theorem Block.replacement?_congr {b : Block} {p q : Options} (hpreview : q.preview = p.preview)
    (hhandler : b.directive.kind ∉ BlockType.reserved →
      q.handlers.get? b.directive.kind = p.handlers.get? b.directive.kind)
    (ending : LineEnding) : b.replacement? ending q = b.replacement? ending p := by
  have hreference : b.reference? ending q = b.reference? ending p := by
    rw [reference?, reference?]
    cases htype : b.directive.blockType with
    | css => rfl
    | js => rfl
    | remove => rfl
    | custom name =>
      obtain ⟨hmem, rfl⟩ := BlockType.ofName_eq_custom_iff.mp htype
      simp only [hhandler hmem]
  rw [replacement?, replacement?, hreference, hpreview]

/-! ## Closed blocks and the gaps between them -/

/-- A closed block as it stands in its document, behind a gap without closed blocks. -/
structure Stretch where
  gap : Text
  block : Block
  /-- The text that the block takes. -/
  extent : Text

namespace Stretch

def source (s : Stretch) : Text :=
  s.gap ++ s.extent

/-- The stretch when the block gives way to the text that is chosen for it, if there is one. -/
def result (chosen : Block → Option Text) (s : Stretch) : Text :=
  s.gap ++ (chosen s.block).getD s.extent

end Stretch

/-- The texts that are chosen for closed blocks. -/
def Block.ifClosed (chosen : Block → Option Text) (b : Block) : Option Text :=
  if b.terminated then chosen b else none

namespace BlockTable

/-- Segments at byte `offset`, behind a text `before` and one that is part of the first gap, fall
into stretches and a tail. -/
structure Stretched (before gap : Text) (offset number : Nat) (naming : Naming)
    (segs : List Segment) (stretches : List Stretch) (tail : Text) : Prop where
  /-- There is one stretch for each closed block. -/
  blocks : stretches.map Stretch.block = (ofSegments offset number naming segs).filter Block.terminated
  source : gap ++ segs.flatMap Segment.source = stretches.flatMap Stretch.source ++ tail
  /-- The spans of the blocks tell where their extents are. -/
  extent : ∀ s ∈ stretches, Text.slice? (before ++ (gap ++ segs.flatMap Segment.source)) s.block.span =
    some s.extent
  /-- Whatever is chosen for closed blocks, the segments are rewritten stretch by stretch. -/
  result : ∀ chosen : Block → Option Text,
    gap ++ (rewritten (Block.ifClosed chosen) offset number naming segs).flatMap Segment.source =
      stretches.flatMap (Stretch.result chosen) ++ tail

namespace Stretched
variable {before gap tail : Text} {offset number number' : Nat} {naming naming' : Naming}
  {s : Segment} {segs : List Segment} {stretches : List Stretch} {p : Passage}

theorem nil : Stretched before gap offset number naming [] [] gap where
  blocks := rfl
  source := List.append_nil gap
  extent := fun _ hs => absurd hs List.not_mem_nil
  result := fun _ => List.append_nil gap

/-- A segment that makes no closed block is part of the gap. -/
theorem keep
    (hblocks : (ofSegments offset number naming (s :: segs)).filter Block.terminated =
      (ofSegments (offset + byteLength s.source) number' naming' segs).filter Block.terminated)
    (hrewritten : ∀ chosen, rewritten (Block.ifClosed chosen) offset number naming (s :: segs) =
      s :: rewritten (Block.ifClosed chosen) (offset + byteLength s.source) number' naming' segs)
    (h : Stretched before (gap ++ s.source) (offset + byteLength s.source) number' naming' segs
      stretches tail) :
    Stretched before gap offset number naming (s :: segs) stretches tail where
  blocks := by rw [hblocks, h.blocks]
  source := by rw [← h.source, List.flatMap_cons, List.append_assoc]
  extent := by
    have hextent := h.extent
    rw [List.append_assoc gap] at hextent
    exact hextent
  result := fun chosen => by
    rw [hrewritten, ← h.result chosen, List.flatMap_cons, List.append_assoc]

/-- A closed block ends its stretch, and the line break behind it starts the next gap. -/
theorem close (ht : p.terminated = true) (hoffset : offset = byteLength (before ++ gap))
    (h : Stretched (before ++ gap ++ p.extent) p.lineBreak (offset + byteLength p.source)
      (number + p.lines.length) (naming.assign p.directive).2 segs stretches tail) :
    Stretched before gap offset number naming (.passage p :: segs)
      (⟨gap, p.block offset number naming, p.extent⟩ :: stretches) tail := by
  have hsource : (Segment.passage p).source = p.extent ++ p.lineBreak := p.source_eq_extent_append
  have hdocument : before ++ (gap ++ (Segment.passage p :: segs).flatMap Segment.source) =
      before ++ gap ++ p.extent ++ (p.lineBreak ++ segs.flatMap Segment.source) := by
    rw [List.flatMap_cons, hsource]
    simp only [List.append_assoc]
  refine ⟨?_, ?_, ?_, fun chosen => ?_⟩
  · rw [List.map_cons, h.blocks, ofSegments_passage, List.filter_cons_of_pos (by simp [ht])]
  · rw [List.flatMap_cons, List.flatMap_cons, Stretch.source, hsource,
      List.append_assoc _ (stretches.flatMap _), ← h.source]
    simp only [List.append_assoc]
  · rw [hdocument]
    refine List.forall_mem_cons.mpr ⟨?_, h.extent⟩
    show Text.slice? _ ⟨offset, offset + byteLength p.extent⟩ = some p.extent
    rw [hoffset]
    exact slice?_append _ _ _
  · rw [rewritten, Block.ifClosed, Passage.block_terminated, ht, if_pos rfl, List.flatMap_append,
      List.flatMap_cons, Stretch.result, List.append_assoc _ (stretches.flatMap _), ← h.result chosen]
    cases chosen (p.block offset number naming) with
    | none =>
      rw [List.flatMap_singleton, hsource, Option.getD_none]
      simp only [List.append_assoc]
    | some text =>
      simp only [Segment.flatMap_source_map_plain, Line.flatMap_source_lines, Option.getD_some,
        List.append_assoc]

end Stretched

/-- All segments fall into stretches. -/
theorem exists_stretched (segs : List Segment) (before gap : Text) (offset number : Nat)
    (naming : Naming) (hoffset : offset = byteLength (before ++ gap)) :
    ∃ stretches tail, Stretched before gap offset number naming segs stretches tail := by
  induction segs generalizing before gap offset number naming with
  | nil => exact ⟨[], gap, .nil⟩
  | cons s segs ih =>
    have hkept : offset + byteLength s.source = byteLength (before ++ (gap ++ s.source)) := by
      rw [hoffset]
      simp only [byteLength_append, Nat.add_assoc]
    cases s with
    | plain l =>
      obtain ⟨stretches, tail, h⟩ := ih before (gap ++ l.source) _ (number + 1) naming
        (Segment.source_plain l ▸ hkept)
      rw [← Segment.source_plain] at h
      refine ⟨stretches, tail, .keep ?_ (fun chosen => ?_) h⟩
      · rw [ofSegments, Segment.source_plain]
      · rw [rewritten, Segment.source_plain]
    | passage p =>
      cases ht : p.terminated with
      | false =>
        obtain ⟨stretches, tail, h⟩ := ih before (gap ++ p.source) _ (number + p.lines.length)
          (naming.assign p.directive).2 hkept
        refine ⟨stretches, tail, .keep ?_ (fun chosen => ?_) h⟩
        · rw [ofSegments_passage, List.filter_cons_of_neg (by simp [ht])]
          rfl
        · rw [rewritten, Block.ifClosed, Passage.block_terminated, ht, if_neg Bool.false_ne_true]
          rfl
      | true =>
        obtain ⟨stretches, tail, h⟩ := ih (before ++ gap ++ p.extent) p.lineBreak
          (offset + byteLength p.source) (number + p.lines.length) (naming.assign p.directive).2
          (by rw [hoffset, p.source_eq_extent_append]; simp only [byteLength_append]; omega)
        exact ⟨_, tail, .close ht hoffset h⟩

end BlockTable

/-- The document falls into stretches, one for each of its closed blocks, and a tail. -/
structure Laid (document : Text) (stretches : List Stretch) (tail : Text) : Prop where
  blocks : stretches.map Stretch.block = (BlockTable.extract document).terminated
  source : document = stretches.flatMap Stretch.source ++ tail
  extent : ∀ s ∈ stretches, document.slice? s.block.span = some s.extent

/-- Whatever the options are, a document is transformed stretch by stretch. -/
theorem exists_stretches (document : Text) :
    ∃ (stretches : List Stretch) (tail : Text), Laid document stretches tail ∧
      ∀ o, (transform document o).content =
        stretches.flatMap (Stretch.result fun b =>
          b.replacement? (BlockTable.extract document).ending o) ++ tail := by
  obtain ⟨stretches, tail, hblocks, hsource, hextent, hresult⟩ :=
    BlockTable.exists_stretched (Segment.ofDocument document) [] [] 0 1 .initial rfl
  rw [List.nil_append, Segment.flatMap_source_ofDocument] at hsource hextent
  refine ⟨stretches, tail, ⟨hblocks, hsource, hextent⟩, fun o => ?_⟩
  rw [content_eq_flatMap_rewrittenSegments, ← hresult]
  rfl

/-- **A handler changes blocks of its type only.**  When a handler is registered, the manifest of
a document and the blocks that it leaves open stay the same, and so do the gaps between its closed
blocks and what comes in the place of each block of another type.  Blocks of built types are
replaced alike under any two options with the same preview; and after any changes to options a
block is replaced alike as long as the preview and the last handler registered for its type are
the same. -/
theorem transform_register {o o' : Options} {kind : Text} {handler : Handler}
    (h : o.register kind handler = .ok o') (document : Text) :
    let t := BlockTable.extract document
    (transform document o').manifest = (transform document o).manifest ∧
      (transform document o').unterminated = (transform document o).unterminated ∧
      ∃ (stretches : List Stretch) (tail : Text), Laid document stretches tail ∧
        (∀ p, (transform document p).content =
          stretches.flatMap (Stretch.result fun b => b.replacement? t.ending p) ++ tail) ∧
        (∀ s ∈ stretches, s.block.directive.kind ≠ kind →
          s.block.replacement? t.ending o' = s.block.replacement? t.ending o) ∧
        (∀ p p' : Options, p'.preview = p.preview → ∀ s ∈ stretches,
          s.block.directive.kind ∈ BlockType.reserved →
            s.block.replacement? t.ending p' = s.block.replacement? t.ending p) ∧
        ∀ (changes changes' : List Options.Change) (p p' : Options), o.configure changes = .ok p →
          o.configure changes' = .ok p' → p'.preview = p.preview →
          (∀ kind ∈ BlockType.reserved, Options.lastHandler? kind changes = none) ∧
          ∀ s ∈ stretches, Options.lastHandler? s.block.directive.kind changes' =
              Options.lastHandler? s.block.directive.kind changes →
            s.block.replacement? t.ending p' = s.block.replacement? t.ending p := by
  intro t
  obtain ⟨_, _, hpreview, hget⟩ := Options.of_register_eq_ok h
  obtain ⟨stretches, tail, hlaid, hcontent⟩ := exists_stretches document
  refine ⟨rfl, rfl, stretches, tail, hlaid, hcontent, fun s _ hne => ?_,
    fun p p' hpreview s _ hmem => ?_, fun changes changes' p p' hp hp' hpreview => ?_⟩
  · refine s.block.replacement?_congr hpreview (fun _ => ?_) t.ending
    rw [hget, if_neg (Ne.symm hne)]
  · exact s.block.replacement?_congr hpreview (fun hcustom => absurd hmem hcustom) t.ending
  · refine ⟨fun kind hmem => Options.lastHandler?_eq_none_of_mem_reserved hp hmem,
      fun s _ hlast => s.block.replacement?_congr hpreview (fun _ => ?_) t.ending⟩
    rw [Options.get?_configure hp', Options.get?_configure hp, hlast]

/-- A script block, an image block, and a block of a type without a handler. -/
def gallery : Text :=
  "<!-- build:js app.js -->\n".toList ++
    "<script src=\"a.js\"></script>\n".toList ++
    "<!-- endbuild -->\n".toList ++
    "<!-- build:img logo.png -->\n".toList ++
    "<!-- endbuild -->\n".toList ++
    "<!-- build:tpl -->\n".toList ++
    "<!-- endbuild -->".toList

/-- The handler that shows the target of a block. -/
def showTarget : Handler :=
  fun context => some context.target

set_option maxRecDepth 4000 in
/-- With a handler for images the image block of `gallery` is replaced too, and nothing else
changes. -/
theorem transform_register_gallery :
    ∃ o', Options.default.register "img".toList showTarget = .ok o' ∧
      (transform gallery .default).content =
        "<script src=\"app.js\"></script>\n".toList ++ "<!-- build:img logo.png -->\n".toList ++
          "<!-- endbuild -->\n".toList ++ "<!-- build:tpl -->\n".toList ++ "<!-- endbuild -->".toList ∧
      (transform gallery o').content =
        "<script src=\"app.js\"></script>\n".toList ++ "logo.png\n".toList ++
          "<!-- build:tpl -->\n".toList ++ "<!-- endbuild -->".toList ∧
      (transform gallery o').manifest = (transform gallery .default).manifest ∧
      (transform gallery o').unterminated = (transform gallery .default).unterminated ∧
      ∃ (stretches : List Stretch) (tail : Text), Laid gallery stretches tail ∧
        ∀ s ∈ stretches, s.block.directive.kind ≠ "img".toList →
          s.block.replacement? (BlockTable.extract gallery).ending o' =
            s.block.replacement? (BlockTable.extract gallery).ending .default := by
  have hmem : "img".toList ∉ BlockType.reserved := by decide
  have hregister := Options.register_eq_ok_of hmem (by decide) .default showTarget
  obtain ⟨hmanifest, hunterminated, stretches, tail, hlaid, _, hothers, _⟩ :=
    transform_register hregister gallery
  refine ⟨_, hregister, ?_, ?_, hmanifest, hunterminated, stretches, tail, hlaid, hothers⟩
  · rw [content_eq_flatMap_rewrittenSegments]
    decide
  · rw [content_eq_flatMap_rewrittenSegments]
    decide

end BuildBlocks
