import BuildBlocks.Proofs.Block.Extraction
import BuildBlocks.Proofs.Block.Naming
import BuildBlocks.Proofs.Manifest.Entries
import BuildBlocks.Transform

/-! # References and the entries that they point at

A reference names the target of its directive, a manifest lists the target of the key.  The
two differ when a block before it has taken the key.  If that block is closed it has an entry
of its own under the target; if nothing closes it the target can be missing from the manifest
(`get?_referenced_eq_none_iff`).
-/
namespace BuildBlocks
open Text Reference

/-- A reference that is not empty is the tag of its directive's target. -/
theorem Block.tag_of_reference? {b : Block} {ending : LineEnding} {o : Options} {tag : Text}
    (htype : b.directive.blockType = .css ∨ b.directive.blockType = .js)
    (htag : b.reference? ending o = some tag) (hne : tag ≠ []) :
    b.directive.blockType = .css ∧
        tag = stylesheetTag b.directive.targetOrDefault b.directive.attributes ∨
      b.directive.blockType = .js ∧
        tag = scriptTag b.directive.targetOrDefault b.directive.attributes := by
  rcases htype with htype | htype
  · simp only [reference?, htype, Option.some.injEq] at htag
    split at htag
    · exact .inl ⟨htype, htag.symm⟩
    · exact absurd htag.symm hne
  · simp only [reference?, htype, Option.some.injEq] at htag
    split at htag
    · exact .inr ⟨htype, htag.symm⟩
    · exact absurd htag.symm hne

/-- **When a reference points at nothing.**  The target that a reference names is missing from
the manifest of the same transformation exactly when an earlier block that nothing closes has
taken its name and no closed block is listed under it. -/
theorem get?_referenced_eq_none_iff {document : Text} {b : Block} {tag : Text}
    (hb : b ∈ (BlockTable.extract document).terminated)
    (htype : b.directive.blockType = .css ∨ b.directive.blockType = .js)
    (htag : b.reference? (BlockTable.extract document).ending .default = some tag)
    (hne : tag ≠ []) :
    let t := BlockTable.extract document
    let target := b.directive.targetOrDefault
    (b.directive.blockType = .css ∧ tag = stylesheetTag target b.directive.attributes ∨
        b.directive.blockType = .js ∧ tag = scriptTag target b.directive.attributes) ∧
      ((transform document .default).manifest.get? b.directive.kind target = none ↔
        (∃ a ∈ t.unterminated, a.lineNumber < b.lineNumber ∧
            a.key.rendered = ⟨b.directive.kind, target, b.directive.attributes⟩) ∧
          ∀ c ∈ t.terminated, c.key.kind = b.directive.kind → c.key.manifestTarget ≠ target) := by
  intro t target
  refine ⟨Block.tag_of_reference? htype htag hne, ?_⟩
  show (Manifest.compile t).get? b.directive.kind target = none ↔ _
  rw [Manifest.get?_compile_eq_none_iff]
  refine ⟨fun hunlisted => ⟨?_, hunlisted⟩, fun h => h.2⟩
  obtain ⟨before, later, hsplit⟩ := List.append_of_mem (List.mem_of_mem_filter hb)
  have hkept : b.directive.blockType ≠ .remove := by
    rcases htype with h | h <;> simp [h]
  -- a block with a plain key would be listed under its target itself
  rcases BlockTable.plain_or_taken hsplit hkept with hplain | ⟨a, ha, htaken⟩
  · exact absurd (congrArg RenderedKey.target hplain)
      (hunlisted b hb (congrArg RenderedKey.kind hplain))
  · have hmem : a ∈ t.blocks := by
      rw [show t.blocks = before ++ b :: later from hsplit]
      exact List.mem_append_left _ ha
    refine ⟨a, List.mem_filter.mpr ⟨hmem, ?_⟩, ?_, htaken⟩
    · -- so would the one that took the name, if it were closed
      rw [Bool.not_eq_true', ← Bool.not_eq_true]
      exact fun ht => hunlisted a (List.mem_filter.mpr ⟨hmem, ht⟩)
        (congrArg RenderedKey.kind htaken) (congrArg RenderedKey.target htaken)
    · have hlines := Extraction.pairwise_lineNumber document
      rw [hsplit] at hlines
      exact (List.pairwise_append.mp hlines).2.2 a ha b List.mem_cons_self

/-- Two directives of one target, of which only the second is closed. -/
def shadowed : Text :=
  ("<!-- build:js app.js -->\n" ++
    "<!-- build:js app.js -->\n" ++
    "<script src=\"a.js\"></script>\n" ++
    "<!-- endbuild -->\n").toList

/-- The block of `shadowed` that the second directive abandons. -/
def abandonedBlock : Block where
  key := ⟨"js".toList, some "app.js".toList, none, none⟩
  directive := ⟨"js".toList, none, some "app.js".toList, none⟩
  lines := ["<!-- build:js app.js -->".toList]
  span := ⟨0, 24⟩
  lineNumber := 1
  terminated := false

/-- The closed block of `shadowed`. -/
def shadowedBlock : Block where
  key := ⟨"js".toList, some "app.js".toList, none, some 0⟩
  directive := ⟨"js".toList, none, some "app.js".toList, none⟩
  lines := ["<!-- build:js app.js -->".toList, "<script src=\"a.js\"></script>".toList,
    "<!-- endbuild -->".toList]
  span := ⟨25, 96⟩
  lineNumber := 2
  terminated := true

theorem extract_shadowed :
    BlockTable.extract shadowed = ⟨[abandonedBlock, shadowedBlock], .lf⟩ := by
  decide +kernel

theorem reference?_shadowedBlock :
    shadowedBlock.reference? .lf .default = some (scriptTag "app.js".toList none) := by
  decide +kernel

/-- In `shadowed` the name of the closed block is taken, so its reference points at nothing. -/
theorem get?_shadowed_eq_none :
    shadowedBlock ∈ (BlockTable.extract shadowed).terminated ∧
      shadowedBlock.reference? (BlockTable.extract shadowed).ending .default =
        some (scriptTag "app.js".toList none) ∧
      (transform shadowed .default).manifest.get? "js".toList "app.js".toList = none := by
  have hb : shadowedBlock ∈ (BlockTable.extract shadowed).terminated := by
    rw [extract_shadowed]
    decide
  have htag : shadowedBlock.reference? (BlockTable.extract shadowed).ending .default =
      some (scriptTag "app.js".toList none) := by
    rw [extract_shadowed]
    exact reference?_shadowedBlock
  have htype : shadowedBlock.directive.blockType = .js := by decide
  refine ⟨hb, htag, (get?_referenced_eq_none_iff hb (.inr htype) htag (by decide)).2.mpr ?_⟩
  rw [extract_shadowed]
  exact ⟨⟨abandonedBlock, by decide, by decide, by decide⟩, by decide⟩

/-- Not every reference is listed in the manifest of its transformation. -/
theorem not_all_references_listed :
    ¬ ∀ (document : Text) (b : Block) (tag : Text),
      b ∈ (BlockTable.extract document).terminated →
      b.directive.blockType = .css ∨ b.directive.blockType = .js →
      b.reference? (BlockTable.extract document).ending .default = some tag → tag ≠ [] →
      ((transform document .default).manifest.get? b.directive.kind
        b.directive.targetOrDefault).isSome := by
  intro hlisted
  have hentry := hlisted shadowed shadowedBlock (scriptTag "app.js".toList none)
  rw [show (transform shadowed .default).manifest =
    Manifest.compile (BlockTable.extract shadowed) from rfl, extract_shadowed] at hentry
  exact absurd (hentry (by decide) (.inr (by decide)) reference?_shadowedBlock (by decide))
    (by decide +kernel)

end BuildBlocks
