import BuildBlocks.Proofs.Block.Numbering
import BuildBlocks.Transform

/-! # Blocks that share an entry

Keys are told apart by type, target and attributes, entries by type and target only.  Blocks
that differ in their attributes can therefore have one entry.  Two that have one name one
target as long as neither has a number; otherwise they name different ones, such as the target
with the number in full (`targetOrDefault_eq_iff_of_shared`).
-/
namespace BuildBlocks
open Text

/-- What is put after a target tells the number, and whether there is one. -/
theorem Text.numberText_injective :
    Function.Injective fun number : Option Nat => number.elim [] numeral := by
  intro m n h
  cases m with
  | none =>
    cases n with
    | none => rfl
    | some n => exact absurd h.symm Nat.toDigits_ne_nil
  | some m =>
    cases n with
    | none => exact absurd h Nat.toDigits_ne_nil
    | some n => exact congrArg some (numeral_injective h)

namespace BlockTable
variable {document : Text} {b c : Block}

/-- The key of a block that is not dropped says what its directive does, and adds at most a
number. -/
theorem key_eq_of_kept (hb : b ∈ (extract document).blocks)
    (hkept : b.directive.blockType ≠ .remove) :
    b.key = ⟨b.directive.kind, b.directive.target, b.directive.attributes, b.key.suffix⟩ := by
  obtain ⟨before, later, hsplit⟩ := List.append_of_mem hb
  have hplain := Naming.assign_eq_plainKey_with
    (Naming.initial.after (before.map Block.directive)) b.directive
  rw [← (key_of_append_cons hsplit).1, Naming.plainKey, if_neg hkept] at hplain
  exact hplain

/-- A block that is not dropped is listed under its target with its number. -/
theorem manifestTarget_of_kept (hb : b ∈ (extract document).blocks)
    (hkept : b.directive.blockType ≠ .remove) :
    b.key.manifestTarget = b.directive.targetOrDefault ++ b.key.suffix.elim [] numeral := by
  rw [key_eq_of_kept hb hkept]
  rfl

/-- Two blocks that render alike are one. -/
theorem eq_of_rendered_eq (hb : b ∈ (extract document).blocks)
    (hc : c ∈ (extract document).blocks) (h : b.key.rendered = c.key.rendered) : b = c := by
  have hnodup := (Naming.nodup_rendered_keys .initial
    ((extract document).blocks.map Block.directive)).1
  have hkeys := map_key_ofSegments (Segment.ofDocument document) 0 1 .initial
  rw [extract] at hnodup
  rw [← hkeys, List.map_map] at hnodup
  exact List.inj_on_of_nodup_map hnodup hb hc h

/-- Two blocks with one number are one. -/
theorem eq_of_suffix_eq (hb : b ∈ (extract document).blocks)
    (hc : c ∈ (extract document).blocks) {n : Nat} (hbn : b.key.suffix = some n)
    (hcn : c.key.suffix = some n) : b = c := by
  have hpair := (Naming.pairwise_suffix_keys .initial
    ((extract document).blocks.map Block.directive)).1
  have hkeys := map_key_ofSegments (Segment.ofDocument document) 0 1 .initial
  rw [extract] at hpair
  rw [← hkeys, List.filterMap_map, List.pairwise_filterMap] at hpair
  -- the numbers ascend, so blocks at different places do not have the same one
  have hdiffer : (extract document).blocks.Pairwise fun a b =>
      ∀ n, ¬ (a.key.suffix = some n ∧ b.key.suffix = some n) :=
    hpair.imp fun hlt n hn => absurd (hlt n hn.1 n hn.2) (Nat.lt_irrefl n)
  have hsymm : Std.Symm fun a b : Block => ∀ n, ¬ (a.key.suffix = some n ∧ b.key.suffix = some n) :=
    ⟨fun _ _ h n hn => h n hn.symm⟩
  by_contra hne
  exact hdiffer.forall hb hc hne n ⟨hbn, hcn⟩

end BlockTable

/-- **Which targets share an entry.**  Two closed blocks that are not dropped and have one entry
in the manifest differ in their attributes.  Their targets make one text once their numbers are
put after them; the targets themselves are the same when neither block has a number, and only
then. -/
theorem targetOrDefault_eq_iff_of_shared {document : Text} {b c : Block}
    (hb : b ∈ (BlockTable.extract document).terminated)
    (hc : c ∈ (BlockTable.extract document).terminated) (hne : b ≠ c)
    (hbkept : b.directive.blockType ≠ .remove) (hckept : c.directive.blockType ≠ .remove)
    (hkind : b.key.kind = c.key.kind) (htarget : b.key.manifestTarget = c.key.manifestTarget) :
    b.directive.attributes ≠ c.directive.attributes ∧
      b.directive.targetOrDefault ++ b.key.suffix.elim [] numeral =
        c.directive.targetOrDefault ++ c.key.suffix.elim [] numeral ∧
      (b.directive.targetOrDefault = c.directive.targetOrDefault ↔
        b.key.suffix = none ∧ c.key.suffix = none) := by
  have hbmem : b ∈ (BlockTable.extract document).blocks := List.mem_of_mem_filter hb
  have hcmem : c ∈ (BlockTable.extract document).blocks := List.mem_of_mem_filter hc
  have hnumbered := htarget
  rw [BlockTable.manifestTarget_of_kept hbmem hbkept,
    BlockTable.manifestTarget_of_kept hcmem hckept] at hnumbered
  refine ⟨fun hattributes => ?_, hnumbered, fun hsame => ?_, fun ⟨hbnone, hcnone⟩ => ?_⟩
  · -- with one set of attributes the two would render alike
    have hbkey := congrArg BlockKey.attributes (BlockTable.key_eq_of_kept hbmem hbkept)
    have hckey := congrArg BlockKey.attributes (BlockTable.key_eq_of_kept hcmem hckept)
    refine hne (BlockTable.eq_of_rendered_eq hbmem hcmem ?_)
    rw [BlockKey.rendered, BlockKey.rendered, hkind, htarget, hbkey, hckey, hattributes]
  · -- the numbers are the same too, and no two blocks have the same one
    rw [hsame] at hnumbered
    have hsuffix : b.key.suffix = c.key.suffix :=
      numberText_injective (List.append_cancel_left hnumbered)
    cases hn : b.key.suffix with
    | none => exact ⟨rfl, hsuffix ▸ hn⟩
    | some n =>
      exact absurd (BlockTable.eq_of_suffix_eq hbmem hcmem hn (hsuffix ▸ hn)) hne
  · rw [hbnone, hcnone] at hnumbered
    simpa using hnumbered

/-- Two script blocks of one target, and one whose target is what a number makes of theirs. -/
def collided : Text :=
  "<!-- build:js app.js -->\n".toList ++
    "<script src=\"a.js\"></script>\n".toList ++
    "<!-- endbuild -->\n".toList ++
    "<!-- build:js app.js -->\n".toList ++
    "<script src=\"b.js\"></script>\n".toList ++
    "<!-- endbuild -->\n".toList ++
    "<!-- build:js app.js0 defer -->\n".toList ++
    "<script src=\"c.js\"></script>\n".toList ++
    "<!-- endbuild -->\n".toList

/-- The second block of `collided`, which has a number. -/
def repeatedBlock : Block where
  key := ⟨"js".toList, some "app.js".toList, none, some 0⟩
  directive := ⟨"js".toList, none, some "app.js".toList, none⟩
  lines := ["<!-- build:js app.js -->".toList, "<script src=\"b.js\"></script>".toList,
    "<!-- endbuild -->".toList]
  span := ⟨72, 143⟩
  lineNumber := 4
  terminated := true

/-- The last block of `collided`. -/
def literalBlock : Block where
  key := ⟨"js".toList, some "app.js0".toList, some "defer".toList, none⟩
  directive := ⟨"js".toList, none, some "app.js0".toList, some "defer".toList⟩
  lines := ["<!-- build:js app.js0 defer -->".toList, "<script src=\"c.js\"></script>".toList,
    "<!-- endbuild -->".toList]
  span := ⟨144, 222⟩
  lineNumber := 7
  terminated := true

theorem terminated_collided :
    (BlockTable.extract collided).terminated =
      (BlockTable.extract collided).terminated.take 1 ++ [repeatedBlock, literalBlock] := by
  decide

theorem mem_terminated_collided :
    repeatedBlock ∈ (BlockTable.extract collided).terminated ∧
      literalBlock ∈ (BlockTable.extract collided).terminated := by
  rw [terminated_collided]
  exact ⟨List.mem_append_right _ (by simp), List.mem_append_right _ (by simp)⟩

/-- In `collided` the entry of the target with the number lists the assets of two targets. -/
theorem shared_collided :
    (transform collided .default).manifest.get? "js".toList "app.js0".toList =
        some ⟨["b.js".toList, "c.js".toList], none⟩ ∧
      repeatedBlock.key.manifestTarget = literalBlock.key.manifestTarget ∧
      repeatedBlock.directive.attributes ≠ literalBlock.directive.attributes ∧
      repeatedBlock.directive.targetOrDefault ≠ literalBlock.directive.targetOrDefault := by
  obtain ⟨hrepeated, hliteral⟩ := mem_terminated_collided
  have htarget : repeatedBlock.key.manifestTarget = literalBlock.key.manifestTarget := by decide
  obtain ⟨hattributes, _, hsame⟩ := targetOrDefault_eq_iff_of_shared hrepeated hliteral
    (by decide) (by decide) (by decide) (by decide) htarget
  refine ⟨by decide +kernel, htarget, hattributes, fun h => ?_⟩
  exact absurd (hsame.mp h).1 (by decide)

/-- Not all blocks that share an entry name one target. -/
theorem not_all_sharing_one_target :
    ¬ ∀ (document : Text) (b c : Block), b ∈ (BlockTable.extract document).terminated →
      c ∈ (BlockTable.extract document).terminated → b ≠ c →
      b.directive.blockType ≠ .remove → c.directive.blockType ≠ .remove →
      b.key.kind = c.key.kind → b.key.manifestTarget = c.key.manifestTarget →
        b.directive.targetOrDefault = c.directive.targetOrDefault := by
  intro hsame
  obtain ⟨hrepeated, hliteral⟩ := mem_terminated_collided
  have h := hsame collided repeatedBlock literalBlock hrepeated hliteral (by decide) (by decide)
    (by decide) (by decide) (by decide)
  exact absurd h (by decide)

end BuildBlocks
