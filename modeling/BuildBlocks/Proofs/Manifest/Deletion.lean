import BuildBlocks.Proofs.Manifest.Entries
import BuildBlocks.Transform

/-! # Blocks that are deleted

A stylesheet block that links nothing and a script block without a script leave no reference.
Whether they do is read off their inner text as it is written; the assets that a manifest
lists are read off its lines without comments, whatever element they stand in.  Neither
decides on the other: a deleted block names assets exactly when one of those lines does
(`get?_deleted`).
-/
namespace BuildBlocks
open Text Reference

/-- The block is of a type that is built, and holds no element of that type. -/
def Block.Deleted (b : Block) (ending : LineEnding) : Prop :=
  b.directive.blockType = .css ∧ linksStylesheet (b.innerContent ending) = false ∨
    b.directive.blockType = .js ∧ holdsScript (b.innerContent ending) = false

/-- A deleted block leaves no reference. -/
theorem Block.Deleted.reference?_eq {b : Block} {ending : LineEnding} (h : b.Deleted ending)
    (o : Options) : b.reference? ending o = some [] := by
  rcases h with ⟨htype, hnone⟩ | ⟨htype, hnone⟩ <;> simp [reference?, htype, hnone]

namespace Asset

/-- The leftmost attribute of a line is what the search for attributes finds. -/
theorem leftmost_iff {line value : Text} :
    Leftmost line value ↔ ∃ before, search attributeAt? line = some (before, value) := by
  refine exists_congr fun before => ?_
  rw [search_eq_some_iff]
  refine exists_congr fun t => and_congr eq_comm (and_congr attributeAt?_eq_some_iff.symm ?_)
  exact forall_congr' fun u => forall_congr' fun v => imp_congr_right fun _ =>
    imp_congr_right fun _ => attributeAt?_eq_none_iff.symm

/-- A line names no asset when the pieces of its leftmost attribute are blank. -/
theorem ofLine_eq_nil_iff {line : Text} :
    ofLine line = [] ↔
      ∀ value, Leftmost line value → ∀ piece ∈ splitOn ',' value, trim piece = [] := by
  rw [ofLine]
  split
  · rename_i before value hsearch
    have hvalue : ∀ other, Leftmost line other ↔ other = value := fun other => by
      rw [leftmost_iff, hsearch]
      simp [eq_comm]
    simp [hvalue, ofValue, List.filter_eq_nil_iff]
  · rename_i hsearch
    have hnone : ∀ value, ¬ Leftmost line value := fun value => by simp [leftmost_iff, hsearch]
    simp [hnone]

end Asset

/-- A block names no asset when no line of its inner text, comments left out, does. -/
theorem Block.ofInnerLines_eq_nil_iff {b : Block} :
    Asset.ofInnerLines b.innerLines = [] ↔
      ∀ line ∈ b.strippedLines, ∀ value, Asset.Leftmost line value →
        ∀ piece ∈ splitOn ',' value, trim piece = [] := by
  rw [b.ofInnerLines_eq, List.flatMap_eq_nil_iff]
  exact forall₂_congr fun line _ => Asset.ofLine_eq_nil_iff

namespace Manifest
variable {kind target : Text}

/-- An entry lists the first occurrences of what the blocks that feed it name. -/
theorem assets_of_get?_compile {t : BlockTable} {e : ManifestEntry}
    (h : (compile t).get? kind target = some e) :
    e.assets = ((t.terminated.filter fun b => b.feeds kind target).flatMap fun b =>
      Asset.ofInnerLines b.innerLines).eraseDups := by
  rw [get?_compile] at h
  split at h
  · cases h
  · rename_i b blocks hblocks
    obtain rfl := Option.some.inj h
    rw [hblocks, ManifestEntry.foldl_add, ManifestEntry.foldl_push]
    simp [ManifestEntry.empty]

/-- A closed block has an entry, which lists all that the block names. -/
theorem exists_get?_compile {t : BlockTable} {b : Block} (hb : b ∈ t.terminated) :
    ∃ e, (compile t).get? b.key.kind b.key.manifestTarget = some e ∧
      ∀ asset ∈ Asset.ofInnerLines b.innerLines, asset ∈ e.assets := by
  obtain ⟨e, he⟩ := Option.isSome_iff_exists.mp ((isSome_get?_compile t).mpr ⟨b, hb, rfl, rfl⟩)
  refine ⟨e, he, fun asset hasset => ?_⟩
  rw [assets_of_get?_compile he, List.mem_eraseDups]
  exact List.mem_flatMap.mpr ⟨b, mem_filter_feeds.mpr ⟨hb, rfl, rfl⟩, hasset⟩

end Manifest

/-- **What a deleted block leaves behind.**  A closed stylesheet block that links nothing, or a
closed script block without a script, gives way to no reference, under any options.  It has an
entry in the manifest all the same, which lists every asset that the block names; there is none
exactly when all that its lines put into their leftmost attributes is blank. -/
theorem get?_deleted {document : Text} {b : Block}
    (hb : b ∈ (BlockTable.extract document).terminated)
    (hdeleted : b.Deleted (BlockTable.extract document).ending) :
    (∀ o, b.reference? (BlockTable.extract document).ending o = some []) ∧
      (∃ e, (∀ o, (transform document o).manifest.get? b.key.kind b.key.manifestTarget = some e) ∧
        ∀ asset ∈ Asset.ofInnerLines b.innerLines, asset ∈ e.assets) ∧
      (Asset.ofInnerLines b.innerLines = [] ↔
        ∀ line ∈ b.strippedLines, ∀ value, Asset.Leftmost line value →
          ∀ piece ∈ splitOn ',' value, trim piece = []) := by
  obtain ⟨e, he, hlisted⟩ := Manifest.exists_get?_compile hb
  exact ⟨hdeleted.reference?_eq, ⟨e, fun _ => he, hlisted⟩, Block.ofInnerLines_eq_nil_iff⟩

/-- A stylesheet block whose link takes two lines. -/
def brokenLink : Text :=
  ("<!-- build:css site.css -->\n" ++
    "<link rel=\"stylesheet\"\n" ++
    "      href=\"a.css\">\n" ++
    "<!-- endbuild -->\n").toList

/-- The block of `brokenLink`. -/
def brokenBlock : Block where
  key := ⟨"css".toList, some "site.css".toList, none, none⟩
  directive := ⟨"css".toList, none, some "site.css".toList, none⟩
  lines := ["<!-- build:css site.css -->".toList, "<link rel=\"stylesheet\"".toList,
    "      href=\"a.css\">".toList, "<!-- endbuild -->".toList]
  span := ⟨0, 88⟩
  lineNumber := 1
  terminated := true

theorem extract_brokenLink : BlockTable.extract brokenLink = ⟨[brokenBlock], .lf⟩ := by
  decide +kernel

theorem deleted_brokenBlock : brokenBlock.Deleted .lf :=
  .inl ⟨by decide, by decide +kernel⟩

theorem ofInnerLines_brokenBlock :
    Asset.ofInnerLines brokenBlock.innerLines = ["a.css".toList] := by
  decide +kernel

/-- The link of `brokenLink` is deleted, and its stylesheet is listed. -/
theorem mem_assets_brokenLink :
    brokenBlock ∈ (BlockTable.extract brokenLink).terminated ∧
      brokenBlock.reference? (BlockTable.extract brokenLink).ending .default = some [] ∧
      ∃ e, (transform brokenLink .default).manifest.get? "css".toList "site.css".toList = some e ∧
        "a.css".toList ∈ e.assets := by
  have hb : brokenBlock ∈ (BlockTable.extract brokenLink).terminated := by
    rw [extract_brokenLink]
    decide
  have hdeleted : brokenBlock.Deleted (BlockTable.extract brokenLink).ending := by
    rw [extract_brokenLink]
    exact deleted_brokenBlock
  obtain ⟨hreference, ⟨e, he, hlisted⟩, _⟩ := get?_deleted hb hdeleted
  refine ⟨hb, hreference .default, e, he .default, hlisted _ ?_⟩
  rw [ofInnerLines_brokenBlock]
  exact List.mem_singleton_self _

/-- Not every deleted block is without assets. -/
theorem not_all_deleted_without_assets :
    ¬ ∀ (document : Text) (b : Block), b ∈ (BlockTable.extract document).terminated →
      b.Deleted (BlockTable.extract document).ending →
        Asset.ofInnerLines b.innerLines = [] := by
  intro hempty
  have hnone := hempty brokenLink brokenBlock
  rw [extract_brokenLink, ofInnerLines_brokenBlock] at hnone
  exact absurd (hnone (by decide) deleted_brokenBlock) (List.cons_ne_nil _ _)

end BuildBlocks
