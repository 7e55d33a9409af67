import BuildBlocks.Proofs.Block.Ordinals
import BuildBlocks.Proofs.Manifest.Deletion
import BuildBlocks.Proofs.SortedMap

/-! # The entries of dropped blocks

Blocks of most types can share an entry; those that are dropped never do.  Since their targets are
different ordinals, an entry of their type is fed by one block only (`filter_feeds_of_dropped`) and
holds what this one names.  The main statement is `targets_of_dropped`.
-/
namespace BuildBlocks
open Text

/-- The targets of a type that a manifest lists, in ascending order. -/
def Manifest.targetNames (m : Manifest) (kind : Text) : List Text :=
  (m.targets? kind).elim [] SortedMap.keys

namespace Manifest
variable {m : Manifest} {kind target : Text}

theorem nodup_targetNames (m : Manifest) (kind : Text) : (m.targetNames kind).Nodup := by
  rw [targetNames]
  cases m.targets? kind with
  | none => exact List.nodup_nil
  | some targets => exact targets.nodup_keys

/-- The targets are those that have an entry. -/
theorem mem_targetNames_iff : target ∈ m.targetNames kind ↔ (m.get? kind target).isSome = true := by
  rw [targetNames, get?]
  cases m.targets? kind with
  | none => exact iff_of_false List.not_mem_nil Bool.false_ne_true
  | some targets => exact SortedMap.mem_keys_iff

end Manifest

namespace BlockTable
open Extraction
variable {document target : Text} {b c : Block}

/-- The closed blocks among those that are dropped. -/
def closedDropped (t : BlockTable) : List Block :=
  t.terminated.filter Block.dropped

theorem mem_closedDropped_iff {t : BlockTable} :
    b ∈ t.closedDropped ↔ b ∈ t.terminated ∧ b.dropped = true :=
  List.mem_filter

/-- A dropped block has an ordinal, and its key is made from that. -/
theorem exists_ordinal (hb : b ∈ (extract document).blocks) (hdropped : b.dropped = true) :
    ∃ i, (extract document).dropped[i]? = some b ∧
      b.key = ⟨"remove".toList, some (numeral i), b.directive.attributes, none⟩ := by
  obtain ⟨i, hi⟩ := List.mem_iff_getElem?.mp (List.mem_filter.mpr ⟨hb, hdropped⟩)
  exact ⟨i, hi, key_of_dropped hi⟩

theorem dropped_of_kind (hb : b ∈ (extract document).blocks)
    (hkind : b.key.kind = "remove".toList) :
    b.dropped = true := by
  obtain ⟨before, later, hsplit⟩ := List.append_of_mem hb
  have hkey := congrArg BlockKey.kind (Naming.assign_eq_plainKey_with
    (Naming.initial.after (before.map Block.directive)) b.directive)
  rw [← (key_of_append_cons hsplit).1] at hkey
  exact Directive.drops_iff.mpr (hkey.symm.trans hkind)

theorem manifestTarget_of_dropped (hb : b ∈ (extract document).blocks)
    (hdropped : b.dropped = true) : b.key.target = some b.key.manifestTarget := by
  obtain ⟨i, _, hkey⟩ := exists_ordinal hb hdropped
  rw [hkey, BlockKey.manifestTarget]
  exact congrArg some (List.append_nil _).symm

/-- Dropped blocks with one target are one. -/
theorem eq_of_dropped (hb : b ∈ (extract document).blocks) (hc : c ∈ (extract document).blocks)
    (hbdropped : b.dropped = true) (hcdropped : c.dropped = true)
    (h : b.key.manifestTarget = c.key.manifestTarget) : b = c := by
  obtain ⟨i, hi, hbkey⟩ := exists_ordinal hb hbdropped
  obtain ⟨j, hj, hckey⟩ := exists_ordinal hc hcdropped
  have htarget : some (numeral i) = some (numeral j) := by
    have h' := congrArg some h
    rwa [← manifestTarget_of_dropped hb hbdropped, ← manifestTarget_of_dropped hc hcdropped, hbkey,
      hckey] at h'
  obtain rfl : i = j := numeral_injective (Option.some.inj htarget)
  exact Option.some.inj (hi.symm.trans hj)

theorem nodup_blocks (document : Text) : (extract document).blocks.Nodup := by
  refine (pairwise_lineNumber document).imp fun {a c} hlt heq => ?_
  rw [heq] at hlt
  exact Nat.lt_irrefl _ hlt

theorem mem_blocks_of_closedDropped (hb : b ∈ (extract document).closedDropped) :
    b ∈ (extract document).blocks :=
  List.mem_of_mem_filter (List.mem_of_mem_filter hb)

/-- The targets of closed dropped blocks are all different. -/
theorem nodup_manifestTarget_closedDropped (document : Text) :
    ((extract document).closedDropped.map fun b => b.key.manifestTarget).Nodup := by
  refine List.Nodup.map_on (fun b hb c hc h => ?_) (((nodup_blocks document).filter _).filter _)
  exact eq_of_dropped (mem_blocks_of_closedDropped hb) (mem_blocks_of_closedDropped hc)
    (mem_closedDropped_iff.mp hb).2 (mem_closedDropped_iff.mp hc).2 h

/-- An entry of a dropped block is fed by that block alone. -/
theorem filter_feeds_of_dropped (hb : b ∈ (extract document).closedDropped) :
    (extract document).terminated.filter
      (fun c => c.feeds "remove".toList b.key.manifestTarget) = [b] := by
  obtain ⟨hclosed, hdropped⟩ := mem_closedDropped_iff.mp hb
  have hmem := mem_blocks_of_closedDropped hb
  have hfeeds : ∀ c ∈ (extract document).terminated,
      c.feeds "remove".toList b.key.manifestTarget = (c == b) := by
    intro c hc
    have hcmem : c ∈ (extract document).blocks := List.mem_of_mem_filter hc
    rw [Bool.eq_iff_iff, beq_iff_eq, Block.feeds, decide_eq_true_eq]
    constructor
    · rintro ⟨hkind, htarget⟩
      exact eq_of_dropped hcmem hmem (dropped_of_kind hcmem hkind) hdropped htarget
    · rintro rfl
      obtain ⟨i, _, hkey⟩ := exists_ordinal hmem hdropped
      exact ⟨congrArg BlockKey.kind hkey, rfl⟩
  have hnodup : (extract document).terminated.Nodup := (nodup_blocks document).filter _
  rw [List.filter_congr hfeeds, List.filter_beq, List.count_eq_one_of_mem hnodup hclosed]
  rfl

/-- A closed dropped block has an entry of its own. -/
theorem get?_of_closedDropped (hb : b ∈ (extract document).closedDropped) :
    (Manifest.compile (extract document)).get? "remove".toList b.key.manifestTarget =
      some ⟨(Asset.ofInnerLines b.innerLines).eraseDups, b.directive.searchPaths⟩ := by
  rw [Manifest.get?_compile, filter_feeds_of_dropped hb]
  show some (ManifestEntry.empty.add b) = _
  rw [ManifestEntry.add, ManifestEntry.foldl_push]
  simp [ManifestEntry.empty]

/-- Every entry of the type comes from a closed dropped block. -/
theorem exists_closedDropped
    (h : ((Manifest.compile (extract document)).get? "remove".toList target).isSome = true) :
    ∃ b ∈ (extract document).closedDropped, b.key.manifestTarget = target := by
  obtain ⟨b, hclosed, hkind, htarget⟩ := (Manifest.isSome_get?_compile _).mp h
  have hdropped := dropped_of_kind (List.mem_of_mem_filter hclosed) hkind
  exact ⟨b, mem_closedDropped_iff.mpr ⟨hclosed, hdropped⟩, htarget⟩

theorem key_target_of_closedDropped (hb : b ∈ (extract document).closedDropped) :
    b.key.target = some target ↔ b.key.manifestTarget = target := by
  rw [manifestTarget_of_dropped (mem_blocks_of_closedDropped hb) (mem_closedDropped_iff.mp hb).2,
    Option.some.injEq]

end BlockTable

/-- **Dropped blocks are numbered in the order of their directives, and share no entry.**  The
`i`-th line whose directive drops a block opens a block with the numeral of `i` for a target and
without a number, whatever else is written on the line and whether or not the block is closed.
The manifest lists, under their type, exactly the targets of the closed ones, which are all
different; each entry holds the assets and the search paths of its own block. -/
theorem targets_of_dropped (document : Text) (o : Options) :
    let ls := Line.texts document
    let t := BlockTable.extract document
    let m := (transform document o).manifest
    (∀ i n, (Extraction.droppings ls)[i]? = some n → ∃ b ∈ t.blocks, Extraction.OpenedAt ls n b ∧
        b.key = ⟨"remove".toList, some (numeral i), b.directive.attributes, none⟩) ∧
      (m.targetNames "remove".toList).Perm (t.closedDropped.map fun b => b.key.manifestTarget) ∧
      (t.closedDropped.map fun b => b.key.manifestTarget).Nodup ∧
      ∀ target e, m.get? "remove".toList target = some e ↔
        ∃ b ∈ t.closedDropped, b.key.target = some target ∧
          e = ⟨(Asset.ofInnerLines b.innerLines).eraseDups, b.directive.searchPaths⟩ := by
  intro ls t m
  refine ⟨fun i n hn => ?_, ?_, BlockTable.nodup_manifestTarget_closedDropped document,
    fun target e => ⟨fun he => ?_, ?_⟩⟩
  · obtain ⟨b, hb, hopened⟩ := (BlockTable.forall₂_dropped document).exists_of_getElem? hn
    exact ⟨b, List.mem_of_mem_filter (List.mem_of_getElem? hb), hopened,
      BlockTable.key_of_dropped hb⟩
  · refine (List.perm_ext_iff_of_nodup (m.nodup_targetNames _)
      (BlockTable.nodup_manifestTarget_closedDropped document)).mpr fun target => ?_
    rw [Manifest.mem_targetNames_iff, List.mem_map]
    constructor
    · exact BlockTable.exists_closedDropped
    · rintro ⟨b, hb, rfl⟩
      exact Option.isSome_iff_exists.mpr ⟨_, BlockTable.get?_of_closedDropped hb⟩
  · obtain ⟨b, hb, rfl⟩ := BlockTable.exists_closedDropped (Option.isSome_iff_exists.mpr ⟨e, he⟩)
    have hown := he.symm.trans (BlockTable.get?_of_closedDropped hb)
    exact ⟨b, hb, (BlockTable.key_target_of_closedDropped hb).mpr rfl, Option.some.inj hown⟩
  · rintro ⟨b, hb, htarget, rfl⟩
    obtain rfl := (BlockTable.key_target_of_closedDropped hb).mp htarget
    exact BlockTable.get?_of_closedDropped hb

end BuildBlocks
