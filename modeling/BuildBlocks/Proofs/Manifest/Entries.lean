import BuildBlocks.Proofs.Manifest.Assets
import Mathlib.Data.List.Forall2

/-! # The entries of a compiled manifest

A manifest is compiled block by block: each block changes the one entry of its key.  Seen
from an entry, only the blocks of its type and target matter (`get?_foldl_add`), and what
they leave in it is the first search paths and the first occurrences of their assets
(`foldl_add`).  The main statement is `compile_entries`.
-/
namespace BuildBlocks
open Text

namespace ManifestEntry

theorem push_of_mem {assets : List Text} {a : Text} (h : a ∈ assets) : push assets a = assets :=
  if_pos h

theorem push_of_not_mem {assets : List Text} {a : Text} (h : a ∉ assets) :
    push assets a = assets ++ [a] :=
  if_neg h

/-- Pushing assets one after the other adds the first occurrences of the new ones. -/
theorem foldl_push (found assets : List Text) :
    found.foldl push assets = assets ++ (found.filter fun a => a ∉ assets).eraseDups := by
  induction found generalizing assets with
  | nil => simp
  | cons a found ih =>
    rw [List.foldl_cons, ih]
    by_cases h : a ∈ assets
    · rw [push_of_mem h, List.filter_cons_of_neg (by simp [h])]
    · -- later occurrences of `a` are dropped on either side
      rw [push_of_not_mem h, List.filter_cons_of_pos (by simp [h]), List.eraseDups_cons,
        List.append_assoc, List.singleton_append, List.filter_filter]
      congr 3
      refine List.filter_congr fun b _ => ?_
      by_cases hb : b = a <;> simp [hb]

theorem nodup_foldl_push {assets : List Text} (h : assets.Nodup) (found : List Text) :
    (found.foldl push assets).Nodup := by
  induction found generalizing assets with
  | nil => exact h
  | cons a found ih =>
    rw [List.foldl_cons]
    by_cases ha : a ∈ assets
    · rw [push_of_mem ha]
      exact ih h
    · rw [push_of_not_mem ha]
      exact ih (List.nodup_append.mpr ⟨h, List.pairwise_singleton _ a, fun b hb c hc => by
        rw [List.mem_singleton] at hc
        exact fun hbc => ha (hc ▸ hbc ▸ hb)⟩)

/-- What blocks add to an entry one after the other. -/
theorem foldl_add (blocks : List Block) (e : ManifestEntry) :
    blocks.foldl add e =
      { assets := (blocks.flatMap fun b => Asset.ofInnerLines b.innerLines).foldl push e.assets
        searchPaths := e.searchPaths.or (blocks.findSome? fun b => b.directive.searchPaths) } := by
  induction blocks generalizing e with
  | nil => simp
  | cons b blocks ih =>
    rw [List.foldl_cons, ih, List.flatMap_cons, List.foldl_append, List.findSome?_cons]
    cases e with
    | mk assets searchPaths =>
      cases searchPaths <;> cases hb : b.directive.searchPaths <;> simp [add, hb]

end ManifestEntry

/-- Whether the block adds to the entry of a type and target. -/
def Block.feeds (kind target : Text) (b : Block) : Bool :=
  b.key.kind = kind ∧ b.key.manifestTarget = target

/-- The lines in which the assets of a block are looked for. -/
def Block.strippedLines (b : Block) : List Text :=
  Line.texts (Comment.strip (join ['\n'] b.innerLines))

theorem Block.ofInnerLines_eq (b : Block) :
    Asset.ofInnerLines b.innerLines = b.strippedLines.flatMap Asset.ofLine := by
  rw [Asset.ofInnerLines, strippedLines, ← Line.map_text_lines, List.flatMap_map]

namespace Manifest
variable {kind target : Text}

theorem get?_empty : empty.get? kind target = none := rfl

/-- A block changes the entry of its key and no other. -/
theorem get?_add (m : Manifest) (b : Block) :
    (m.add b).get? kind target =
      if b.feeds kind target then some (((m.get? kind target).getD .empty).add b)
      else m.get? kind target := by
  -- a type without entries reads like one with an empty map
  have hnew : ∀ targets : Option (SortedMap ManifestEntry),
      (targets.getD .empty).get? target = targets.bind fun entries => entries.get? target := by
    intro targets
    cases targets <;> rfl
  rw [get?, targets?, add, SortedMap.get?_alter]
  by_cases hkind : b.key.kind = kind
  · subst hkind
    rw [if_pos rfl, Option.bind_some, SortedMap.get?_alter]
    by_cases htarget : b.key.manifestTarget = target
    · subst htarget
      rw [if_pos rfl, if_pos (by simp [Block.feeds]), hnew]
      rfl
    · rw [if_neg htarget, if_neg (by simp [Block.feeds, htarget]), hnew]
      rfl
  · rw [if_neg hkind, if_neg (by simp [Block.feeds, hkind])]
    rfl

/-- Of several blocks an entry takes in those of its key, in their order. -/
theorem get?_foldl_add (blocks : List Block) (m : Manifest) :
    (blocks.foldl add m).get? kind target =
      (blocks.filter fun b => b.feeds kind target).foldl
        (fun entry b => some ((entry.getD .empty).add b)) (m.get? kind target) := by
  induction blocks generalizing m with
  | nil => rfl
  | cons b blocks ih =>
    rw [List.foldl_cons, ih, get?_add]
    by_cases h : b.feeds kind target = true
    · rw [if_pos h, List.filter_cons_of_pos h, List.foldl_cons]
    · rw [if_neg h, List.filter_cons_of_neg h]

/-- An entry is there when a block feeds it, and then holds what such blocks add. -/
theorem get?_compile (t : BlockTable) :
    (compile t).get? kind target =
      match t.terminated.filter fun b => b.feeds kind target with
      | [] => none
      | b :: blocks => some ((b :: blocks).foldl ManifestEntry.add .empty) := by
  -- an entry that is there once stays there
  have hsome : ∀ (blocks : List Block) (e : ManifestEntry),
      blocks.foldl (fun entry b => some ((entry.getD .empty).add b)) (some e) =
        some (blocks.foldl ManifestEntry.add e) := by
    intro blocks
    induction blocks with
    | nil => exact fun e => rfl
    | cons b blocks ih => exact fun e => ih (e.add b)
  rw [compile, ofBlocks, get?_foldl_add, get?_empty]
  split
  · rename_i h
    rw [h]
    rfl
  · rename_i b blocks h
    rw [h]
    exact hsome blocks (ManifestEntry.empty.add b)

/-- What an entry holds that is compiled from the given blocks. -/
structure Compiled (blocks : List Block) (e : ManifestEntry) : Prop where
  /-- The first search paths that a directive names are kept. -/
  searchPaths : e.searchPaths = blocks.findSome? fun b => b.directive.searchPaths
  /-- The assets are the first occurrences of what the lines name, one line after the other. -/
  assets : ∃ found, List.Forall₂ Asset.LineAssets (blocks.flatMap Block.strippedLines) found ∧
    e.assets = found.flatten.eraseDups
  nodup : e.assets.Nodup
  wellFormed : ∀ asset ∈ e.assets, Asset.WellFormed asset

/-- The assets of blocks are those of their lines. -/
theorem flatMap_ofInnerLines (blocks : List Block) :
    (blocks.flatMap fun b => Asset.ofInnerLines b.innerLines) =
      (blocks.flatMap Block.strippedLines).flatMap Asset.ofLine := by
  rw [List.flatMap_assoc]
  exact List.flatMap_congr fun b _ => b.ofInnerLines_eq

theorem compiled_foldl_add (blocks : List Block) :
    Compiled blocks (blocks.foldl ManifestEntry.add .empty) := by
  rw [ManifestEntry.foldl_add, flatMap_ofInnerLines]
  have hassets : ∀ found : List Text,
      found.foldl ManifestEntry.push ManifestEntry.empty.assets = found.eraseDups := by
    intro found
    rw [ManifestEntry.foldl_push]
    simp [ManifestEntry.empty]
  refine ⟨rfl, ⟨(blocks.flatMap Block.strippedLines).map Asset.ofLine, ?_, ?_⟩, ?_, ?_⟩
  · rw [List.forall₂_map_right_iff]
    exact List.forall₂_same.mpr fun line _ => Asset.lineAssets_ofLine line
  · rw [← List.flatMap_def]
    exact hassets _
  · exact ManifestEntry.nodup_foldl_push List.nodup_nil _
  · intro asset hasset
    rw [hassets, List.mem_eraseDups] at hasset
    obtain ⟨line, _, hline⟩ := List.mem_flatMap.mp hasset
    exact Asset.wellFormed_of_mem_ofLine hline

theorem mem_filter_feeds {t : BlockTable} {b : Block} :
    b ∈ t.terminated.filter (fun b => b.feeds kind target) ↔
      b ∈ t.terminated ∧ b.key.kind = kind ∧ b.key.manifestTarget = target := by
  rw [List.mem_filter, Block.feeds, decide_eq_true_eq]

/-- A closed block has an entry, and every entry comes from a closed block. -/
theorem isSome_get?_compile (t : BlockTable) :
    ((compile t).get? kind target).isSome = true ↔
      ∃ b ∈ t.terminated, b.key.kind = kind ∧ b.key.manifestTarget = target := by
  rw [get?_compile]
  split
  · rename_i hnone
    refine iff_of_false Bool.false_ne_true ?_
    rintro ⟨b, hb⟩
    rw [← mem_filter_feeds, hnone] at hb
    exact absurd hb List.not_mem_nil
  · rename_i b blocks hsome
    refine iff_of_true rfl ⟨b, mem_filter_feeds.mp ?_⟩
    rw [hsome]
    exact List.mem_cons_self

theorem get?_compile_eq_none_iff (t : BlockTable) :
    (compile t).get? kind target = none ↔
      ∀ b ∈ t.terminated, b.key.kind = kind → b.key.manifestTarget ≠ target := by
  rw [← Option.not_isSome_iff_eq_none, isSome_get?_compile]
  constructor
  · exact fun h b hb hkind htarget => h ⟨b, hb, hkind, htarget⟩
  · rintro h ⟨b, hb, hkind, htarget⟩
    exact h b hb hkind htarget

theorem compiled_of_get?_compile {t : BlockTable} {e : ManifestEntry}
    (h : (compile t).get? kind target = some e) :
    Compiled (t.terminated.filter fun b => b.feeds kind target) e := by
  rw [get?_compile] at h
  split at h
  · cases h
  · rename_i b blocks hsome
    obtain rfl := Option.some.inj h
    rw [hsome]
    exact compiled_foldl_add (b :: blocks)

/-- **A compiled manifest lists what its document's closed blocks name.**  An entry is there
exactly when a closed block has its type and target, and it holds what all these blocks add
to it; blocks that nothing closes add nothing. -/
theorem compile_entries (document kind target : Text) :
    let t := BlockTable.extract document
    let m := compile t
    ((m.get? kind target).isSome = true ↔
        ∃ b ∈ t.terminated, b.key.kind = kind ∧ b.key.manifestTarget = target) ∧
      ∀ e, m.get? kind target = some e →
        Compiled (t.terminated.filter fun b => b.feeds kind target) e :=
  ⟨isSome_get?_compile _, fun _ => compiled_of_get?_compile⟩

end Manifest
end BuildBlocks
