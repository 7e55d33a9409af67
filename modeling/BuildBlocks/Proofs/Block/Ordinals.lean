import BuildBlocks.Proofs.Block.Extraction
import BuildBlocks.Proofs.Block.Numbering

/-! # Dropped blocks are counted

The key of a block that is dropped does not hang on what its directive says beside the type: its
target is the place of the directive among those of its kind.  No number is ever put after it, for
all renderings of dropped blocks that are taken are those of smaller ordinals (`Counted`), which
every directive of a run keeps.  So the `i`-th line that drops a block opens the block with the
numeral of `i` (`forall₂_dropped` and `key_of_dropped`).
-/
namespace BuildBlocks
open Text

theorem BlockType.ofName_eq_remove_iff {name : Text} :
    ofName name = .remove ↔ name = "remove".toList := by
  rw [ofName]
  by_cases hcss : name = "css".toList
  · subst hcss
    decide
  · by_cases hjs : name = "js".toList
    · subst hjs
      decide
    · by_cases hremove : name = "remove".toList
      · subst hremove
        decide
      · rw [if_neg hcss, if_neg hjs, if_neg hremove]
        simp only [reduceCtorEq, hremove]

/-- Whether the directive opens a block that is dropped. -/
def Directive.drops (d : Directive) : Bool :=
  d.blockType = .remove

theorem Directive.drops_iff {d : Directive} : d.drops = true ↔ d.kind = "remove".toList := by
  rw [drops, decide_eq_true_eq, blockType, BlockType.ofName_eq_remove_iff]

namespace Naming

/-! ## The renderings of dropped blocks -/

/-- The dropped blocks that have a key are counted: each has an ordinal below the next one. -/
def Counted (s : Naming) : Prop :=
  ∀ r ∈ s.taken, r.kind = "remove".toList → ∃ i < s.removals, r.target = numeral i

variable {s : Naming} {d : Directive}

theorem counted_initial : initial.Counted :=
  fun _ hr => absurd hr List.not_mem_nil

/-- The next ordinal is free, whatever attributes are put to it. -/
theorem Counted.rendered_plainKey_not_mem (h : s.Counted) (hd : d.drops = true) :
    (s.plainKey d).rendered ∉ s.taken := by
  intro hmem
  obtain ⟨i, hi, htarget⟩ := h _ hmem (Directive.drops_iff.mp hd)
  have hnext : (s.plainKey d).rendered.target = numeral s.removals := by
    have hremove : d.blockType = .remove := of_decide_eq_true hd
    simp [BlockKey.rendered, BlockKey.manifestTarget, plainKey, hremove]
  have hsame : s.removals = i := numeral_injective (hnext.symm.trans htarget)
  omega

/-- A dropped block has its ordinal for a target and no number. -/
theorem Counted.assign_eq (h : s.Counted) (hd : d.drops = true) :
    (s.assign d).1 = ⟨"remove".toList, some (numeral s.removals), d.attributes, none⟩ := by
  rw [assign_eq_plainKey (h.rendered_plainKey_not_mem hd), plainKey, Directive.drops_iff.mp hd,
    if_pos (of_decide_eq_true hd)]

/-- Every directive keeps the dropped blocks counted. -/
theorem Counted.assign (h : s.Counted) (d : Directive) : (s.assign d).2.Counted := by
  intro r hr hkind
  rw [taken_assign] at hr
  rw [removals_assign]
  rcases List.mem_cons.mp hr with rfl | hr
  · -- only a block that is dropped itself renders with this type
    have hkeykind : (s.assign d).1.kind = d.kind :=
      congrArg BlockKey.kind (assign_eq_plainKey_with s d)
    have hd : d.drops = true := Directive.drops_iff.mpr (hkeykind.symm.trans hkind)
    rw [h.assign_eq hd, if_pos (of_decide_eq_true hd)]
    exact ⟨s.removals, Nat.lt_succ_self _, List.append_nil _⟩
  · obtain ⟨i, hi, htarget⟩ := h r hr hkind
    refine ⟨i, ?_, htarget⟩
    split <;> omega

theorem Counted.after (h : s.Counted) (ds : List Directive) : (s.after ds).Counted := by
  induction ds generalizing s with
  | nil => exact h
  | cons d ds ih => exact ih (h.assign d)

end Naming

/-! ## The dropped blocks of a document -/

/-- Whether the block is dropped. -/
def Block.dropped (b : Block) : Bool :=
  b.directive.drops

/-- The blocks that are dropped, closed or not. -/
def BlockTable.dropped (t : BlockTable) : List Block :=
  t.blocks.filter Block.dropped

/-- The indexes of the lines whose directive opens a block that is dropped. -/
def Extraction.droppings (ls : List Text) : List Nat :=
  (openings ls).filter fun i => (ls[i]?.bind Directive.parse).any Directive.drops

namespace BlockTable
open Extraction

/-- The dropped blocks belong one by one to the lines that drop them. -/
theorem forall₂_dropped (document : Text) :
    List.Forall₂ (OpenedAt (Line.texts document)) (droppings (Line.texts document))
      (extract document).dropped := by
  refine List.rel_filter (fun i b hopened => ?_) (forall₂_openedAt_blocks document)
  show ((Line.texts document)[i]?.bind Directive.parse).any Directive.drops = true ↔ _
  rw [hopened.directive]
  rfl

/-- **The `i`-th dropped block is numbered `i`**, counting those that nothing closes. -/
theorem key_of_dropped {document : Text} {i : Nat} {b : Block}
    (h : (extract document).dropped[i]? = some b) :
    b.key = ⟨"remove".toList, some (numeral i), b.directive.attributes, none⟩ := by
  obtain ⟨hi, hget⟩ := List.getElem?_eq_some_iff.mp h
  -- the blocks before `b` hold the first `i` dropped ones
  have hsplit : (extract document).dropped =
      (extract document).dropped.take i ++ b :: (extract document).dropped.drop (i + 1) := by
    rw [← hget, List.getElem_cons_drop, List.take_append_drop]
  obtain ⟨front, rest, hblocks, hfront, hrest⟩ := List.filter_eq_append_iff.mp hsplit
  obtain ⟨between, later, rfl, hbetween, hdropped, _⟩ := List.filter_eq_cons_iff.mp hrest
  rw [← List.append_assoc] at hblocks
  obtain ⟨hkey, _⟩ := key_of_append_cons hblocks
  have hcount : (front ++ between).countP (fun a => a.directive.blockType = .remove) = i := by
    have hnone : between.filter Block.dropped = [] := List.filter_eq_nil_iff.mpr hbetween
    show (front ++ between).countP Block.dropped = i
    rw [List.countP_eq_length_filter, List.filter_append, hfront, hnone, List.append_nil,
      List.length_take, Nat.min_eq_left (Nat.le_of_lt hi)]
  have hremovals :
      (Naming.initial.after ((front ++ between).map Block.directive)).removals = i := by
    rw [Naming.removals_after, List.countP_map, Naming.initial, Nat.zero_add]
    exact hcount
  rw [hkey, (Naming.counted_initial.after _).assign_eq hdropped, hremovals]

end BlockTable
end BuildBlocks
