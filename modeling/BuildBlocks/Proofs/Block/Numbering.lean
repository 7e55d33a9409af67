import BuildBlocks.Proofs.Block.Naming
import Mathlib.Data.List.Nodup
import Mathlib.Data.List.Perm.Subperm

/-! # Keys are told apart by numbers

When the plain form of a key is taken, naming goes through the numbers from a counter on until
a rendering is free.  There always is such a number (`picks_assign`), since numerals of
different numbers differ and no more renderings are taken than keys were given out.  Hence
what is given out is always new (`rendered_assign_not_mem`), and over a run of directives the
renderings are all different and the numbers ascend.  The main statement is `extract_keys`.
-/
namespace BuildBlocks
open Text

namespace Text

/-- A number can be read off its numeral. -/
theorem numeral_injective : Function.Injective numeral := by
  intro m n h
  have hread := congrArg (fun digits => Nat.ofDigitChars 10 digits 0) h
  simpa only [numeral, Nat.ofDigitChars_ten_toDigits] using hread

end Text

namespace BlockKey

/-- Numbers that differ make renderings that differ. -/
theorem rendered_withSuffix_injective (k : BlockKey) :
    Function.Injective fun n => (k.withSuffix n).rendered := by
  intro m n h
  have htarget := congrArg RenderedKey.target h
  exact numeral_injective (List.append_cancel_left htarget)

/-- A number changes the rendering of a key that has none. -/
theorem rendered_withSuffix_ne {k : BlockKey} (hk : k.suffix = none) (n : Nat) :
    (k.withSuffix n).rendered ≠ k.rendered := by
  intro h
  have htarget := congrArg RenderedKey.target h
  simp only [rendered, manifestTarget, withSuffix, hk, Option.elim, List.append_nil] at htarget
  exact Nat.toDigits_ne_nil (List.append_right_eq_self.mp htarget)

end BlockKey

namespace Naming

/-! ## The first free number -/

section FirstFree
variable {used : Nat → Bool} {bound n m : Nat}

theorem le_firstFree : n ≤ firstFree used bound n := by
  induction bound generalizing n with
  | zero => exact Nat.le_refl n
  | succ bound ih =>
    rw [firstFree]
    split
    · exact Nat.le_of_succ_le ih
    · exact Nat.le_refl n

theorem used_of_lt_firstFree (hn : n ≤ m) (hm : m < firstFree used bound n) : used m = true := by
  induction bound generalizing n with
  | zero =>
    rw [firstFree] at hm
    omega
  | succ bound ih =>
    rw [firstFree] at hm
    split at hm
    · rename_i hused
      rcases Nat.eq_or_lt_of_le hn with rfl | hlt
      · exact hused
      · exact ih hlt hm
    · omega

/-- The search misses a free number only when all it can look at are used. -/
theorem used_of_used_firstFree (h : used (firstFree used bound n) = true) (hn : n ≤ m)
    (hm : m ≤ n + bound) : used m = true := by
  induction bound generalizing n with
  | zero =>
    obtain rfl : n = m := Nat.le_antisymm hn hm
    exact h
  | succ bound ih =>
    rw [firstFree] at h
    split at h
    · rename_i hused
      rcases Nat.eq_or_lt_of_le hn with rfl | hlt
      · exact hused
      · exact ih h hlt (by omega)
    · rename_i hfree
      exact absurd h hfree

end FirstFree

/-- The number that naming takes for a key whose plain form is taken: the first one from the
counter on with a free rendering. -/
structure Picks (s : Naming) (k : BlockKey) (n : Nat) : Prop where
  le : s.nextSuffix ≤ n
  free : (k.withSuffix n).rendered ∉ s.taken
  taken_of_lt : ∀ m, s.nextSuffix ≤ m → m < n → (k.withSuffix m).rendered ∈ s.taken

theorem Picks.unique {s : Naming} {k : BlockKey} {m n : Nat} (hm : s.Picks k m)
    (hn : s.Picks k n) : m = n := by
  rcases Nat.lt_trichotomy m n with hlt | rfl | hlt
  · exact absurd (hn.taken_of_lt m hm.le hlt) hm.free
  · rfl
  · exact absurd (hm.taken_of_lt n hn.le hlt) hn.free

/-- When the plain key is taken too, the other keys cannot use as many numbers as keys are
taken. -/
theorem exists_free {s : Naming} {k : BlockKey} (hk : k.suffix = none) (h : k.rendered ∈ s.taken) :
    ∃ m, s.nextSuffix ≤ m ∧ m < s.nextSuffix + s.taken.length ∧
      (k.withSuffix m).rendered ∉ s.taken := by
  by_contra hnone
  let numbered := (List.range' s.nextSuffix s.taken.length).map fun m => (k.withSuffix m).rendered
  have hplain : k.rendered ∉ numbered := by
    intro hmem
    obtain ⟨m, _, hm⟩ := List.mem_map.mp hmem
    exact BlockKey.rendered_withSuffix_ne hk m hm
  have hnodup : (k.rendered :: numbered).Nodup :=
    List.nodup_cons.mpr ⟨hplain, List.Nodup.map k.rendered_withSuffix_injective List.nodup_range'⟩
  have hsubset : k.rendered :: numbered ⊆ s.taken := by
    intro r hr
    rcases List.mem_cons.mp hr with rfl | hr
    · exact h
    · obtain ⟨m, hm, rfl⟩ := List.mem_map.mp hr
      rw [List.mem_range'_1] at hm
      by_contra hfree
      exact hnone ⟨m, hm.1, hm.2, hfree⟩
  have hlength := (List.subperm_of_subset hnodup hsubset).length_le
  rw [List.length_cons, List.length_map, List.length_range'] at hlength
  omega

/-! ## What a directive's key is -/

/-- The number of dropped blocks after a directive. -/
theorem removals_assign (s : Naming) (d : Directive) :
    (s.assign d).2.removals =
      if d.blockType = .remove then s.removals + 1 else s.removals := by
  by_cases h : (s.plainKey d).rendered ∈ s.taken <;> simp [assign, h]

/-- A directive whose plain key is free leaves the counter alone. -/
theorem nextSuffix_assign_of_not_mem {s : Naming} {d : Directive}
    (h : (s.plainKey d).rendered ∉ s.taken) : (s.assign d).2.nextSuffix = s.nextSuffix := by
  simp [assign, h]

/-- A directive whose plain key is taken gets the number that naming picks, and the counter
goes on behind it. -/
theorem picks_assign {s : Naming} {d : Directive} (h : (s.plainKey d).rendered ∈ s.taken) :
    ∃ n, s.Picks (s.plainKey d) n ∧ (s.assign d).1 = (s.plainKey d).withSuffix n ∧
      (s.assign d).2.nextSuffix = n + 1 := by
  let used n := decide (((s.plainKey d).withSuffix n).rendered ∈ s.taken)
  refine ⟨firstFree used s.taken.length s.nextSuffix, ⟨le_firstFree, ?_, ?_⟩, ?_, ?_⟩
  · intro hused
    obtain ⟨m, hle, hlt, hfree⟩ := exists_free rfl h
    have hm : used m = true :=
      used_of_used_firstFree (decide_eq_true hused) hle (Nat.le_of_lt hlt)
    exact hfree (of_decide_eq_true hm)
  · exact fun m hle hlt => of_decide_eq_true (used_of_lt_firstFree hle hlt)
  · simp only [assign, if_pos h]
    rfl
  · simp only [assign, if_pos h, used]

/-- Whatever its number, a key is made from the plain one. -/
theorem assign_eq_plainKey_with (s : Naming) (d : Directive) :
    (s.assign d).1 = { s.plainKey d with suffix := (s.assign d).1.suffix } := by
  by_cases h : (s.plainKey d).rendered ∈ s.taken
  · obtain ⟨n, _, hkey, _⟩ := picks_assign h
    rw [hkey]
    rfl
  · rw [assign_eq_plainKey h]

/-- A key has no number exactly when its plain form is free. -/
theorem suffix_assign_eq_none_iff {s : Naming} {d : Directive} :
    (s.assign d).1.suffix = none ↔ (s.plainKey d).rendered ∉ s.taken := by
  constructor
  · intro hnone hmem
    obtain ⟨n, _, hkey, _⟩ := picks_assign hmem
    rw [hkey] at hnone
    cases hnone
  · intro h
    rw [assign_eq_plainKey h]
    rfl

/-- **What is given out is new.** -/
theorem rendered_assign_not_mem (s : Naming) (d : Directive) :
    (s.assign d).1.rendered ∉ s.taken := by
  by_cases h : (s.plainKey d).rendered ∈ s.taken
  · obtain ⟨n, hpicks, hkey, _⟩ := picks_assign h
    rw [hkey]
    exact hpicks.free
  · rw [assign_eq_plainKey h]
    exact h

/-- A number that is given out lies between the counter before and after it. -/
theorem nextSuffix_le_of_suffix {s : Naming} {d : Directive} {n : Nat}
    (h : (s.assign d).1.suffix = some n) :
    s.nextSuffix ≤ n ∧ n < (s.assign d).2.nextSuffix := by
  by_cases hmem : (s.plainKey d).rendered ∈ s.taken
  · obtain ⟨m, hpicks, hkey, hnext⟩ := picks_assign hmem
    rw [hkey] at h
    obtain rfl : m = n := Option.some.inj h
    exact ⟨hpicks.le, by omega⟩
  · rw [suffix_assign_eq_none_iff.mpr hmem] at h
    cases h

theorem nextSuffix_le_assign (s : Naming) (d : Directive) :
    s.nextSuffix ≤ (s.assign d).2.nextSuffix := by
  by_cases h : (s.plainKey d).rendered ∈ s.taken
  · obtain ⟨n, hpicks, _, hnext⟩ := picks_assign h
    have := hpicks.le
    omega
  · exact Nat.le_of_eq (nextSuffix_assign_of_not_mem h).symm

/-! ## Runs of directives -/

/-- A run gives out renderings that are new and all different. -/
theorem nodup_rendered_keys (s : Naming) (ds : List Directive) :
    ((s.keys ds).map BlockKey.rendered).Nodup ∧
      ∀ r ∈ (s.keys ds).map BlockKey.rendered, r ∉ s.taken := by
  induction ds generalizing s with
  | nil => exact ⟨List.nodup_nil, fun r hr => absurd hr List.not_mem_nil⟩
  | cons d ds ih =>
    obtain ⟨hnodup, hnew⟩ := ih (s.assign d).2
    rw [taken_assign] at hnew
    rw [keys, List.map_cons]
    refine ⟨List.nodup_cons.mpr ⟨fun hmem => ?_, hnodup⟩, fun r hr => ?_⟩
    · exact hnew _ hmem List.mem_cons_self
    · rcases List.mem_cons.mp hr with rfl | hr
      · exact rendered_assign_not_mem s d
      · exact fun htaken => hnew r hr (List.mem_cons_of_mem _ htaken)

/-- A run gives out numbers from the counter on, in ascending order. -/
theorem pairwise_suffix_keys (s : Naming) (ds : List Directive) :
    ((s.keys ds).filterMap BlockKey.suffix).Pairwise (· < ·) ∧
      ∀ n ∈ (s.keys ds).filterMap BlockKey.suffix, s.nextSuffix ≤ n := by
  induction ds generalizing s with
  | nil => exact ⟨List.Pairwise.nil, fun n hn => absurd hn List.not_mem_nil⟩
  | cons d ds ih =>
    obtain ⟨hpair, hle⟩ := ih (s.assign d).2
    rw [keys]
    cases hsuffix : (s.assign d).1.suffix with
    | none =>
      rw [List.filterMap_cons_none hsuffix]
      exact ⟨hpair, fun n hn => Nat.le_trans (nextSuffix_le_assign s d) (hle n hn)⟩
    | some m =>
      rw [List.filterMap_cons_some hsuffix]
      obtain ⟨hm, hnext⟩ := nextSuffix_le_of_suffix hsuffix
      refine ⟨List.pairwise_cons.mpr ⟨fun n hn => ?_, hpair⟩, fun n hn => ?_⟩
      · exact Nat.lt_of_lt_of_le hnext (hle n hn)
      · rcases List.mem_cons.mp hn with rfl | hn
        · exact hm
        · have := hle n hn
          omega

/-- A run counts the blocks that are dropped. -/
theorem removals_after (s : Naming) (ds : List Directive) :
    (s.after ds).removals = s.removals + ds.countP fun d => d.blockType = .remove := by
  induction ds generalizing s with
  | nil => rfl
  | cons d ds ih =>
    rw [after, ih, removals_assign, List.countP_cons]
    by_cases hd : d.blockType = .remove
    · simp only [hd, if_true, decide_true]
      omega
    · simp only [hd, if_false, decide_false]
      rfl

end Naming

/-! ## The keys of a document -/

/-- The rendering that a block's directive asks for, when the blocks before it are `before`: its
own target or the default one, or its place among the blocks that are dropped. -/
def Block.asked (b : Block) (before : List Block) : RenderedKey where
  kind := b.directive.kind
  target :=
    if b.directive.blockType = .remove then
      numeral (before.countP fun a => a.directive.blockType = .remove)
    else b.directive.targetOrDefault
  attributes := b.directive.attributes

namespace BlockTable
open Naming

/-- The plain key of a block renders as its directive asks. -/
theorem rendered_plainKey_after (before : List Block) (b : Block) :
    ((initial.after (before.map Block.directive)).plainKey b.directive).rendered =
      b.asked before := by
  by_cases hb : b.directive.blockType = .remove
  · have hcount : (initial.after (before.map Block.directive)).removals =
        before.countP fun a => a.directive.blockType = .remove := by
      rw [removals_after, List.countP_map, initial, Nat.zero_add]
      rfl
    simp [plainKey, BlockKey.rendered, BlockKey.manifestTarget, Block.asked, hb, hcount]
  · rw [rendered_plainKey hb, Block.asked, if_neg hb]

/-- **The keys of a document's blocks.**  No two blocks render alike.  A block renders as its
directive asks, with a number after the target exactly when a block before it renders like
that; the numbers ascend through the document. -/
theorem extract_keys (document : Text) :
    let blocks := (extract document).blocks
    (blocks.map fun b => b.key.rendered).Nodup ∧
      (∀ before b later, blocks = before ++ b :: later →
        b.key.rendered = { b.asked before with
          target := (b.asked before).target ++ b.key.suffix.elim [] numeral } ∧
        (b.key.suffix = none ↔ ∀ a ∈ before, a.key.rendered ≠ b.asked before)) ∧
      (blocks.filterMap fun b => b.key.suffix).Pairwise (· < ·) := by
  intro blocks
  have hkeys : blocks.map Block.key = initial.keys (blocks.map Block.directive) :=
    map_key_ofSegments (Segment.ofDocument document) 0 1 initial
  refine ⟨?_, fun before b later hsplit => ?_, ?_⟩
  · have hnodup := (nodup_rendered_keys initial (blocks.map Block.directive)).1
    rw [← hkeys, List.map_map] at hnodup
    exact hnodup
  · obtain ⟨hkey, htaken⟩ := key_of_append_cons hsplit
    have hasked := rendered_plainKey_after before b
    constructor
    · -- apart from its number the key is the plain one
      have hplain := assign_eq_plainKey_with (initial.after (before.map Block.directive)) b.directive
      rw [← hkey] at hplain
      rw [← hasked]
      generalize b.key.suffix = suffix at hplain
      rw [hplain]
      simp [BlockKey.rendered, BlockKey.manifestTarget, plainKey]
    · rw [hkey, suffix_assign_eq_none_iff, hasked, htaken]
      constructor
      · exact fun hfree a ha heq => hfree ⟨a, ha, heq⟩
      · rintro hfree ⟨a, ha, heq⟩
        exact hfree a ha heq
  · have hpair := (pairwise_suffix_keys initial (blocks.map Block.directive)).1
    rw [← hkeys, List.filterMap_map] at hpair
    exact hpair

/-- Four script blocks, of which the second names a target that a number would make. -/
def numbered : Text :=
  ("<!-- build:js -->\n" ++
    "<!-- build:js replace1 -->\n" ++
    "<!-- build:js -->\n" ++
    "<!-- build:js -->\n" ++
    "<!-- endbuild -->\n").toList

/-- The last block of `numbered`. -/
def numberedBlock : Block where
  key := ⟨"js".toList, none, none, some 2⟩
  directive := ⟨"js".toList, none, none, none⟩
  lines := ["<!-- build:js -->".toList, "<!-- endbuild -->".toList]
  span := ⟨63, 98⟩
  lineNumber := 4
  terminated := true

theorem blocks_numbered :
    (extract numbered).blocks = (extract numbered).blocks.take 3 ++ [numberedBlock] := by
  decide +kernel

/-- The number of the last block of `numbered` passes over the one that is written out. -/
theorem rendered_numberedBlock :
    (extract numbered).blocks = (extract numbered).blocks.take 3 ++ [numberedBlock] ∧
      numberedBlock.key.rendered = ⟨"js".toList, "replace2".toList, none⟩ ∧
      ¬ ∀ a ∈ (extract numbered).blocks.take 3,
        a.key.rendered ≠ numberedBlock.asked ((extract numbered).blocks.take 3) := by
  obtain ⟨hrendered, hsuffix⟩ := (extract_keys numbered).2.1 _ _ [] blocks_numbered
  refine ⟨blocks_numbered, hrendered.trans (by decide), ?_⟩
  rw [← hsuffix]
  decide

end BlockTable
end BuildBlocks
