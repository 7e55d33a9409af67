import BuildBlocks.Proofs.Block.Placement

/-! # Keys over a run of directives

The keys of a document's blocks depend on the directives alone (`map_key_ofSegments`).  What
a run of directives leaves for the next one is kept as an invariant: the renderings that are
taken are those of the keys given out (`taken_after`).  A block's key is the plain one unless
a block before it renders like that (`plain_or_taken`).
-/
namespace BuildBlocks
open Text

namespace Naming

/-- The keys of directives, given out one after the other. -/
def keys : Naming → List Directive → List BlockKey
  | _, [] => []
  | s, d :: rest => (s.assign d).1 :: keys (s.assign d).2 rest

/-- What a run of directives leaves. -/
def after : Naming → List Directive → Naming
  | s, [] => s
  | s, d :: rest => after (s.assign d).2 rest

theorem keys_append (s : Naming) (ds es : List Directive) :
    s.keys (ds ++ es) = s.keys ds ++ (s.after ds).keys es := by
  induction ds generalizing s with
  | nil => rfl
  | cons d ds ih => rw [List.cons_append, keys, ih, keys, after, List.cons_append]

theorem length_keys (s : Naming) (ds : List Directive) : (s.keys ds).length = ds.length := by
  induction ds generalizing s with
  | nil => rfl
  | cons d ds ih => rw [keys, List.length_cons, ih, List.length_cons]

/-- Giving out a key takes its rendering and nothing else. -/
theorem taken_assign (s : Naming) (d : Directive) :
    (s.assign d).2.taken = (s.assign d).1.rendered :: s.taken := by
  by_cases h : (s.plainKey d).rendered ∈ s.taken <;> simp [assign, h]

/-- The renderings that are taken after a run are those of its keys. -/
theorem taken_after (s : Naming) (ds : List Directive) :
    (s.after ds).taken = ((s.keys ds).map BlockKey.rendered).reverse ++ s.taken := by
  induction ds generalizing s with
  | nil => rfl
  | cons d ds ih =>
    rw [after, ih, taken_assign, keys, List.map_cons, List.reverse_cons, List.append_assoc]
    rfl

/-- A key is told apart by a number only when its plain form is taken. -/
theorem assign_eq_plainKey {s : Naming} {d : Directive} (h : (s.plainKey d).rendered ∉ s.taken) :
    (s.assign d).1 = s.plainKey d := by
  simp [assign, h]

/-- The plain key of a block that is not dropped renders as its directive says. -/
theorem rendered_plainKey {d : Directive} (h : d.blockType ≠ .remove) (s : Naming) :
    (s.plainKey d).rendered = ⟨d.kind, d.targetOrDefault, d.attributes⟩ := by
  simp [plainKey, BlockKey.rendered, BlockKey.manifestTarget, Directive.targetOrDefault, h]

end Naming

namespace BlockTable
open Naming

theorem map_key_ofSegments (segs : List Segment) (offset number : Nat) (naming : Naming) :
    (ofSegments offset number naming segs).map Block.key =
      naming.keys ((ofSegments offset number naming segs).map Block.directive) := by
  induction segs generalizing offset number naming with
  | nil => rfl
  | cons s rest ih =>
    cases s with
    | plain l => exact ih _ _ _
    | passage p =>
      rw [ofSegments_passage, List.map_cons, List.map_cons, keys, ih]
      rfl

/-- The key of a block is assigned after the keys of all blocks before it. -/
theorem key_of_append_cons {document : Text} {before later : List Block} {b : Block}
    (h : (extract document).blocks = before ++ b :: later) :
    b.key = ((initial.after (before.map Block.directive)).assign b.directive).1 ∧
      ∀ r, r ∈ (initial.after (before.map Block.directive)).taken ↔
        ∃ a ∈ before, a.key.rendered = r := by
  have hkeys := map_key_ofSegments (Segment.ofDocument document) 0 1 initial
  rw [show ofSegments 0 1 initial (Segment.ofDocument document) = before ++ b :: later from h,
    List.map_append, List.map_append, keys_append] at hkeys
  -- the keys of the blocks before `b` are as many as their directives
  obtain ⟨hbefore, hrest⟩ := List.append_inj hkeys (by rw [length_keys, List.length_map,
    List.length_map])
  refine ⟨(List.cons.inj hrest).1, fun r => ?_⟩
  rw [taken_after, ← hbefore, initial, List.append_nil, List.mem_reverse, List.map_map,
    List.mem_map]
  rfl

/-- A block that is not dropped has the key that its directive says, unless a block before it
has taken the rendering of that key. -/
theorem plain_or_taken {document : Text} {before later : List Block} {b : Block}
    (h : (extract document).blocks = before ++ b :: later) (hb : b.directive.blockType ≠ .remove) :
    b.key.rendered = ⟨b.directive.kind, b.directive.targetOrDefault, b.directive.attributes⟩ ∨
      ∃ a ∈ before, a.key.rendered =
        ⟨b.directive.kind, b.directive.targetOrDefault, b.directive.attributes⟩ := by
  obtain ⟨hkey, htaken⟩ := key_of_append_cons h
  rw [← rendered_plainKey hb (initial.after (before.map Block.directive)), ← htaken]
  by_cases hmem : ((initial.after (before.map Block.directive)).plainKey b.directive).rendered ∈
      (initial.after (before.map Block.directive)).taken
  · exact .inr hmem
  · rw [hkey, assign_eq_plainKey hmem]
    exact .inl rfl

end BlockTable
end BuildBlocks
