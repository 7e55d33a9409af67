import BuildBlocks.Proofs.Block.Numbering
import BuildBlocks.Proofs.Document.Concatenation

/-! # How many keys are tried for a block

The key of a block is looked for in a loop: the plain key is tried first and then, as long as the
rendering is taken, the key with the next number of the counter (`Tries`).  Nothing grows smaller
from one attempt to the next.  The loop ends because no two attempts render alike, so that those
that fail use up different renderings, and because every block before has taken exactly one
(`taken_afterLines`).  Hence there is at most one attempt more than there are blocks before, and
the block takes one rendering in its turn (`assign_attempts`).
-/
namespace BuildBlocks
open Text

namespace Naming

/-! ## The loop -/

/-- The loop that looks for a key: from the key `k` and the counter `c` on, `n` attempts lead to
the key `k'` and the counter `c'`.  An attempt that fails puts the counter after the target and
moves it on. -/
inductive Tries (taken : List RenderedKey) : BlockKey → Nat → Nat → BlockKey → Nat → Prop
  | free {k : BlockKey} {c : Nat} (h : k.rendered ∉ taken) : Tries taken k c 1 k c
  | again {k k' : BlockKey} {c c' n : Nat} (h : k.rendered ∈ taken)
      (hrest : Tries taken (k.withSuffix c) (c + 1) n k' c') : Tries taken k c (n + 1) k' c'

variable {taken : List RenderedKey} {s : Naming} {k k' : BlockKey} {d : Directive} {c c' n : Nat}

/-- The loop can go one way only. -/
theorem Tries.unique (h : Tries taken k c n k' c') {m : Nat} {other : BlockKey} {e : Nat}
    (hother : Tries taken k c m other e) : m = n ∧ other = k' ∧ e = c' := by
  induction h generalizing m with
  | free hfree =>
    cases hother with
    | free _ => exact ⟨rfl, rfl, rfl⟩
    | again htaken _ => exact absurd htaken hfree
  | again htaken _ ih =>
    cases hother with
    | free hfree => exact absurd htaken hfree
    | again _ hrest =>
      obtain ⟨rfl, rfl, rfl⟩ := ih hrest
      exact ⟨rfl, rfl, rfl⟩

/-- From a number on the loop goes through the numbers up to the first one that is free. -/
theorem tries_withSuffix {i : Nat}
    (htaken : ∀ m, c ≤ m → m < c + i → (k.withSuffix m).rendered ∈ taken)
    (hfree : (k.withSuffix (c + i)).rendered ∉ taken) :
    Tries taken (k.withSuffix c) (c + 1) (i + 1) (k.withSuffix (c + i)) (c + i + 1) := by
  induction i generalizing c with
  | zero => exact .free hfree
  | succ i ih =>
    -- The counter moves on with the loop, so what is passed over starts one number later.
    have hshift : c + (i + 1) = c + 1 + i := by omega
    rw [hshift] at htaken hfree ⊢
    have hfirst : (k.withSuffix c).rendered ∈ taken := htaken c (Nat.le_refl c) (by omega)
    exact .again hfirst (ih (fun m hle hlt => htaken m (by omega) hlt) hfree)

/-- The numbers that are passed over are fewer than the renderings that are taken: with the plain
key they render in as many ways. -/
theorem Picks.lt (hpicks : s.Picks k n) (hk : k.suffix = none) (h : k.rendered ∈ s.taken) :
    n < s.nextSuffix + s.taken.length := by
  obtain ⟨m, hle, hlt, hfree⟩ := exists_free hk h
  by_contra hge
  exact hfree (hpicks.taken_of_lt m hle (by omega))

/-- The loop ends with the key that naming gives out, after at most one attempt more than there
are renderings taken. -/
theorem exists_tries_assign (s : Naming) (d : Directive) :
    ∃ n, n ≤ s.taken.length + 1 ∧
      Tries s.taken (s.plainKey d) s.nextSuffix n (s.assign d).1 (s.assign d).2.nextSuffix := by
  by_cases h : (s.plainKey d).rendered ∈ s.taken
  · obtain ⟨n, hpicks, hkey, hnext⟩ := picks_assign h
    have hlt := hpicks.lt rfl h
    obtain ⟨i, rfl⟩ := Nat.exists_eq_add_of_le hpicks.le
    rw [hkey, hnext]
    refine ⟨i + 1 + 1, by omega, .again h ?_⟩
    exact tries_withSuffix hpicks.taken_of_lt hpicks.free
  · rw [assign_eq_plainKey h, nextSuffix_assign_of_not_mem h]
    exact ⟨1, by omega, .free h⟩

end Naming

/-! ## Lines that are scanned -/

/-- The directives that stand on lines. -/
def Line.directives (ls : List Line) : List Directive :=
  ls.filterMap fun l => Directive.parse l.text

namespace Segment

/-- Every directive line opens a passage, be it closed later or not. -/
theorem filterMap_directive?_scan (current : Option Passage) (ls : List Line) :
    (scan current ls).filterMap directive? =
      (current.map Passage.directive).toList ++ Line.directives ls := by
  induction ls generalizing current with
  | nil => cases current <;> rfl
  | cons l rest ih =>
    cases hd : Directive.parse l.text <;> cases current <;>
      by_cases hend : Directive.isEndMarker l.text = true <;>
        simp [scan, turn, Passage.push, Passage.opened, Line.directives, hd, hend, directive?, ih,
          List.filterMap_cons]

end Segment

namespace BlockTable
open Naming Line

/-- The blocks that lines open. -/
def opened (ls : List Line) : List Block :=
  ofSegments 0 1 .initial (Segment.ofLines ls)

/-- What lines leave for the key of the next block. -/
def afterLines (ls : List Line) : Naming :=
  initial.after (directives ls)

theorem map_directive_ofSegments (segs : List Segment) (offset number : Nat) (naming : Naming) :
    (ofSegments offset number naming segs).map Block.directive =
      segs.filterMap Segment.directive? := by
  induction segs generalizing offset number naming with
  | nil => rfl
  | cons s rest ih =>
    cases s with
    | plain l => exact ih _ _ _
    | passage p =>
      rw [ofSegments_passage, List.map_cons, ih]
      rfl

/-- Lines open one block for each directive, and the keys are given out in their order. -/
theorem map_key_opened (ls : List Line) :
    (opened ls).map Block.key = initial.keys (directives ls) := by
  rw [opened, map_key_ofSegments, map_directive_ofSegments, Segment.ofLines,
    Segment.filterMap_directive?_scan]
  rfl

/-- What is taken after lines is one rendering for each block that they open. -/
theorem taken_afterLines (ls : List Line) :
    (afterLines ls).taken = ((opened ls).map fun b => b.key.rendered).reverse := by
  rw [afterLines, taken_after, ← map_key_opened, List.map_map, initial, List.append_nil]
  rfl

theorem nodup_taken_afterLines (ls : List Line) : (afterLines ls).taken.Nodup := by
  have hnodup := (nodup_rendered_keys initial (directives ls)).1
  rw [← map_key_opened, List.map_map] at hnodup
  rw [taken_afterLines, List.nodup_reverse]
  exact hnodup

/-- The next directive line is given its key by what the lines before it leave. -/
theorem getElem?_opened_append {l : Line} {d : Directive} (hd : Directive.parse l.text = some d)
    (ls later : List Line) :
    (opened (ls ++ l :: later))[(opened ls).length]?.map Block.key =
      some ((afterLines ls).assign d).1 := by
  have hlength : (opened ls).length = (initial.keys (directives ls)).length := by
    rw [← map_key_opened, List.length_map]
  have hdirectives : directives (ls ++ l :: later) = directives ls ++ d :: directives later := by
    simp [directives, hd]
  rw [← List.getElem?_map, map_key_opened, hdirectives, keys_append, keys, hlength,
    List.getElem?_append_right (Nat.le_refl _), Nat.sub_self, List.getElem?_cons_zero, afterLines]

/-- **The loop that looks for a key ends.**  Whatever lines come before, the loop for the key of a
directive ends after at most one attempt more than there are blocks before, in one way only, with
the key that the next block is given.  Up to then one rendering is taken for each block before, no
two of them alike; the new block takes exactly one more, which is none of these. -/
theorem assign_attempts (ls : List Line) (d : Directive) :
    let s := afterLines ls
    let key := (s.assign d).1
    (∃ n, n ≤ (opened ls).length + 1 ∧
      Tries s.taken (s.plainKey d) s.nextSuffix n key (s.assign d).2.nextSuffix ∧
      ∀ m k c, Tries s.taken (s.plainKey d) s.nextSuffix m k c → m = n ∧ k = key) ∧
    s.taken = ((opened ls).map fun b => b.key.rendered).reverse ∧ s.taken.Nodup ∧
    (s.assign d).2.taken = key.rendered :: s.taken ∧ key.rendered ∉ s.taken ∧
    ∀ l later, Directive.parse l.text = some d →
      (opened (ls ++ l :: later))[(opened ls).length]?.map Block.key = some key := by
  intro s key
  refine ⟨?_, taken_afterLines ls, nodup_taken_afterLines ls, taken_assign s d,
    rendered_assign_not_mem s d, fun l later hd => getElem?_opened_append hd ls later⟩
  obtain ⟨n, hn, htries⟩ := exists_tries_assign s d
  rw [taken_afterLines, List.length_reverse, List.length_map] at hn
  refine ⟨n, hn, htries, fun m k c h => ?_⟩
  obtain ⟨hm, hk, _⟩ := htries.unique h
  exact ⟨hm, hk⟩

/-- The lines of `numbered` in front of its last block. -/
def numberedLines : List Line :=
  (Line.lines numbered).take 3

theorem afterLines_numberedLines : afterLines numberedLines =
    ⟨[⟨"js".toList, "replace0".toList, none⟩, ⟨"js".toList, "replace1".toList, none⟩,
      ⟨"js".toList, "replace".toList, none⟩], 0, 1⟩ := by
  decide

/-- The plain key of the last block of `numbered` is taken, and so is the one with the next number:
behind three blocks it takes three attempts. -/
theorem attempts_numberedBlock :
    let s := afterLines numberedLines
    Tries s.taken (s.plainKey numberedBlock.directive) s.nextSuffix 3 numberedBlock.key 3 ∧
    3 ≤ (opened numberedLines).length + 1 ∧
    Directive.parse "<!-- build:js -->".toList = some numberedBlock.directive ∧
    (opened (numberedLines ++ [⟨"<!-- build:js -->".toList, some .lf⟩]))[
      (opened numberedLines).length]?.map Block.key = some numberedBlock.key := by
  obtain ⟨⟨n, hn, _, hunique⟩, _, _, _, _, hnext⟩ :=
    assign_attempts numberedLines numberedBlock.directive
  have htries : Tries (afterLines numberedLines).taken
      ((afterLines numberedLines).plainKey numberedBlock.directive)
      (afterLines numberedLines).nextSuffix 3 numberedBlock.key 3 := by
    rw [afterLines_numberedLines]
    exact .again (by decide) (.again (by decide) (.free (by decide)))
  obtain ⟨rfl, hkey⟩ := hunique _ _ _ htries
  have hparse : Directive.parse "<!-- build:js -->".toList = some numberedBlock.directive := by
    decide
  refine ⟨htries, hn, hparse, ?_⟩
  rw [hkey]
  exact hnext ⟨"<!-- build:js -->".toList, some .lf⟩ [] hparse

end BlockTable
end BuildBlocks
