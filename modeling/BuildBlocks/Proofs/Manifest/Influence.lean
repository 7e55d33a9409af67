import BuildBlocks.Proofs.Block.Numbering
import BuildBlocks.Proofs.Block.Silencing
import BuildBlocks.Transform

/-! # What a block that nothing closes does to other blocks

Such a block is neither replaced nor listed, but it has taken a key.  To see what follows from
that, two namings run side by side: one over all blocks of a document, the other over the
closed ones (`Naming.Trails`).  They give a closed block the same key unless a block before it
that nothing closes stands in its way (`Block.Obstructs`).  The main statement is
`transform_silenced`: without the directives that open nothing, closed blocks give way to the
same texts, and the manifest is the same when no block obstructs another.
-/
namespace BuildBlocks
open Text

/-- The key of `u` bears on the key of the later block `b`: both are counted among the blocks
that are dropped, or `b` has a number and `u` has one too or renders like `b` does with some
number or without one. -/
def Block.Obstructs (u b : Block) : Prop :=
  u.directive.blockType = .remove ∧ b.directive.blockType = .remove ∨
    b.key.suffix ≠ none ∧
      (u.key.suffix ≠ none ∨ ∃ suffix, u.key.rendered = { b.key with suffix := suffix }.rendered)

/-- A block without a number does not obstruct the blocks of other types. -/
theorem Block.not_obstructs_of_kind_ne {u b : Block} (hu : u.key.suffix = none)
    (hkept : b.directive.blockType ≠ .remove) (hkind : u.key.kind ≠ b.key.kind) :
    ¬ u.Obstructs b := by
  rintro (⟨_, hremove⟩ | ⟨_, hnumber | ⟨suffix, hrendered⟩⟩)
  · exact hkept hremove
  · exact hnumber hu
  · exact hkind (congrArg RenderedKey.kind hrendered)

namespace Naming

/-! ## Two namings side by side -/

/-- The naming `s'` has given out the keys that `s` has, but for those of the blocks `gone`. -/
structure Trails (gone : List Block) (s s' : Naming) : Prop where
  taken : ∀ r, r ∈ s.taken ↔ r ∈ s'.taken ∨ ∃ u ∈ gone, u.key.rendered = r
  removals : (∀ u ∈ gone, u.directive.blockType ≠ .remove) → s'.removals = s.removals
  nextSuffix : (∀ u ∈ gone, u.key.suffix = none) → s'.nextSuffix = s.nextSuffix

variable {gone : List Block} {s s' : Naming} {b : Block} {d : Directive}

theorem Trails.refl (s : Naming) : Trails [] s s :=
  ⟨fun r => by simp, fun _ => rfl, fun _ => rfl⟩

/-- One naming alone gives out a key. -/
theorem Trails.drop (h : Trails gone s s') (hkey : b.key = (s.assign b.directive).1) :
    Trails (b :: gone) (s.assign b.directive).2 s' where
  taken r := by
    rw [taken_assign, ← hkey, List.mem_cons, h.taken]
    simp only [List.mem_cons, exists_eq_or_imp]
    rw [or_left_comm, eq_comm]
  removals hkept := by
    obtain ⟨hb, hgone⟩ := List.forall_mem_cons.mp hkept
    rw [removals_assign, if_neg hb, h.removals hgone]
  nextSuffix hplain := by
    obtain ⟨hb, hgone⟩ := List.forall_mem_cons.mp hplain
    rw [hkey, suffix_assign_eq_none_iff] at hb
    rw [nextSuffix_assign_of_not_mem hb, h.nextSuffix hgone]

theorem Trails.mem_taken (h : Trails gone s s') {r : RenderedKey} (hr : r ∈ s'.taken) :
    r ∈ s.taken :=
  (h.taken r).mpr (.inl hr)

/-- What none of the blocks that are gone renders like is taken in both namings. -/
theorem Trails.mem_taken_of_ne (h : Trails gone s s') {r : RenderedKey} (hr : r ∈ s.taken)
    (hne : ∀ u ∈ gone, u.key.rendered ≠ r) : r ∈ s'.taken := by
  rcases (h.taken r).mp hr with hr | ⟨u, hu, heq⟩
  · exact hr
  · exact absurd heq (hne u hu)

/-- Both namings give out the same key. -/
theorem Trails.both (h : Trails gone s s') (hkey : (s.assign d).1 = (s'.assign d).1)
    (hnext : (∀ u ∈ gone, u.key.suffix = none) →
      (s'.assign d).2.nextSuffix = (s.assign d).2.nextSuffix) :
    Trails gone (s.assign d).2 (s'.assign d).2 where
  taken r := by
    rw [taken_assign, taken_assign, hkey, List.mem_cons, List.mem_cons, h.taken, or_assoc]
  removals hkept := by rw [removals_assign, removals_assign, h.removals hkept]
  nextSuffix := hnext

/-- A plain key that is free in the one naming is free in the other. -/
theorem Trails.assign_of_not_mem (h : Trails gone s s') (hplain : s'.plainKey d = s.plainKey d)
    (hfree : (s.plainKey d).rendered ∉ s.taken) :
    (s.assign d).1 = (s'.assign d).1 ∧ Trails gone (s.assign d).2 (s'.assign d).2 := by
  have hfree' : (s'.plainKey d).rendered ∉ s'.taken := by
    rw [hplain]
    exact fun hmem => hfree (h.mem_taken hmem)
  have hkey : (s.assign d).1 = (s'.assign d).1 := by
    rw [assign_eq_plainKey hfree, assign_eq_plainKey hfree', hplain]
  refine ⟨hkey, h.both hkey fun hnumber => ?_⟩
  rw [nextSuffix_assign_of_not_mem hfree, nextSuffix_assign_of_not_mem hfree', h.nextSuffix hnumber]

/-- Both namings pick the same number, when the blocks that are gone have none and do not render
like the key with a number. -/
theorem Trails.picks (h : Trails gone s s') {k : BlockKey} {n : Nat} (hn : s.Picks k n)
    (hnumber : ∀ u ∈ gone, u.key.suffix = none)
    (hrendered : ∀ u ∈ gone, ∀ m, u.key.rendered ≠ (k.withSuffix m).rendered) : s'.Picks k n where
  le := by
    rw [h.nextSuffix hnumber]
    exact hn.le
  free hmem := hn.free (h.mem_taken hmem)
  taken_of_lt m hle hlt := by
    rw [h.nextSuffix hnumber] at hle
    exact h.mem_taken_of_ne (hn.taken_of_lt m hle hlt) fun u hu => hrendered u hu m

/-- A plain key that is taken in the one naming gets the same number in the other, when the
blocks that are gone have none and do not render like the key with a number or without. -/
theorem Trails.assign_of_mem (h : Trails gone s s') (hplain : s'.plainKey d = s.plainKey d)
    (hmem : (s.plainKey d).rendered ∈ s.taken) (hnumber : ∀ u ∈ gone, u.key.suffix = none)
    (hrendered : ∀ u ∈ gone, ∀ suffix,
      u.key.rendered ≠ { s.plainKey d with suffix := suffix }.rendered) :
    (s.assign d).1 = (s'.assign d).1 ∧ Trails gone (s.assign d).2 (s'.assign d).2 := by
  have hmem' : (s'.plainKey d).rendered ∈ s'.taken := by
    rw [hplain]
    exact h.mem_taken_of_ne hmem fun u hu => hrendered u hu none
  obtain ⟨n, hn, hkey, hnext⟩ := picks_assign hmem
  obtain ⟨n', hn', hkey', hnext'⟩ := picks_assign hmem'
  rw [hplain] at hn' hkey'
  obtain rfl : n' = n := hn'.unique (h.picks hn hnumber fun u hu m => hrendered u hu (some m))
  have hsame : (s.assign d).1 = (s'.assign d).1 := hkey.trans hkey'.symm
  exact ⟨hsame, h.both hsame fun _ => hnext'.trans hnext.symm⟩

/-- Both namings make the same plain key for a block that is not obstructed. -/
theorem Trails.plainKey_eq (h : Trails gone s s') (hfree : ∀ u ∈ gone, ¬ u.Obstructs b) :
    s'.plainKey b.directive = s.plainKey b.directive := by
  by_cases hb : b.directive.blockType = .remove
  · have hremovals := h.removals fun u hu hremove => hfree u hu (.inl ⟨hremove, hb⟩)
    simp only [plainKey, hremovals]
  · simp only [plainKey, if_neg hb]

/-- Both namings give out the same key to a block that is not obstructed. -/
theorem Trails.keep (h : Trails gone s s') (hkey : b.key = (s.assign b.directive).1)
    (hfree : ∀ u ∈ gone, ¬ u.Obstructs b) :
    b.key = (s'.assign b.directive).1 ∧
      Trails gone (s.assign b.directive).2 (s'.assign b.directive).2 := by
  have hplain := h.plainKey_eq hfree
  rw [hkey]
  by_cases hmem : (s.plainKey b.directive).rendered ∈ s.taken
  · obtain ⟨n, _, hgiven, _⟩ := picks_assign hmem
    rw [← hkey] at hgiven
    have hnumbered : b.key.suffix ≠ none := by simp [hgiven, BlockKey.withSuffix]
    refine h.assign_of_mem hplain hmem (fun u hu => ?_) fun u hu suffix heq => ?_
    · exact by_contra fun hsome => hfree u hu (.inr ⟨hnumbered, .inl hsome⟩)
    · refine hfree u hu (.inr ⟨hnumbered, .inr ⟨suffix, ?_⟩⟩)
      rw [heq, hgiven]
      rfl
  · exact h.assign_of_not_mem hplain hmem

/-- Over a run of blocks, the closed ones have the keys that they would have alone, when none of
them is obstructed. -/
theorem Trails.keys_eq {bs : List Block} (h : Trails gone s s')
    (hkeys : bs.map Block.key = s.keys (bs.map Block.directive))
    (hgone : ∀ u ∈ gone, ∀ b ∈ bs, b.terminated = true → ¬ u.Obstructs b)
    (hfree : bs.Pairwise fun u b =>
      u.terminated = false → b.terminated = true → ¬ u.Obstructs b) :
    (bs.filter Block.terminated).map Block.key =
      s'.keys ((bs.filter Block.terminated).map Block.directive) := by
  induction bs generalizing gone s s' with
  | nil => rfl
  | cons b bs ih =>
    obtain ⟨hkey, hrest⟩ := List.cons.inj hkeys
    obtain ⟨hhead, htail⟩ := List.pairwise_cons.mp hfree
    have hlater : ∀ u ∈ gone, ∀ c ∈ bs, c.terminated = true → ¬ u.Obstructs c :=
      fun u hu c hc => hgone u hu c (List.mem_cons_of_mem _ hc)
    cases hb : b.terminated with
    | true =>
      obtain ⟨hkey', h'⟩ := h.keep hkey fun u hu => hgone u hu b List.mem_cons_self hb
      rw [List.filter_cons_of_pos hb, List.map_cons, List.map_cons, keys, ← hkey',
        ih h' hrest hlater htail]
    | false =>
      rw [List.filter_cons_of_neg (by simp [hb])]
      refine ih (h.drop hkey) hrest (List.forall_mem_cons.mpr ⟨fun c hc => ?_, hlater⟩) htail
      exact hhead c hc hb

end Naming

/-! ## The manifest of a silenced document -/

namespace Manifest

/-- What a block adds depends on its key, its directive and its lines. -/
theorem add_congr {b c : Block} (m : Manifest) (hkey : b.key = c.key) (h : b.Unchanged c) :
    m.add c = m.add b := by
  simp only [add, ManifestEntry.add, Block.innerLines, hkey, h.directive, h.lines]

theorem foldl_add_congr {bs cs : List Block} (h : List.Forall₂ Block.Unchanged bs cs)
    (hkeys : bs.map Block.key = cs.map Block.key) (m : Manifest) :
    cs.foldl add m = bs.foldl add m := by
  induction h generalizing m with
  | nil => rfl
  | cons hbc _ ih =>
    obtain ⟨hkey, hrest⟩ := List.cons.inj hkeys
    rw [List.foldl_cons, List.foldl_cons, add_congr m hkey hbc, ih hrest]

end Manifest

namespace BlockTable

/-- The closed blocks of a document have the keys that they would have alone, when none of them
is obstructed by a block that nothing closes. -/
theorem map_key_terminated {document : Text}
    (hfree : ∀ u ∈ (extract document).unterminated, ∀ b ∈ (extract document).terminated,
      u.lineNumber < b.lineNumber → ¬ u.Obstructs b) :
    (extract document).terminated.map Block.key =
      Naming.initial.keys ((extract document).terminated.map Block.directive) := by
  have hkeys : (extract document).blocks.map Block.key =
      Naming.initial.keys ((extract document).blocks.map Block.directive) :=
    map_key_ofSegments (Segment.ofDocument document) 0 1 .initial
  refine (Naming.Trails.refl .initial).keys_eq hkeys (fun u hu => absurd hu List.not_mem_nil) ?_
  refine (Extraction.pairwise_lineNumber document).imp_of_mem fun {u b} hu hb hlt hopen hclosed => ?_
  exact hfree u (List.mem_filter.mpr ⟨hu, by simp [hopen]⟩) b (List.mem_filter.mpr ⟨hb, hclosed⟩) hlt

/-- A silenced document has the closed blocks of the document, and no others. -/
theorem forall₂_unchanged_silenced (document : Text) :
    List.Forall₂ Block.Unchanged (extract document).terminated
      (extract (silenced document)).blocks := by
  rw [extract, extract, ofDocument_silenced]
  exact forall₂_unchanged (fun s hs => Segment.wellFormed_ofDocument hs)
    (divided_ofDocument document) 0 0 1 .initial .initial

theorem terminated_of_mem_silenced {document : Text} {c : Block}
    (hc : c ∈ (extract (silenced document)).blocks) : c.terminated = true := by
  obtain ⟨b, hb, hbc⟩ := (forall₂_unchanged_silenced document).exists_of_mem_right hc
  rw [hbc.terminated]
  exact (List.mem_filter.mp hb).2

theorem terminated_silenced (document : Text) :
    (extract (silenced document)).terminated = (extract (silenced document)).blocks :=
  List.filter_eq_self.mpr fun _ => terminated_of_mem_silenced

theorem map_directive_silenced (document : Text) :
    (extract (silenced document)).blocks.map Block.directive =
      (extract document).terminated.map Block.directive :=
  ((forall₂_unchanged_silenced document).map_eq_map fun _ _ h => h.directive.symm).symm

end BlockTable

/-- **Documents without the directives that open nothing.**  When the directive line of every
block that nothing closes is left empty, the closed blocks stay on their lines and give way to
the same texts, under any options.  Their keys are those which they would have had alone, and
the manifest is the same when no open block obstructs a closed one after it. -/
theorem transform_silenced (document : Text) :
    let t := BlockTable.extract document
    let t' := BlockTable.extract (silenced document)
    List.Forall₂ (fun b c => b.Unchanged c ∧
        ∀ o, c.replacement? t'.ending o = b.replacement? t.ending o) t.terminated t'.terminated ∧
      t'.unterminated = [] ∧
      t'.terminated.map Block.key = Naming.initial.keys (t.terminated.map Block.directive) ∧
      ((∀ u ∈ t.unterminated, ∀ b ∈ t.terminated, u.lineNumber < b.lineNumber → ¬ u.Obstructs b) →
        ∀ o, (transform (silenced document) o).manifest = (transform document o).manifest) := by
  intro t t'
  have hmatch : List.Forall₂ Block.Unchanged t.terminated t'.terminated := by
    rw [BlockTable.terminated_silenced]
    exact BlockTable.forall₂_unchanged_silenced document
  have hkeys : t'.terminated.map Block.key =
      Naming.initial.keys (t.terminated.map Block.directive) := by
    rw [BlockTable.terminated_silenced, ← BlockTable.map_directive_silenced]
    exact BlockTable.map_key_ofSegments (Segment.ofDocument (silenced document)) 0 1 .initial
  rw [show t'.ending = t.ending from detect_silenced document]
  refine ⟨hmatch.imp fun b c h => ⟨h, h.replacement?_eq t.ending⟩, ?_, hkeys, fun hfree o => ?_⟩
  · refine List.filter_eq_nil_iff.mpr fun c hc => ?_
    simp [BlockTable.terminated_of_mem_silenced hc]
  · refine Manifest.foldl_add_congr hmatch ?_ .empty
    rw [hkeys]
    exact BlockTable.map_key_terminated hfree

/-- A stylesheet block that nothing closes, in front of two script blocks that ask for one key. -/
def unobstructed : Text :=
  ("<!-- build:css app.css -->\n" ++
    "<!-- build:js app.js -->\n" ++
    "<script src=\"a.js\"></script>\n" ++
    "<!-- endbuild -->\n" ++
    "<!-- build:js app.js -->\n" ++
    "<!-- endbuild -->\n").toList

theorem kinds_unobstructed :
    (BlockTable.extract unobstructed).unterminated.map Block.lineNumber = [1] ∧
      ∀ u ∈ (BlockTable.extract unobstructed).unterminated, u.key.suffix = none ∧
        ∀ b ∈ (BlockTable.extract unobstructed).terminated,
          b.directive.blockType ≠ .remove ∧ u.key.kind ≠ b.key.kind := by
  decide +kernel

/-- In `unobstructed` the open block is of a type of its own, so the manifest is the same
without it. -/
theorem manifest_silenced_unobstructed :
    (∀ u ∈ (BlockTable.extract unobstructed).unterminated,
      ∀ b ∈ (BlockTable.extract unobstructed).terminated,
        u.lineNumber < b.lineNumber → ¬ u.Obstructs b) ∧
      (transform (silenced unobstructed) .default).manifest =
        (transform unobstructed .default).manifest := by
  have hfree : ∀ u ∈ (BlockTable.extract unobstructed).unterminated,
      ∀ b ∈ (BlockTable.extract unobstructed).terminated,
        u.lineNumber < b.lineNumber → ¬ u.Obstructs b := by
    intro u hu b hb _
    obtain ⟨hplain, hothers⟩ := kinds_unobstructed.2 u hu
    obtain ⟨hkept, hkind⟩ := hothers b hb
    exact Block.not_obstructs_of_kind_ne hplain hkept hkind
  exact ⟨hfree, (transform_silenced unobstructed).2.2.2 hfree .default⟩

/-- A dropped block and a script block that nothing closes, in front of closed ones like them. -/
def displaced : Text :=
  ("<!-- build:remove -->\n" ++
    "<!-- build:js app.js -->\n" ++
    "<!-- build:remove -->\n" ++
    "<!-- endbuild -->\n" ++
    "<!-- build:js app.js -->\n" ++
    "<script src=\"a.js\"></script>\n" ++
    "<!-- endbuild -->\n").toList

/-- Both open blocks of `displaced` have taken a key that a closed one would have had. -/
theorem toList_manifest_displaced :
    (transform displaced .default).manifest.toList =
      [("js".toList, "app.js0".toList, ⟨["a.js".toList], none⟩),
        ("remove".toList, "1".toList, ⟨[], none⟩)] := by
  decide +kernel

theorem toList_manifest_silenced_displaced :
    (transform (silenced displaced) .default).manifest.toList =
      [("js".toList, "app.js".toList, ⟨["a.js".toList], none⟩),
        ("remove".toList, "0".toList, ⟨[], none⟩)] := by
  decide +kernel

/-- Not every manifest is the same without the directives that open nothing. -/
theorem not_all_manifests_silenced :
    ¬ ∀ document : Text, (transform (silenced document) .default).manifest =
      (transform document .default).manifest := by
  intro hsame
  have hlist := congrArg Manifest.toList (hsame displaced)
  rw [toList_manifest_silenced_displaced, toList_manifest_displaced] at hlist
  revert hlist
  decide

end BuildBlocks
