import BuildBlocks.Proofs.Block.Extraction

/-! # Blocks that gain lines

A closed block with lines inside stands in its document as its directive line, these lines and
the line of its end marker (`OpenedAt.exists_shape`), and lines that stand so are a closed block
(`OpenedAt.of_shape`).  Further lines inside a block, neither directives nor end markers, hence
leave it closed and where it is (`exists_of_gains`).
-/
namespace BuildBlocks
open Text

/-- The other document has further lines inside the block, none of them a directive or an end
marker, and no other line more or less. -/
def Block.Gains (b : Block) (document other : Text) : Prop :=
  ∃ upTo inner wider after : List Line,
    Line.lines document = upTo ++ (inner ++ after) ∧ Line.lines other = upTo ++ (wider ++ after) ∧
      upTo.length = b.lineNumber ∧ inner.length = b.innerLines.length ∧ inner.Sublist wider ∧
      ∀ l ∈ wider, Directive.parse l.text = none ∧ Directive.isEndMarker l.text = false

namespace Extraction
variable {p : Text → Bool} {ls front between inner after : List Text} {found opening closing : Text}
  {i j : Nat} {b : Block}

/-- The first line with a property has lines without it before it. -/
theorem firstFrom_append (hbetween : ∀ l ∈ between, p l = false) (hfound : p found = true) :
    firstFrom p (front ++ (between ++ found :: after)) front.length =
      some (front.length + between.length) := by
  rw [firstFrom, List.drop_left, List.findIdx?_append, List.findIdx?_eq_none_iff.mpr hbetween,
    Option.none_or, List.findIdx?_cons, hfound]
  simp

theorem exists_append_of_firstFrom (h : firstFrom p ls i = some j) :
    ∃ front between found after, ls = front ++ (between ++ found :: after) ∧ front.length = i ∧
      front.length + between.length = j ∧ (∀ l ∈ between, p l = false) ∧ p found = true := by
  obtain ⟨n, hn, rfl⟩ := Option.map_eq_some_iff.mp h
  obtain ⟨hlt, hp, hbefore⟩ := List.findIdx?_eq_some_iff_getElem.mp hn
  rw [List.length_drop] at hlt
  have hsplit : ls.drop i = (ls.drop i).take n ++ (ls.drop i)[n] :: (ls.drop i).drop (n + 1) := by
    rw [← List.drop_eq_getElem_cons, List.take_append_drop]
  have hfront : (ls.take i).length = i := List.length_take_of_le (by omega)
  refine ⟨ls.take i, (ls.drop i).take n, (ls.drop i)[n], (ls.drop i).drop (n + 1), ?_, hfront, ?_,
    fun l hl => ?_, hp⟩
  · rw [← hsplit, List.take_append_drop]
  · rw [hfront, List.length_take_of_le (by rw [List.length_drop]; omega)]
  · obtain ⟨m, hm, rfl⟩ := List.mem_take_iff_getElem.mp hl
    simpa using hbefore m (by omega)

/-- A closed block with lines inside stands between its directive and its end marker. -/
theorem OpenedAt.exists_shape (h : OpenedAt ls i b) (ht : b.terminated = true)
    (hne : b.innerLines ≠ []) :
    ∃ front opening closing after, ls = front ++ opening :: (b.innerLines ++ closing :: after) ∧
      front.length = i ∧ Directive.parse opening = some b.directive ∧
      Directive.isEndMarker opening = false ∧
      Directive.parse closing = none ∧ Directive.isEndMarker closing = true := by
  obtain ⟨j, hj, hnext⟩ := h.terminated.mp ht
  obtain ⟨front, between, closing, after, rfl, rfl, hlast, hbetween, hclosing⟩ :=
    exists_append_of_firstFrom hj
  have hlines : b.lines = between ++ [closing] := by
    rw [h.lines_of_terminated ht j hj, List.extract_eq_take_drop, List.drop_left, ← hlast,
      show front.length + between.length + 1 - front.length = between.length + 1 by omega,
      List.take_length_add_append]
    rfl
  cases between with
  | nil => simp [Block.innerLines, hlines] at hne
  | cons opening inner =>
    have hinner : b.innerLines = inner := by simp [Block.innerLines, hlines]
    have hdirective := h.directive
    rw [List.getElem?_append_right (Nat.le_refl _), Nat.sub_self] at hdirective
    refine ⟨front, opening, closing, after, by rw [hinner]; rfl, rfl, hdirective,
      hbetween _ List.mem_cons_self, ?_, hclosing⟩
    -- the next directive stands behind the end marker
    by_contra hparse
    have hopens : opens closing = true := Option.isSome_iff_ne_none.mpr hparse
    rw [List.length_cons] at hlast
    have hat : (front ++ (opening :: inner ++ closing :: after))[j]? = some closing := by
      rw [← hlast, List.getElem?_append_right (by omega), List.getElem?_append_right (by simp)]
      simp
    have hnone := any_eq_false_of_lt_firstFrom (m := j) hnext (by omega) (Nat.le_refl j)
    rw [hat, Option.any_some, hopens] at hnone
    cases hnone

/-- Lines between a directive and an end marker are a closed block. -/
theorem OpenedAt.of_shape
    (h : OpenedAt (front ++ opening :: (inner ++ closing :: after)) front.length b)
    (hopening : Directive.isEndMarker opening = false)
    (hinner : ∀ l ∈ inner, Directive.parse l = none ∧ Directive.isEndMarker l = false)
    (hparse : Directive.parse closing = none) (hclosing : Directive.isEndMarker closing = true) :
    b.terminated = true ∧ b.innerLines = inner := by
  have hmark : firstFrom Directive.isEndMarker (front ++ opening :: (inner ++ closing :: after))
      front.length = some (front.length + (inner.length + 1)) :=
    firstFrom_append (List.forall_mem_cons.mpr ⟨hopening, fun l hl => (hinner l hl).2⟩) hclosing
  have ht : b.terminated = true := by
    refine h.terminated.mpr ⟨_, hmark, fun k hk => ?_⟩
    obtain ⟨hle, hopens, _⟩ := firstFrom_eq_some_iff.mp hk
    -- no line up to the end marker opens another block
    by_contra hge
    obtain ⟨n, rfl⟩ : ∃ n, k = (front ++ [opening]).length + n :=
      ⟨k - (front.length + 1), by simp; omega⟩
    rw [show front ++ opening :: (inner ++ closing :: after) =
        (front ++ [opening]) ++ ((inner ++ [closing]) ++ after) by simp,
      List.getElem?_append_right (by omega), Nat.add_sub_cancel_left,
      List.getElem?_append_left (by simp at hge ⊢; omega), Option.any_eq_true] at hopens
    obtain ⟨l, hl, hopens⟩ := hopens
    have hnone : Directive.parse l = none := by
      rcases List.mem_append.mp (List.mem_of_getElem? hl) with hl | hl
      · exact (hinner l hl).1
      · rwa [List.mem_singleton.mp hl]
    rw [opens, hnone] at hopens
    cases hopens
  refine ⟨ht, ?_⟩
  rw [Block.innerLines, h.lines_of_terminated ht _ hmark, List.extract_eq_take_drop, List.drop_left,
    show front.length + (inner.length + 1) + 1 - front.length = inner.length + 1 + 1 by omega,
    List.take_succ_cons, List.take_length_add_append]
  simp

end Extraction

open Extraction

/-- A block that gains lines is closed as before, with its own lines among those inside. -/
theorem Block.exists_of_gains {document other : Text} {b : Block}
    (hb : b ∈ (BlockTable.extract document).terminated) (hgains : b.Gains document other)
    (hne : b.innerLines ≠ []) :
    ∃ c ∈ (BlockTable.extract other).terminated, c.lineNumber = b.lineNumber ∧
      c.directive = b.directive ∧ b.innerLines.Sublist c.innerLines := by
  obtain ⟨hmem, ht⟩ := List.mem_filter.mp hb
  obtain ⟨i, hopened⟩ := exists_openedAt hmem
  obtain ⟨front, opening, closing, after, hshape, rfl, hopening, hmark, hclosing, hend⟩ :=
    hopened.exists_shape ht hne
  obtain ⟨upTo, inner, wider, behind, hdocument, hother, hnumber, hlength, hwider, hplain⟩ := hgains
  -- the lines up to the directive and those of the block are the same in both splits
  have hsame : upTo.map Line.text ++ (inner.map Line.text ++ behind.map Line.text) =
      (front ++ [opening]) ++ (b.innerLines ++ closing :: after) := by
    rw [← Line.map_text_lines, hdocument, List.map_append, List.map_append] at hshape
    rw [hshape, List.append_assoc, List.singleton_append]
  obtain ⟨hupTo, hsame⟩ := List.append_inj hsame (by
    rw [List.length_map, hnumber, hopened.lineNumber, List.length_append, List.length_singleton])
  obtain ⟨hinner, hbehind⟩ := List.append_inj hsame (by rw [List.length_map, hlength])
  have htexts : Line.texts other =
      front ++ opening :: (wider.map Line.text ++ closing :: after) := by
    rw [← Line.map_text_lines, hother, List.map_append, List.map_append, hupTo, hbehind,
      List.append_assoc, List.singleton_append]
  have hopenings : front.length ∈ openings (Line.texts other) := by
    rw [htexts]
    refine List.mem_filter.mpr ⟨by simp, ?_⟩
    rw [List.getElem?_append_right (Nat.le_refl _), Nat.sub_self]
    simp [opens, hopening]
  obtain ⟨c, hc, hcopened⟩ :=
    (forall₂_openedAt_blocks other).flip.exists_of_mem_right hopenings
  rw [htexts] at hcopened
  have hlines : ∀ l ∈ wider.map Line.text,
      Directive.parse l = none ∧ Directive.isEndMarker l = false :=
    List.forall_mem_map.mpr hplain
  obtain ⟨hct, hcinner⟩ := hcopened.of_shape hmark hlines hclosing hend
  have hdirective := hcopened.directive
  rw [List.getElem?_append_right (Nat.le_refl _), Nat.sub_self] at hdirective
  refine ⟨c, List.mem_filter.mpr ⟨hc, hct⟩, hcopened.lineNumber.trans hopened.lineNumber.symm,
    Option.some.inj (hdirective.symm.trans hopening), ?_⟩
  rw [hcinner, ← hinner]
  exact hwider.map Line.text

end BuildBlocks
