import BuildBlocks.Proofs.Block.Spans

/-! # Documents without the directives that open nothing

A block that nothing closes is taken out of a document by leaving its directive line empty.
The document that is left has no such block any more; its other blocks stand on the same lines
and give way to the same texts (`forall₂_unchanged`).  Nothing is said here of the keys, which
are given out anew.
-/
namespace BuildBlocks
open Text

/-- The line with nothing in front of its line break. -/
def Line.blank (l : Line) : Line :=
  ⟨[], l.ending⟩

/-- Lines, the first of which has the number `n`, with nothing on those of the given numbers. -/
def Line.blankOut (numbers : List Nat) : Nat → List Line → List Line
  | _, [] => []
  | n, l :: ls => (if n ∈ numbers then l.blank else l) :: blankOut numbers (n + 1) ls

/-- The document with nothing on the directive lines of the blocks that nothing closes. -/
def silenced (document : Text) : Text :=
  (Line.blankOut ((BlockTable.extract document).unterminated.map Block.lineNumber) 1
    (Line.lines document)).flatMap Line.source

namespace Line

theorem blankOut_nil (n : Nat) (ls : List Line) : blankOut [] n ls = ls := by
  induction ls generalizing n with
  | nil => rfl
  | cons l ls ih => rw [blankOut, if_neg List.not_mem_nil, ih]

theorem blankOut_append (numbers : List Nat) (n : Nat) (ls ms : List Line) :
    blankOut numbers n (ls ++ ms) = blankOut numbers n ls ++ blankOut numbers (n + ls.length) ms := by
  induction ls generalizing n with
  | nil => rfl
  | cons l ls ih =>
    rw [List.cons_append, blankOut, ih, blankOut, List.length_cons, List.cons_append,
      show n + 1 + ls.length = n + (ls.length + 1) by omega]

/-- Only the numbers that the lines have count. -/
theorem blankOut_congr {numbers others : List Nat} {n : Nat} {ls : List Line}
    (h : ∀ m, n ≤ m → m < n + ls.length → (m ∈ numbers ↔ m ∈ others)) :
    blankOut numbers n ls = blankOut others n ls := by
  induction ls generalizing n with
  | nil => rfl
  | cons l ls ih =>
    rw [List.length_cons] at h
    have hhead : (n ∈ numbers) = (n ∈ others) := propext (h n (Nat.le_refl n) (by omega))
    simp only [blankOut, hhead]
    rw [ih fun m hle hlt => h m (by omega) (by omega)]

/-- What is left of the lines of a block that nothing closes: a directive line without a line
break leaves nothing. -/
def silence : List Line → List Line
  | [] => []
  | l :: rest => if l.ending = none then rest else l.blank :: rest

theorem flatMap_source_silence (l : Line) (rest : List Line) :
    (silence (l :: rest)).flatMap source = (l.blank :: rest).flatMap source := by
  rw [silence]
  split
  · rename_i he
    simp [source, blank, he]
  · rfl

/-- Silencing leaves the line breaks as they are. -/
theorem filterMap_ending_silence (ls : List Line) :
    (silence ls).filterMap ending = ls.filterMap ending := by
  cases ls with
  | nil => rfl
  | cons l rest =>
    rw [silence]
    split
    · rename_i he
      rw [List.filterMap_cons_none he]
    · rw [List.filterMap_cons, List.filterMap_cons]
      rfl

theorem sublist_ending_silence (ls : List Line) :
    ((silence ls).map ending).Sublist (ls.map ending) := by
  cases ls with
  | nil => exact List.Sublist.refl _
  | cons l rest =>
    rw [silence]
    split
    · exact List.sublist_cons_self _ _
    · exact List.Sublist.refl _

theorem length_silence {ls : List Line} (h : ∀ l ∈ ls, l.ending ≠ none) :
    (silence ls).length = ls.length := by
  cases ls with
  | nil => rfl
  | cons l rest => rw [silence, if_neg (h l List.mem_cons_self), List.length_cons, List.length_cons]

theorem whole_of_mem_silence {ls : List Line} (h : ∀ l ∈ ls, l.Whole) {m : Line}
    (hm : m ∈ silence ls) : m.Whole := by
  cases ls with
  | nil => exact absurd hm List.not_mem_nil
  | cons l rest =>
    rw [silence] at hm
    split at hm
    · exact h m (List.mem_cons_of_mem _ hm)
    · rename_i he
      rcases List.mem_cons.mp hm with rfl | hm
      · exact ⟨List.not_mem_nil, fun _ => by simp [blank], fun hnone => absurd hnone he⟩
      · exact h m (List.mem_cons_of_mem _ hm)

end Line

namespace Segment
variable {s : Segment} {segs : List Segment}

/-- What is left of a segment: a passage that nothing closes becomes plain lines. -/
def silence : Segment → List Segment
  | plain l => [plain l]
  | passage p => if p.terminated then [passage p] else (Line.silence p.lines).map plain

theorem settled_of_mem_silence {t : Segment} (ht : t ∈ s.silence) : t.settled = true := by
  cases s with
  | plain l => rw [List.mem_singleton.mp ht]; rfl
  | passage p =>
    rw [silence] at ht
    split at ht
    · rename_i hp
      rw [List.mem_singleton.mp ht]
      exact hp
    · obtain ⟨l, _, rfl⟩ := List.mem_map.mp ht
      rfl

theorem WellFormed.of_mem_silence (hs : s.WellFormed) {t : Segment} (ht : t ∈ s.silence) :
    t.WellFormed := by
  cases hs with
  | plain h => rw [List.mem_singleton.mp ht]; exact .plain h
  | @passage p h =>
    rw [silence] at ht
    split at ht
    · rw [List.mem_singleton.mp ht]
      exact .passage h
    · -- no line but the first holds a directive, and the first is empty now
      obtain ⟨m, hm, rfl⟩ := List.mem_map.mp ht
      obtain ⟨l, rest, hlines, _, hrest⟩ := h.opening
      rw [hlines, Line.silence] at hm
      split at hm
      · exact .plain (hrest m hm)
      · rcases List.mem_cons.mp hm with rfl | hm
        · exact .plain rfl
        · exact .plain (hrest m hm)

/-- The lines that are left of a segment. -/
theorem flatMap_lines_silence (s : Segment) :
    s.silence.flatMap lines = if s.settled then s.lines else Line.silence s.lines := by
  cases s with
  | plain l => rfl
  | passage p =>
    cases hp : p.terminated with
    | true => simp [silence, settled, lines, hp]
    | false => simp [silence, settled, lines, hp, List.flatMap_map]

/-- What is left of the lines of a document are again the lines of one. -/
theorem divided_silence (h : Line.Divided (segs.flatMap lines)) :
    Line.Divided ((segs.flatMap silence).flatMap lines) := by
  constructor
  · intro m hm
    rw [List.flatMap_assoc] at hm
    obtain ⟨s, hs, hm⟩ := List.mem_flatMap.mp hm
    have hwhole : ∀ l ∈ s.lines, l.Whole := fun l hl =>
      h.whole l (List.mem_flatMap.mpr ⟨s, hs, hl⟩)
    rw [flatMap_lines_silence] at hm
    split at hm
    · exact hwhole m hm
    · exact Line.whole_of_mem_silence hwhole hm
  · -- the line breaks are some of those that were there
    have hsublist : ∀ segs : List Segment,
        (((segs.flatMap silence).flatMap lines).map Line.ending).Sublist
          ((segs.flatMap lines).map Line.ending) := by
      intro segs
      induction segs with
      | nil => exact List.Sublist.refl _
      | cons s segs ih =>
        simp only [List.flatMap_cons, List.flatMap_append, List.map_append]
        refine List.Sublist.append ?_ ih
        rw [flatMap_lines_silence]
        split
        · exact List.Sublist.refl _
        · exact Line.sublist_ending_silence s.lines
    have hended := h.ended
    rw [← List.pairwise_map (f := Line.ending) (R := fun e _ => e ≠ none)] at hended ⊢
    exact hended.sublist (hsublist segs)

theorem filterMap_ending_silence (segs : List Segment) :
    ((segs.flatMap silence).flatMap lines).filterMap Line.ending =
      (segs.flatMap lines).filterMap Line.ending := by
  induction segs with
  | nil => rfl
  | cons s segs ih =>
    simp only [List.flatMap_cons, List.flatMap_append, List.filterMap_append, ih]
    rw [flatMap_lines_silence]
    split
    · rfl
    · rw [Line.filterMap_ending_silence]

end Segment

namespace BlockTable
variable {segs : List Segment}

theorem number_le_of_mem_ofSegments {offset number : Nat} {naming : Naming} {b : Block}
    (hb : b ∈ ofSegments offset number naming segs) : number ≤ b.lineNumber := by
  induction segs generalizing offset number naming with
  | nil => exact absurd hb List.not_mem_nil
  | cons s segs ih =>
    cases s with
    | plain l =>
      have := ih hb
      omega
    | passage p =>
      rw [ofSegments_passage] at hb
      rcases List.mem_cons.mp hb with rfl | hb
      · exact Nat.le_refl number
      · have := ih hb
        omega

/-- The numbers of the lines that open blocks which nothing closes. -/
def openNumbers (blocks : List Block) : List Nat :=
  (blocks.filter (!·.terminated)).map Block.lineNumber

theorem number_le_of_mem_openNumbers {offset number n : Nat} {naming : Naming}
    (hn : n ∈ openNumbers (ofSegments offset number naming segs)) : number ≤ n := by
  obtain ⟨b, hb, rfl⟩ := List.mem_map.mp hn
  exact number_le_of_mem_ofSegments (List.mem_of_mem_filter hb)

/-- The numbers that a segment adds to those of the segments after it, and what they blank out
of its lines. -/
theorem exists_openNumbers {s : Segment} (hs : s.WellFormed) (segs : List Segment)
    (offset number : Nat) (naming : Naming) :
    ∃ own offset' naming', openNumbers (ofSegments offset number naming (s :: segs)) =
        own ++ openNumbers (ofSegments offset' (number + s.lines.length) naming' segs) ∧
      (∀ n ∈ own, n < number + s.lines.length) ∧
      (Line.blankOut own number s.lines).flatMap Line.source =
        (s.silence.flatMap Segment.lines).flatMap Line.source := by
  rw [Segment.flatMap_lines_silence]
  cases hs with
  | plain h =>
    refine ⟨[], _, naming, rfl, fun n hn => absurd hn List.not_mem_nil, ?_⟩
    rw [Line.blankOut_nil]
    rfl
  | @passage p h =>
    cases hp : p.terminated with
    | true =>
      refine ⟨[], offset + byteLength p.source, (naming.assign p.directive).2, ?_,
        fun n hn => absurd hn List.not_mem_nil, ?_⟩
      · rw [ofSegments_passage, openNumbers, List.filter_cons_of_neg (by simp [hp])]
        rfl
      · rw [Line.blankOut_nil, Segment.settled, hp]
        rfl
    | false =>
      -- of the lines of the passage the first one is blanked out
      obtain ⟨l, rest, hlines, _⟩ := h.opening
      refine ⟨[number], offset + byteLength p.source, (naming.assign p.directive).2, ?_, ?_, ?_⟩
      · rw [ofSegments_passage, openNumbers, List.filter_cons_of_pos (by simp [hp])]
        rfl
      · intro n hn
        rw [List.mem_singleton.mp hn, Segment.lines, hlines, List.length_cons]
        omega
      · have hrest : Line.blankOut [number] (number + 1) rest = Line.blankOut [] (number + 1) rest :=
          Line.blankOut_congr fun m hle _ => by simp; omega
        rw [Segment.settled, hp, if_neg Bool.false_ne_true, Segment.lines, hlines,
          Line.flatMap_source_silence, Line.blankOut, if_pos List.mem_cons_self, hrest,
          Line.blankOut_nil]

/-- Blanking out the directive lines of open blocks leaves what silencing their passages does. -/
theorem flatMap_source_blankOut (hsegs : ∀ s ∈ segs, s.WellFormed) (offset number : Nat)
    (naming : Naming) :
    (Line.blankOut (openNumbers (ofSegments offset number naming segs)) number
        (segs.flatMap Segment.lines)).flatMap Line.source =
      ((segs.flatMap Segment.silence).flatMap Segment.lines).flatMap Line.source := by
  induction segs generalizing offset number naming with
  | nil => rfl
  | cons s segs ih =>
    obtain ⟨own, offset', naming', hnumbers, hown, hsource⟩ :=
      exists_openNumbers (hsegs s List.mem_cons_self) segs offset number naming
    -- the numbers of the segment and those of later segments do not mix
    let later := openNumbers (ofSegments offset' (number + s.lines.length) naming' segs)
    have hhead : Line.blankOut (own ++ later) number s.lines = Line.blankOut own number s.lines := by
      refine Line.blankOut_congr fun m _ hm => ?_
      have hlater : m ∉ later := fun hmem => by
        have := number_le_of_mem_openNumbers hmem
        omega
      simp [hlater]
    have htail : Line.blankOut (own ++ later) (number + s.lines.length) (segs.flatMap Segment.lines) =
        Line.blankOut later (number + s.lines.length) (segs.flatMap Segment.lines) := by
      refine Line.blankOut_congr fun m hm _ => ?_
      have hfirst : m ∉ own := fun hmem => by
        have := hown m hmem
        omega
      simp [hfirst]
    rw [hnumbers, List.flatMap_cons, Line.blankOut_append, hhead, htail, List.flatMap_append, hsource,
      ih (fun t ht => hsegs t (List.mem_cons_of_mem _ ht)), List.flatMap_cons, List.flatMap_append,
      List.flatMap_append]

end BlockTable

/-! ## The silenced document -/

theorem silenced_eq (document : Text) :
    silenced document =
      (((Segment.ofDocument document).flatMap Segment.silence).flatMap Segment.lines).flatMap
        Line.source := by
  have hsegs : ∀ s ∈ Segment.ofDocument document, s.WellFormed :=
    fun _ => Segment.wellFormed_ofDocument
  rw [← BlockTable.flatMap_source_blankOut hsegs 0 1 .initial, Segment.flatMap_lines_ofDocument]
  rfl

theorem divided_ofDocument (document : Text) :
    Line.Divided ((Segment.ofDocument document).flatMap Segment.lines) := by
  rw [Segment.flatMap_lines_ofDocument]
  exact Line.divided_lines document

theorem lines_silenced (document : Text) :
    Line.lines (silenced document) =
      ((Segment.ofDocument document).flatMap Segment.silence).flatMap Segment.lines := by
  rw [silenced_eq]
  exact Line.lines_flatMap_source (Segment.divided_silence (divided_ofDocument document))

/-- A silenced document has the segments that silencing leaves. -/
theorem ofDocument_silenced (document : Text) :
    Segment.ofDocument (silenced document) = (Segment.ofDocument document).flatMap Segment.silence := by
  rw [Segment.ofDocument, lines_silenced]
  refine Segment.ofLines_flatMap_lines (fun t ht => ?_) (fun t ht => ?_)
  · obtain ⟨s, hs, ht⟩ := List.mem_flatMap.mp ht
    exact (Segment.wellFormed_ofDocument hs).of_mem_silence ht
  · obtain ⟨s, _, ht⟩ := List.mem_flatMap.mp ht
    exact Segment.settled_of_mem_silence ht

theorem detect_silenced (document : Text) :
    LineEnding.detect (silenced document) = LineEnding.detect document := by
  refine Line.detect_congr ?_
  rw [lines_silenced, Segment.filterMap_ending_silence, Segment.flatMap_lines_ofDocument]

/-! ## The blocks that stay -/

/-- Two blocks that differ at most in their keys and their places. -/
structure Block.Unchanged (b c : Block) : Prop where
  directive : c.directive = b.directive
  lines : c.lines = b.lines
  lineNumber : c.lineNumber = b.lineNumber
  terminated : c.terminated = b.terminated

/-- What comes in the place of a block depends neither on its key nor on its place. -/
theorem Block.Unchanged.replacement?_eq {b c : Block} (h : b.Unchanged c) (ending : LineEnding)
    (o : Options) : c.replacement? ending o = b.replacement? ending o := by
  obtain ⟨key, directive, lines, span, lineNumber, terminated⟩ := b
  obtain ⟨key', directive', lines', span', lineNumber', terminated'⟩ := c
  obtain ⟨rfl, rfl, rfl, rfl⟩ := h
  rfl

namespace BlockTable
variable {segs : List Segment}

theorem ofSegments_map_plain (ls : List Line) (offset number : Nat) (naming : Naming) :
    ofSegments offset number naming (ls.map Segment.plain ++ segs) =
      ofSegments (offset + byteLength (ls.flatMap Line.source)) (number + ls.length) naming segs := by
  induction ls generalizing offset number with
  | nil => rfl
  | cons l ls ih =>
    rw [List.map_cons, List.cons_append, ofSegments, ih, List.flatMap_cons, byteLength_append,
      List.length_cons, Nat.add_assoc, Nat.add_assoc, Nat.add_comm 1]

/-- Silencing leaves the closed blocks on their lines. -/
theorem forall₂_unchanged (hsegs : ∀ s ∈ segs, s.WellFormed)
    (hdivided : Line.Divided (segs.flatMap Segment.lines)) (offset offset' number : Nat)
    (naming naming' : Naming) :
    List.Forall₂ Block.Unchanged
      ((ofSegments offset number naming segs).filter Block.terminated)
      (ofSegments offset' number naming' (segs.flatMap Segment.silence)) := by
  induction segs generalizing offset offset' number naming naming' with
  | nil => exact .nil
  | cons s segs ih =>
    have hrest : ∀ t ∈ segs, t.WellFormed := fun t ht => hsegs t (List.mem_cons_of_mem _ ht)
    rw [List.flatMap_cons] at hdivided
    have hlater : Line.Divided (segs.flatMap Segment.lines) := hdivided.right
    rw [List.flatMap_cons]
    cases hsegs s List.mem_cons_self with
    | plain h => exact ih hrest hlater _ _ _ _ _
    | @passage p h =>
      rw [ofSegments_passage]
      by_cases hp : p.terminated = true
      · rw [List.filter_cons, Passage.block_terminated, if_pos hp, Segment.silence, if_pos hp,
          List.singleton_append, ofSegments_passage]
        exact .cons ⟨rfl, rfl, rfl, rfl⟩ (ih hrest hlater _ _ _ _ _)
      · rw [List.filter_cons, Passage.block_terminated, if_neg hp, Segment.silence, if_neg hp,
          ofSegments_map_plain]
        by_cases hnil : segs = []
        · rw [hnil]
          exact .nil
        · -- lines follow, so the directive line is left with its line break
          have hended : ∀ l ∈ p.lines, l.ending ≠ none :=
            hdivided.ended_of_append (Segment.flatMap_lines_ne_nil hrest hnil)
          rw [Line.length_silence hended]
          exact ih hrest hlater _ _ _ _ _

end BlockTable
end BuildBlocks
