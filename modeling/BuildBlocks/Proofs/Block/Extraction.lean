import BuildBlocks.Block.Table
import BuildBlocks.Proofs.Document.Lines
import BuildBlocks.Proofs.Matching

/-! # Which blocks a document has

The blocks of a document are found by one walk over its lines, which opens, extends, closes
and abandons passages.  `OpenedAt` says without that walk what the block of a directive line
is: it reaches to the first end marker when no other directive line comes before, and else
up to the next directive line or the end of the document.  The walk keeps the invariant
`Pending` for the passage that is open, and `walked` carries it over all lines.
-/
namespace BuildBlocks
open Text

namespace Extraction

/-- Whether a directive stands on the line. -/
def opens (line : Text) : Bool :=
  (Directive.parse line).isSome

/-- The index of the first line from line `i` on with a property. -/
def firstFrom (p : Text → Bool) (ls : List Text) (i : Nat) : Option Nat :=
  ((ls.drop i).findIdx? p).map (i + ·)

/-- The indexes of the directive lines. -/
def openings (ls : List Text) : List Nat :=
  (List.range ls.length).filter fun i => ls[i]?.any opens

/-- What the lines of a document say of the block that is opened on line `i`. -/
structure OpenedAt (ls : List Text) (i : Nat) (b : Block) : Prop where
  /-- The directive is the one of the line. -/
  directive : ls[i]?.bind Directive.parse = some b.directive
  /-- Lines are counted from one. -/
  lineNumber : b.lineNumber = i + 1
  /-- The block is closed if an end marker comes before the next directive line. -/
  terminated : b.terminated = true ↔
    ∃ j, firstFrom Directive.isEndMarker ls i = some j ∧
      ∀ k, firstFrom opens ls (i + 1) = some k → j < k
  /-- A closed block ends with the line of that end marker. -/
  lines_of_terminated : b.terminated = true →
    ∀ j, firstFrom Directive.isEndMarker ls i = some j → b.lines = ls.extract i (j + 1)
  /-- A block that nothing closes ends before the next directive line or with the document. -/
  lines_of_unterminated : b.terminated = false →
    b.lines = ls.extract i ((firstFrom opens ls (i + 1)).getD ls.length)

/-! ## The first line with a property -/

variable {ls : List Text} {p : Text → Bool} {i j : Nat}

theorem firstFrom_eq_some_iff :
    firstFrom p ls i = some j ↔
      i ≤ j ∧ ls[j]?.any p = true ∧ ∀ m, i ≤ m → m < j → ls[m]?.any p = false := by
  rw [firstFrom, Option.map_eq_some_iff]
  constructor
  · rintro ⟨n, hn, rfl⟩
    obtain ⟨hlt, hp, hbefore⟩ := List.findIdx?_eq_some_iff_getElem.mp hn
    rw [List.length_drop] at hlt
    refine ⟨Nat.le_add_right i n, ?_, fun m him hm => ?_⟩
    · rw [List.getElem_drop] at hp
      rw [List.getElem?_eq_getElem (by omega)]
      exact hp
    · have h := hbefore (m - i) (by omega)
      rw [List.getElem_drop] at h
      rw [List.getElem?_eq_getElem (by omega)]
      simpa [Nat.add_sub_cancel' him] using h
  · rintro ⟨hij, hp, hbefore⟩
    have hlt : j < ls.length := by
      by_contra hge
      rw [List.getElem?_eq_none (by omega)] at hp
      cases hp
    refine ⟨j - i, List.findIdx?_eq_some_iff_getElem.mpr ⟨?_, ?_, fun m hm => ?_⟩, by omega⟩
    · rw [List.length_drop]
      omega
    · rw [List.getElem?_eq_getElem hlt] at hp
      simpa [List.getElem_drop, Nat.add_sub_cancel' hij] using hp
    · have h := hbefore (i + m) (by omega) (by omega)
      rw [List.getElem?_eq_getElem (by omega)] at h
      simpa [List.getElem_drop] using h

theorem firstFrom_eq_none_iff :
    firstFrom p ls i = none ↔ ∀ m, i ≤ m → ls[m]?.any p = false := by
  rw [firstFrom, Option.map_eq_none_iff, List.findIdx?_eq_none_iff]
  constructor
  · intro h m him
    cases hm : ls[m]? with
    | none => rfl
    | some l =>
      refine h l (List.mem_iff_getElem?.mpr ⟨m - i, ?_⟩)
      rw [List.getElem?_drop, Nat.add_sub_cancel' him, hm]
  · intro h l hl
    obtain ⟨m, hm⟩ := List.mem_iff_getElem?.mp hl
    rw [List.getElem?_drop] at hm
    simpa [hm] using h (i + m) (Nat.le_add_right i m)

/-- Up to where the first line with a property may stand at the earliest, none has it. -/
theorem any_eq_false_of_lt_firstFrom {m : Nat} (h : ∀ k, firstFrom p ls i = some k → j < k)
    (him : i ≤ m) (hmj : m ≤ j) : ls[m]?.any p = false := by
  cases hk : firstFrom p ls i with
  | none => exact firstFrom_eq_none_iff.mp hk m him
  | some k =>
    have hjk := h k hk
    exact (firstFrom_eq_some_iff.mp hk).2.2 m him (by omega)

/-! ## The open passage -/

/-- The invariant of the walk before line `i`: the passage `p`, opened on line `s`, has taken
in every line since, and none of these closes it or opens another. -/
structure Pending (ls : List Text) (s i : Nat) (p : Passage) : Prop where
  le : s ≤ i
  directive : ls[s]?.bind Directive.parse = some p.directive
  lines : p.lines.map Line.text = ls.extract s i
  unopened : ∀ m, s < m → m < i → ls[m]?.any opens = false
  unmarked : ∀ m, s ≤ m → m < i → ls[m]?.any Directive.isEndMarker = false

/-- The block `b` is made of the passage `p`, which starts on line `s`. -/
structure MadeOf (s : Nat) (p : Passage) (b : Block) : Prop where
  directive : b.directive = p.directive
  lines : b.lines = p.lines.map Line.text
  lineNumber : b.lineNumber = s + 1
  terminated : b.terminated = p.terminated

variable {s : Nat} {q : Passage} {b : Block} {l : Line}

theorem Pending.opened {d : Directive} (h : ls[s]?.bind Directive.parse = some d) :
    Pending ls s s (.opened d) where
  le := Nat.le_refl s
  directive := h
  lines := by simp [Passage.opened]
  unopened := fun m hsm hm => by omega
  unmarked := fun m hsm hm => by omega

/-- The open passage has a line for every line that it has taken in. -/
theorem Pending.length_lines (h : Pending ls s i q) (hi : i ≤ ls.length) :
    q.lines.length = i - s := by
  rw [← List.length_map (f := Line.text), h.lines, List.extract_eq_take_drop, List.length_take,
    List.length_drop]
  omega

/-- The lines of the open passage with one more. -/
theorem Pending.lines_push (h : Pending ls s i q) (hl : ls[i]? = some l.text) :
    (q.push l).lines.map Line.text = ls.extract s (i + 1) := by
  have hle := h.le
  obtain ⟨hlt, _⟩ := List.getElem?_eq_some_iff.mp hl
  have hget : (ls.drop s)[i - s]? = some l.text := by
    rw [List.getElem?_drop, Nat.add_sub_cancel' hle, hl]
  rw [Passage.push, List.map_append, h.lines, List.extract_eq_take_drop,
    List.extract_eq_take_drop, show i + 1 - s = i - s + 1 by omega, List.take_add_one, hget]
  rfl

theorem Pending.push (h : Pending ls s i q) (hl : ls[i]? = some l.text)
    (hopens : i = s ∨ opens l.text = false) (hend : Directive.isEndMarker l.text = false) :
    Pending ls s (i + 1) (q.push l) where
  le := Nat.le_succ_of_le h.le
  directive := h.directive
  lines := h.lines_push hl
  unopened := fun m hsm hm => by
    by_cases hmi : m = i
    · subst hmi
      rcases hopens with rfl | hopens
      · omega
      · simpa [hl] using hopens
    · exact h.unopened m hsm (by omega)
  unmarked := fun m hsm hm => by
    by_cases hmi : m = i
    · subst hmi
      simpa [hl] using hend
    · exact h.unmarked m hsm (by omega)

/-- An end marker closes the open passage. -/
theorem Pending.openedAt_of_closed (h : Pending ls s i q) (hl : ls[i]? = some l.text)
    (hopens : i = s ∨ opens l.text = false) (hend : Directive.isEndMarker l.text = true)
    (hb : MadeOf s (q.push l) b) : OpenedAt ls s b := by
  have hterm : b.terminated = true := hb.terminated.trans hend
  have hfirst : firstFrom Directive.isEndMarker ls s = some i :=
    firstFrom_eq_some_iff.mpr ⟨h.le, by simpa [hl] using hend, h.unmarked⟩
  refine ⟨?_, hb.lineNumber, ?_, ?_, ?_⟩
  · rw [hb.directive]
    exact h.directive
  · refine iff_of_true hterm ⟨i, hfirst, fun k hk => ?_⟩
    obtain ⟨hsk, hkopens, _⟩ := firstFrom_eq_some_iff.mp hk
    -- the lines up to the marker open nothing, the one of the directive apart
    by_contra hki
    rcases Nat.lt_or_ge k i with hlt | hge
    · rw [h.unopened k (by omega) hlt] at hkopens
      cases hkopens
    · obtain rfl : k = i := by omega
      rcases hopens with rfl | hopens
      · omega
      · rw [hl, Option.any_some, hopens] at hkopens
        cases hkopens
  · intro _ j hj
    rw [hfirst, Option.some.injEq] at hj
    rw [hb.lines, h.lines_push hl, hj]
  · intro hn
    rw [hterm] at hn
    cases hn

/-- The next directive line, or the end of the document, abandons the open passage. -/
theorem Pending.openedAt_of_abandoned (h : Pending ls s i q)
    (hnext : (firstFrom opens ls (s + 1)).getD ls.length = i) (hq : q.terminated = false)
    (hb : MadeOf s q b) : OpenedAt ls s b := by
  have hterm : b.terminated = false := hb.terminated.trans hq
  refine ⟨?_, hb.lineNumber, ?_, ?_, ?_⟩
  · rw [hb.directive]
    exact h.directive
  · refine iff_of_false (by simp [hterm]) ?_
    rintro ⟨j, hj, hbefore⟩
    obtain ⟨hsj, hmark, _⟩ := firstFrom_eq_some_iff.mp hj
    -- every end marker comes after the lines that were taken in
    have hij : i ≤ j := by
      by_contra hji
      rw [h.unmarked j hsj (by omega)] at hmark
      cases hmark
    cases hk : firstFrom opens ls (s + 1) with
    | none =>
      rw [hk, Option.getD_none] at hnext
      rw [List.getElem?_eq_none (by omega)] at hmark
      cases hmark
    | some k =>
      rw [hk, Option.getD_some] at hnext
      have := hbefore k hk
      omega
  · intro ht
    rw [hterm] at ht
    cases ht
  · intro _
    rw [hb.lines, h.lines, hnext]

/-- The next directive line after the open passage is the one that abandons it. -/
theorem Pending.next_of_opens (h : Pending ls s i q) (hsi : s < i)
    (hi : ls[i]?.any opens = true) : firstFrom opens ls (s + 1) = some i :=
  firstFrom_eq_some_iff.mpr ⟨hsi, hi, fun m hsm hm => h.unopened m hsm hm⟩

/-- After a passage that is open at the end of the document no directive line follows. -/
theorem Pending.next_at_end (h : Pending ls s i q) (hi : ls.length ≤ i) :
    firstFrom opens ls (s + 1) = none := by
  refine firstFrom_eq_none_iff.mpr fun m hsm => ?_
  rcases Nat.lt_or_ge m i with hlt | hge
  · exact h.unopened m hsm hlt
  · rw [List.getElem?_eq_none (by omega)]
    rfl

/-! ## The walk -/

/-- The segments of a passage that has just taken in a line, and of the lines after it. -/
def resume (q : Passage) (rest : List Line) : List Segment :=
  if q.terminated then .passage q :: Segment.scan none rest else Segment.scan (some q) rest

theorem scan_cons_of_opens {d : Directive} (hd : Directive.parse l.text = some d)
    (current : Option Passage) (rest : List Line) :
    Segment.scan current (l :: rest) =
      (current.map Segment.passage).toList ++ resume ((Passage.opened d).push l) rest := by
  simp [Segment.scan, Segment.turn, hd, resume]

theorem scan_none_cons (hd : Directive.parse l.text = none) (rest : List Line) :
    Segment.scan none (l :: rest) = .plain l :: Segment.scan none rest := by
  simp [Segment.scan, Segment.turn, hd]

theorem scan_some_cons (hd : Directive.parse l.text = none) (q : Passage) (rest : List Line) :
    Segment.scan (some q) (l :: rest) = resume (q.push l) rest := by
  simp [Segment.scan, Segment.turn, hd, resume]

/-- The indexes of the directive lines from line `i` on. -/
def openingsFrom (ls : List Text) (i : Nat) : List Nat :=
  (List.range' i (ls.length - i)).filter fun m => ls[m]?.any opens

theorem openingsFrom_zero (ls : List Text) : openingsFrom ls 0 = openings ls := by
  rw [openingsFrom, openings, List.range_eq_range', Nat.sub_zero]

theorem openingsFrom_of_length_le (hi : ls.length ≤ i) : openingsFrom ls i = [] := by
  rw [openingsFrom, Nat.sub_eq_zero_of_le hi]
  rfl

theorem openingsFrom_of_lt (hi : i < ls.length) :
    openingsFrom ls i =
      if ls[i]?.any opens then i :: openingsFrom ls (i + 1) else openingsFrom ls (i + 1) := by
  rw [openingsFrom, show ls.length - i = ls.length - (i + 1) + 1 by omega, List.range'_succ,
    List.filter_cons]
  rfl

/-- What the walk is to find when it goes on at line `i`: a block for every directive line
from there on, preceded by the block of the passage that is open, if there is one. -/
structure Walked (ls : List Text) (i : Nat) (rest : List Line) : Prop where
  idle : ∀ offset naming, List.Forall₂ (OpenedAt ls) (openingsFrom ls i)
    (BlockTable.ofSegments offset (i + 1) naming (Segment.scan none rest))
  pending : ∀ s q, s < i → q.terminated = false → Pending ls s i q → ∀ offset naming,
    List.Forall₂ (OpenedAt ls) (s :: openingsFrom ls i)
      (BlockTable.ofSegments offset (s + 1) naming (Segment.scan (some q) rest))

/-- The open passage takes in a line, and the walk goes on. -/
theorem Walked.resume {rest : List Line} (hw : Walked ls (i + 1) rest) (h : Pending ls s i q)
    (hl : ls[i]? = some l.text) (hopens : i = s ∨ opens l.text = false) (offset : Nat)
    (naming : Naming) :
    List.Forall₂ (OpenedAt ls) (s :: openingsFrom ls (i + 1))
      (BlockTable.ofSegments offset (s + 1) naming (resume (q.push l) rest)) := by
  have hle := h.le
  have hlen : (q.push l).lines.length = i + 1 - s := by
    obtain ⟨hlt, _⟩ := List.getElem?_eq_some_iff.mp hl
    rw [Passage.push, List.length_append, h.length_lines (Nat.le_of_lt hlt), List.length_singleton]
    omega
  cases hend : Directive.isEndMarker l.text with
  | true =>
    have ht : (q.push l).terminated = true := hend
    rw [Extraction.resume, if_pos ht]
    refine List.Forall₂.cons (h.openedAt_of_closed hl hopens hend ⟨rfl, rfl, rfl, rfl⟩) ?_
    rw [hlen, show s + 1 + (i + 1 - s) = i + 1 + 1 by omega]
    exact hw.idle _ _
  | false =>
    have ht : (q.push l).terminated = false := hend
    rw [Extraction.resume, if_neg (by simp [ht])]
    exact hw.pending s _ (by omega) ht (h.push hl hopens hend) offset naming

/-- **The walk finds the blocks that the lines say**, from any line on and with any passage
open. -/
theorem walked (rest : List Line) :
    ∀ i, i ≤ ls.length → ls.drop i = rest.map Line.text → Walked ls i rest := by
  induction rest with
  | nil =>
    intro i hi hrest
    have hlen : i = ls.length := Nat.le_antisymm hi (List.drop_eq_nil_iff.mp hrest)
    have hnone : openingsFrom ls i = [] := openingsFrom_of_length_le (by omega)
    constructor
    · intro offset naming
      rw [hnone]
      exact List.Forall₂.nil
    · -- the end of the document abandons the passage
      intro s q hsi hq h offset naming
      rw [hnone]
      refine List.Forall₂.cons (h.openedAt_of_abandoned ?_ hq ⟨rfl, rfl, rfl, rfl⟩) .nil
      rw [h.next_at_end (by omega), Option.getD_none, hlen]
  | cons l rest ih =>
    intro i hi hrest
    have hlt : i < ls.length := by
      have := congrArg List.length hrest
      rw [List.length_drop, List.map_cons, List.length_cons] at this
      omega
    obtain ⟨hl, hrest⟩ : ls[i] = l.text ∧ ls.drop (i + 1) = rest.map Line.text := by
      rw [List.drop_eq_getElem_cons hlt, List.map_cons] at hrest
      exact List.cons.inj hrest
    have hl : ls[i]? = some l.text := by rw [List.getElem?_eq_getElem hlt, hl]
    have hw : Walked ls (i + 1) rest := ih (i + 1) hlt hrest
    cases hd : Directive.parse l.text with
    | none =>
      have hopens : opens l.text = false := by simp [opens, hd]
      have hnext : openingsFrom ls i = openingsFrom ls (i + 1) := by
        rw [openingsFrom_of_lt hlt, hl, Option.any_some, hopens]
        rfl
      constructor
      · intro offset naming
        rw [hnext, scan_none_cons hd]
        exact hw.idle _ _
      · -- the open passage takes the line in
        intro s q hsi hq h offset naming
        rw [hnext, scan_some_cons hd]
        exact hw.resume h hl (.inr hopens) offset naming
    | some d =>
      have hopens : ls[i]?.any opens = true := by simp [hl, opens, hd]
      have hnext : openingsFrom ls i = i :: openingsFrom ls (i + 1) := by
        rw [openingsFrom_of_lt hlt, if_pos hopens]
      have hnew : Pending ls i i (.opened d) := .opened (by rw [hl]; exact hd)
      constructor
      · intro offset naming
        rw [hnext, scan_cons_of_opens hd]
        exact hw.resume hnew hl (.inl rfl) offset naming
      · -- the line abandons the open passage and opens one of its own
        intro s q hsi hq h offset naming
        rw [hnext, scan_cons_of_opens hd]
        refine List.Forall₂.cons (h.openedAt_of_abandoned ?_ hq ⟨rfl, rfl, rfl, rfl⟩) ?_
        · rw [h.next_of_opens hsi hopens, Option.getD_some]
        · rw [h.length_lines hi, show s + 1 + (i - s) = i + 1 by omega]
          exact hw.resume hnew hl (.inl rfl) _ _

/-! ## The blocks of a document -/

/-- The blocks of a document belong one by one to its directive lines. -/
theorem forall₂_openedAt_blocks (document : Text) :
    List.Forall₂ (OpenedAt (Line.texts document)) (openings (Line.texts document))
      (BlockTable.extract document).blocks := by
  have h : Walked (Line.texts document) 0 (Line.lines document) :=
    walked _ 0 (Nat.zero_le _) (Line.map_text_lines document).symm
  rw [← openingsFrom_zero]
  exact h.idle 0 .initial

/-- Every block of a document is opened on one of its lines. -/
theorem exists_openedAt {document : Text} (hb : b ∈ (BlockTable.extract document).blocks) :
    ∃ i, OpenedAt (Line.texts document) i b := by
  obtain ⟨i, _, hi⟩ := (forall₂_openedAt_blocks document).exists_of_mem_right hb
  exact ⟨i, hi⟩

/-- The directives of blocks stand on different lines, in document order. -/
theorem pairwise_lineNumber (document : Text) :
    (BlockTable.extract document).blocks.Pairwise fun a b => a.lineNumber < b.lineNumber := by
  have hnumbers : (BlockTable.extract document).blocks.map Block.lineNumber =
      (openings (Line.texts document)).map (· + 1) := by
    have h := (forall₂_openedAt_blocks document).imp fun i b hb => hb.lineNumber.symm
    rw [← List.forall₂_map_right_iff, ← List.forall₂_map_left_iff, List.forall₂_eq_eq_eq] at h
    exact h.symm
  have hopenings : (openings (Line.texts document)).Pairwise (· < ·) :=
    List.pairwise_lt_range.filter _
  rw [← List.pairwise_map, hnumbers, List.pairwise_map]
  exact hopenings.imp Nat.succ_lt_succ

/-- Between the directive and the end marker of a block stands neither. -/
theorem OpenedAt.inner (h : OpenedAt ls i b) (ht : b.terminated = true) {line : Text}
    (hline : line ∈ b.innerLines) :
    Directive.parse line = none ∧ Directive.isEndMarker line = false := by
  obtain ⟨j, hj, hnext⟩ := h.terminated.mp ht
  -- the inner line `n` of the block is line `i + 1 + n` of the document
  obtain ⟨n, hn⟩ := List.mem_iff_getElem?.mp hline
  rw [Block.innerLines, h.lines_of_terminated ht j hj, List.extract_eq_take_drop,
    List.getElem?_dropLast] at hn
  split at hn
  · rename_i hlt
    rw [List.length_tail, List.length_take] at hlt
    rw [List.getElem?_tail, List.getElem?_take_of_lt (by omega), List.getElem?_drop] at hn
    constructor
    · have hopens : ls[i + (n + 1)]?.any opens = false :=
        any_eq_false_of_lt_firstFrom hnext (by omega) (by omega)
      simpa [hn, opens] using hopens
    · have hmark := (firstFrom_eq_some_iff.mp hj).2.2 (i + (n + 1)) (by omega) (by omega)
      simpa [hn] using hmark
  · cases hn

/-- **Extraction finds exactly the blocks that the lines of a document say.**  There is one
block for every directive line, in the order of the lines; a block is closed by the first end
marker if no other directive line comes before it, and what is inside a closed block is
neither a directive nor an end marker. -/
theorem extract_blocks (document : Text) :
    let ls := Line.texts document
    let t := BlockTable.extract document
    List.Forall₂ (OpenedAt ls) (openings ls) t.blocks ∧
      t.terminated.length + t.unterminated.length = (openings ls).length ∧
      ∀ b ∈ t.terminated, ∀ l ∈ b.innerLines,
        Directive.parse l = none ∧ Directive.isEndMarker l = false := by
  intro ls t
  have hblocks : List.Forall₂ (OpenedAt ls) (openings ls) t.blocks :=
    forall₂_openedAt_blocks document
  refine ⟨hblocks, ?_, fun b hb l hl => ?_⟩
  · rw [hblocks.length_eq]
    exact (List.length_eq_length_filter_add _).symm
  · obtain ⟨hmem, ht⟩ := List.mem_filter.mp hb
    obtain ⟨i, hi⟩ := exists_openedAt hmem
    exact hi.inner ht hl

end Extraction
end BuildBlocks
