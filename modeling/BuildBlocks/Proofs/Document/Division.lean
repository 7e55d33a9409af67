import BuildBlocks.Proofs.Document.Lines
import BuildBlocks.Block.Segment
import Mathlib.Data.List.Infix

/-! # Lists of lines that are the lines of a document

Every line of a document is whole, and every line but the last has a line break (`Divided`).
These lists are exactly those that reading gives back when they are written one after the
other (`lines_flatMap_source`), so a document can be changed line by line.
-/
namespace BuildBlocks

namespace Text

/-- The text with a line feed for every carriage return and line feed. -/
def unifyBreaks : Text → Text
  | [] => []
  | c :: t => if c = '\r' ∧ t.head? = some '\n' then unifyBreaks t else c :: unifyBreaks t

/-- A text without line feeds stays in front of anything but a line feed that it ends up to
with a carriage return. -/
theorem unifyBreaks_append {u : Text} (hu : '\n' ∉ u) (v : Text)
    (h : u.getLast? = some '\r' → v.head? ≠ some '\n') :
    unifyBreaks (u ++ v) = u ++ unifyBreaks v := by
  induction u with
  | nil => rfl
  | cons c u ih =>
    obtain ⟨_, hu⟩ : '\n' ≠ c ∧ '\n' ∉ u := by simpa using hu
    rw [List.cons_append, unifyBreaks]
    cases u with
    | nil =>
      rw [if_neg fun hpair => h (by rw [hpair.1]; rfl) hpair.2]
      rfl
    | cons d u =>
      have hd : ¬ (c = '\r' ∧ (d :: u ++ v).head? = some '\n') := by
        rintro ⟨_, hhead⟩
        exact hu (Option.some.inj hhead ▸ List.mem_cons_self)
      rw [if_neg hd, ih hu (by rwa [List.getLast?_cons_cons] at h)]
      rfl

/-- Without carriage returns there is nothing to unify. -/
theorem unifyBreaks_of_not_mem {t : Text} (h : '\r' ∉ t) : unifyBreaks t = t := by
  induction t with
  | nil => rfl
  | cons c t ih =>
    obtain ⟨hc, ht⟩ : '\r' ≠ c ∧ '\r' ∉ t := by simpa using h
    rw [unifyBreaks, if_neg fun hpair => hc hpair.1.symm, ih ht]

theorem holds_crlf_cons (c : Char) (t : Text) :
    holds LineEnding.crlf.text (c :: t) = true ↔
      (c = '\r' ∧ t.head? = some '\n') ∨ holds LineEnding.crlf.text t = true := by
  by_cases hc : c = '\r'
  · cases t with
    | nil => simp [holds, cut?, search, after?, LineEnding.text]
    | cons d t => by_cases hd : d = '\n' <;> simp [holds, cut?, search, after?, LineEnding.text, hc, hd]
  · simp [holds, cut?, search, after?, LineEnding.text, hc]

theorem splitOn_of_not_mem {separator : Char} {t : Text} (h : separator ∉ t) :
    splitOn separator t = [t] := by
  induction t with
  | nil => rfl
  | cons c t ih =>
    obtain ⟨hc, ht⟩ : separator ≠ c ∧ separator ∉ t := by simpa using h
    exact splitOn_cons_of_ne (Ne.symm hc) (ih ht)

end Text

namespace Line
open Text

/-- A line as it can stand in a document. -/
structure Whole (l : Line) : Prop where
  /-- No line break stands inside. -/
  unbroken : '\n' ∉ l.text
  /-- A carriage return in front of a line feed belongs to the line break. -/
  returned : l.ending = some .lf → l.text.getLast? ≠ some '\r'
  /-- The end of the document starts no line. -/
  nonempty : l.ending = none → l.text ≠ []

/-- Lines that make up a document: each is whole, and only the last can lack a line break. -/
structure Divided (ls : List Line) : Prop where
  whole : ∀ l ∈ ls, l.Whole
  ended : ls.Pairwise fun l _ => l.ending ≠ none

variable {ls earlier later : List Line} {l : Line}

theorem Divided.tail (h : Divided (l :: ls)) : Divided ls :=
  ⟨fun m hm => h.whole m (List.mem_cons_of_mem _ hm), h.ended.of_cons⟩

theorem Divided.left (h : Divided (earlier ++ later)) : Divided earlier :=
  ⟨fun m hm => h.whole m (List.mem_append_left _ hm), (List.pairwise_append.mp h.ended).1⟩

theorem Divided.right (h : Divided (earlier ++ later)) : Divided later :=
  ⟨fun m hm => h.whole m (List.mem_append_right _ hm), (List.pairwise_append.mp h.ended).2.1⟩

/-- Lines that others follow have line breaks. -/
theorem Divided.ended_of_append (h : Divided (earlier ++ later)) (hne : later ≠ []) :
    ∀ l ∈ earlier, l.ending ≠ none := by
  obtain ⟨m, hm⟩ := List.exists_mem_of_ne_nil later hne
  exact fun l hl => (List.pairwise_append.mp h.ended).2.2 l hl m hm

theorem Divided.ended_of_cons (h : Divided (l :: ls)) (hne : ls ≠ []) : l.ending ≠ none :=
  ended_of_append (show Divided ([l] ++ ls) from h) hne l List.mem_cons_self

theorem Divided.append (h : Divided earlier) (h' : Divided later)
    (hended : later ≠ [] → ∀ l ∈ earlier, l.ending ≠ none) : Divided (earlier ++ later) where
  whole := fun l hl => (List.mem_append.mp hl).elim (h.whole l) (h'.whole l)
  ended := List.pairwise_append.mpr ⟨h.ended, h'.ended, fun l hl _ hm =>
    hended (List.ne_nil_of_mem hm) l hl⟩

/-! ## The lines of a document are divided -/

theorem prefix_dropReturn (t : Text) : dropReturn t <+: t := by
  rw [dropReturn]
  split
  · exact List.dropLast_prefix t
  · exact List.prefix_refl t

theorem mem_dropReturn {t : Text} {c : Char} (h : c ∈ dropReturn t) : c ∈ t :=
  (prefix_dropReturn t).subset h

theorem whole_ofPiece {piece : Text} (h : '\n' ∉ piece) : (ofPiece piece).Whole := by
  refine ⟨fun hmem => h (mem_dropReturn hmem), fun hlf => ?_, fun hnone => by cases hnone⟩
  by_cases hr : piece.getLast? = some '\r'
  · simp [ofPiece, hr] at hlf
  · simp [ofPiece, dropReturn, hr]

theorem divided_lines (document : Text) : Divided (lines document) := by
  rw [lines_eq_ofPieces, ofPieces]
  constructor
  · intro l hl
    rcases List.mem_append.mp hl with hl | hl
    · obtain ⟨piece, hpiece, rfl⟩ := List.mem_map.mp hl
      exact whole_ofPiece (not_mem_of_mem_splitOn (List.mem_of_mem_dropLast hpiece))
    · obtain ⟨last, hlast, rfl⟩ := List.mem_map.mp hl
      obtain ⟨hmem, hne⟩ := List.mem_filter.mp hlast
      rw [Option.mem_toList] at hmem
      refine ⟨not_mem_of_mem_splitOn (List.mem_of_getLast? hmem), fun hlf => ?_, fun _ => ?_⟩
      · cases hlf
      · simpa using hne
  · -- there is at most one line without a break, and it is the last one
    refine List.pairwise_append.mpr ⟨?_, ?_, fun l hl _ _ => ?_⟩
    · rw [List.pairwise_map]
      exact List.pairwise_of_forall fun _ _ => by simp [ofPiece]
    · rw [List.pairwise_map]
      refine List.Pairwise.filter _ ?_
      cases (splitOn '\n' document).getLast? <;> simp
    · obtain ⟨piece, _, rfl⟩ := List.mem_map.mp hl
      simp [ofPiece]

/-- Every line stands in its document. -/
theorem infix_of_mem_lines {document : Text} (hl : l ∈ lines document) : l.text <:+: document := by
  obtain ⟨earlier, later, hsplit⟩ := List.append_of_mem hl
  refine ⟨earlier.flatMap source, l.ending.elim [] LineEnding.text ++ later.flatMap source, ?_⟩
  have hsource := flatMap_source_lines document
  rw [hsplit] at hsource
  rw [← hsource]
  simp only [List.flatMap_append, List.flatMap_cons, source, List.append_assoc]

/-! ## Reading lines back -/

/-- The first line feed of a text ends its first line. -/
theorem lines_piece_append {piece : Text} (h : '\n' ∉ piece) (t : Text) :
    lines (piece ++ '\n' :: t) = ofPiece piece :: lines t := by
  induction piece with
  | nil => rw [List.nil_append, lines, if_pos rfl]; rfl
  | cons c piece ih =>
    obtain ⟨hc, hpiece⟩ : '\n' ≠ c ∧ '\n' ∉ piece := by simpa using h
    rw [List.cons_append, lines, if_neg (Ne.symm hc), ih hpiece, extend_ofPiece]

/-- What stands in front of the line feed of a whole line makes this line. -/
theorem Whole.exists_piece (h : l.Whole) (he : l.ending ≠ none) :
    ∃ piece, '\n' ∉ piece ∧ l.source = piece ++ ['\n'] ∧ ofPiece piece = l := by
  obtain ⟨text, ending⟩ := l
  cases ending with
  | none => exact absurd rfl he
  | some ending =>
    cases ending with
    | lf =>
      refine ⟨text, h.unbroken, rfl, ?_⟩
      simp [ofPiece, dropReturn, h.returned rfl]
    | crlf =>
      refine ⟨text ++ ['\r'], ?_, by simp [source, LineEnding.text], ?_⟩
      · simpa using h.unbroken
      · simp [ofPiece, dropReturn]

/-- **Lines that are divided are the lines of the document that they make up.** -/
theorem lines_flatMap_source (h : Divided ls) : lines (ls.flatMap source) = ls := by
  induction ls with
  | nil => rfl
  | cons l ls ih =>
    have hwhole : l.Whole := h.whole l List.mem_cons_self
    rw [List.flatMap_cons]
    by_cases he : l.ending = none
    · -- nothing follows a line without a line break
      obtain rfl : ls = [] := by
        by_contra hne
        exact h.ended_of_cons hne he
      obtain ⟨text, ending⟩ := l
      obtain rfl : ending = none := he
      have hne : text ≠ [] := hwhole.nonempty rfl
      rw [List.flatMap_nil, List.append_nil, source, Option.elim, List.append_nil,
        lines_eq_ofPieces, splitOn_of_not_mem hwhole.unbroken]
      simp [ofPieces, hne]
    · obtain ⟨piece, hpiece, hsource, hl⟩ := hwhole.exists_piece he
      rw [hsource, List.append_assoc, List.singleton_append, lines_piece_append hpiece, hl,
        ih h.tail]

/-! ## Line breaks -/

/-- When a text ends with a line feed, all its lines have line breaks. -/
theorem ended_lines {t : Text} (h : t.getLast? = some '\n') : ∀ l ∈ lines t, l.ending ≠ none := by
  intro l hl he
  obtain ⟨earlier, later, hsplit⟩ := List.append_of_mem hl
  have hdivided : Divided (earlier ++ l :: later) := hsplit ▸ divided_lines t
  -- a line without a line break is the last one, and the text ends as it does
  obtain rfl : later = [] := by
    by_contra hne
    exact hdivided.right.ended_of_cons hne he
  have hwhole : l.Whole := hdivided.whole l (List.mem_append_right _ List.mem_cons_self)
  have hsource := flatMap_source_lines t
  rw [hsplit, List.flatMap_append, List.flatMap_singleton, source, he, Option.elim,
    List.append_nil] at hsource
  rw [← hsource, List.getLast?_append_of_ne_nil _ (hwhole.nonempty he)] at h
  exact hwhole.unbroken (List.mem_of_getLast? h)

theorem Whole.count_source (h : l.Whole) (he : l.ending ≠ none) : l.source.count '\n' = 1 := by
  obtain ⟨piece, hpiece, hsource, _⟩ := h.exists_piece he
  rw [hsource, List.count_append, List.count_eq_zero.mpr hpiece]
  rfl

/-- Lines with line breaks are as many as the line feeds in them. -/
theorem count_flatMap_source (hwhole : ∀ l ∈ ls, l.Whole) (hended : ∀ l ∈ ls, l.ending ≠ none) :
    (ls.flatMap source).count '\n' = ls.length := by
  induction ls with
  | nil => rfl
  | cons l ls ih =>
    have hl := (hwhole l List.mem_cons_self).count_source (hended l List.mem_cons_self)
    rw [List.flatMap_cons, List.count_append, hl, List.length_cons,
      ih (fun m hm => hwhole m (List.mem_cons_of_mem _ hm))
        (fun m hm => hended m (List.mem_cons_of_mem _ hm)), Nat.add_comm]

/-- Lines with line breaks end with a line feed. -/
theorem getLast?_flatMap_source (hended : ∀ l ∈ ls, l.ending ≠ none) (hne : ls ≠ []) :
    (ls.flatMap source).getLast? = some '\n' := by
  have hlast : ls.getLast hne ∈ ls := List.getLast_mem hne
  rw [← List.dropLast_concat_getLast hne, List.flatMap_append, List.flatMap_singleton, source]
  cases he : (ls.getLast hne).ending with
  | none => exact absurd he (hended _ hlast)
  | some ending => cases ending <;> simp [LineEnding.text]

/-- A line with its break has only the line feed of the break. -/
theorem Whole.unifyBreaks_source_append (h : l.Whole) (he : l.ending ≠ none) (t : Text) :
    unifyBreaks (l.source ++ t) = l.text ++ '\n' :: unifyBreaks t := by
  cases hending : l.ending with
  | none => exact absurd hending he
  | some ending =>
    rw [source, hending, List.append_assoc]
    cases ending with
    | lf =>
      rw [unifyBreaks_append h.unbroken _ fun hr => absurd hr (h.returned hending)]
      simp [LineEnding.text, unifyBreaks]
    | crlf =>
      rw [unifyBreaks_append h.unbroken _ fun _ => by simp [LineEnding.text]]
      simp [LineEnding.text, unifyBreaks]

/-- Written with line feeds only, the lines of a passage are their texts put together. -/
theorem unifyBreaks_joined (h : Divided ls) :
    unifyBreaks (Passage.joined ls) = join LineEnding.lf.text (ls.map text) := by
  induction ls with
  | nil => rfl
  | cons l ls ih =>
    have hwhole : l.Whole := h.whole l List.mem_cons_self
    cases ls with
    | nil =>
      have hlast := unifyBreaks_append hwhole.unbroken [] fun _ => by simp
      rw [List.append_nil] at hlast
      exact hlast.trans (List.append_nil _)
    | cons m ls =>
      have he : l.ending ≠ none := h.ended_of_cons (List.cons_ne_nil m ls)
      rw [Passage.joined, hwhole.unifyBreaks_source_append he, ih h.tail]
      simp [join, LineEnding.text]

/-- A carriage return in front of a line feed is the break of a line. -/
theorem holds_crlf_iff (document : Text) :
    holds LineEnding.crlf.text document = true ↔ ∃ l ∈ lines document, l.ending = some .crlf := by
  induction document with
  | nil => simp [lines, holds, cut?, search, after?, LineEnding.text]
  | cons c t ih =>
    rw [holds_crlf_cons, ih]
    by_cases hc : c = '\n'
    · simp [lines, hc]
    · rw [lines, if_neg hc]
      have hsource := flatMap_source_lines t
      cases ht : lines t with
      | nil =>
        rw [ht, List.flatMap_nil] at hsource
        simp [extend, ← hsource]
      | cons l rest =>
        rw [ht, List.flatMap_cons] at hsource
        rw [extend]
        split
        · rename_i h
          obtain ⟨rfl, rfl⟩ := h
          simp [← hsource, source, LineEnding.text]
        · -- no line feed comes next, so the character stays in its line
          rename_i h
          have hnext : ¬ (c = '\r' ∧ t.head? = some '\n') := by
            rintro ⟨rfl, hhead⟩
            obtain ⟨u, rfl⟩ := List.head?_eq_some_iff.mp hhead
            rw [lines, if_pos rfl] at ht
            exact h ⟨rfl, (List.cons.inj ht).1.symm⟩
          simp [hnext]

/-- Only the line breaks of a document tell which one it is put together with. -/
theorem detect_congr {document other : Text}
    (h : (lines document).filterMap ending = (lines other).filterMap ending) :
    LineEnding.detect document = LineEnding.detect other := by
  have hholds : holds LineEnding.crlf.text document = holds LineEnding.crlf.text other := by
    rw [Bool.eq_iff_iff, holds_crlf_iff, holds_crlf_iff, ← List.mem_filterMap, h, List.mem_filterMap]
  rw [LineEnding.detect, LineEnding.detect, hholds]

end Line
end BuildBlocks
