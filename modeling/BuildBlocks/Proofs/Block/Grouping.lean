import BuildBlocks.Proofs.Block.Extraction

/-! # What segments are

Grouping yields segments that are well formed: outside of passages there is no directive line,
a passage starts with one and has no other, and an end marker stands on its last line or
nowhere in it (`wellFormed_ofDocument`).  A list of well-formed segments is what its lines are
grouped into, as long as every passage in it is terminated (`ofLines_flatMap_lines`).
-/
namespace BuildBlocks
open Extraction

/-- A passage as its lines make it. -/
structure Passage.WellFormed (p : Passage) : Prop where
  /-- The directive stands on the first line, and on no other line there is one. -/
  opening : ∃ l rest, p.lines = l :: rest ∧ Directive.parse l.text = some p.directive ∧
    ∀ m ∈ rest, Directive.parse m.text = none
  /-- The last line tells whether the passage is closed, and no other line closes it. -/
  closing : ∃ earlier last, p.lines = earlier ++ [last] ∧
    (∀ m ∈ earlier, Directive.isEndMarker m.text = false) ∧
    Directive.isEndMarker last.text = p.terminated

/-- A segment as its lines make it. -/
inductive Segment.WellFormed : Segment → Prop
  | plain {l : Line} (h : Directive.parse l.text = none) : WellFormed (.plain l)
  | passage {p : Passage} (h : p.WellFormed) : WellFormed (.passage p)

namespace Passage
variable {p : Passage} {l : Line} {d : Directive}

theorem WellFormed.lines_ne_nil (h : p.WellFormed) : p.lines ≠ [] := by
  obtain ⟨l, rest, hlines, _⟩ := h.opening
  rw [hlines]
  exact List.cons_ne_nil l rest

theorem wellFormed_opened_push (h : Directive.parse l.text = some d) :
    ((opened d).push l).WellFormed where
  opening := ⟨l, [], rfl, h, fun _ hm => absurd hm List.not_mem_nil⟩
  closing := ⟨[], l, rfl, fun _ hm => absurd hm List.not_mem_nil, rfl⟩

/-- A passage that is still open takes in any line without a directive. -/
theorem WellFormed.push (hp : p.WellFormed) (hopen : p.terminated = false)
    (h : Directive.parse l.text = none) : (p.push l).WellFormed := by
  obtain ⟨first, rest, hfirst, hdirective, hrest⟩ := hp.opening
  obtain ⟨earlier, last, hlast, hearlier, hmark⟩ := hp.closing
  constructor
  · refine ⟨first, rest ++ [l], ?_, hdirective, fun m hm => ?_⟩
    · rw [Passage.push, hfirst, List.cons_append]
    · rcases List.mem_append.mp hm with hm | hm
      · exact hrest m hm
      · rw [List.mem_singleton.mp hm]
        exact h
  · -- the line that was last so far does not close the passage either
    refine ⟨earlier ++ [last], l, by rw [Passage.push, hlast], fun m hm => ?_, rfl⟩
    rcases List.mem_append.mp hm with hm | hm
    · exact hearlier m hm
    · rw [List.mem_singleton.mp hm, hmark, hopen]

end Passage

namespace Segment
variable {s : Segment} {l : Line} {ls rest : List Line}

/-- A passage that has just taken in a line is well formed, and so is what follows it. -/
theorem WellFormed.of_mem_resume {q : Passage} (hq : q.WellFormed)
    (hidle : ∀ s ∈ scan none rest, s.WellFormed)
    (hpending : q.terminated = false → ∀ s ∈ scan (some q) rest, s.WellFormed) :
    ∀ s ∈ resume q rest, s.WellFormed := by
  intro s hs
  rw [resume] at hs
  split at hs
  · rcases List.mem_cons.mp hs with rfl | hs
    · exact .passage hq
    · exact hidle s hs
  · rename_i hopen
    exact hpending (by simpa using hopen) s hs

/-- What the walk over the lines yields is well formed, whatever passage is open. -/
theorem wellFormed_scan (ls : List Line) :
    (∀ s ∈ scan none ls, s.WellFormed) ∧
      ∀ q : Passage, q.WellFormed → q.terminated = false →
        ∀ s ∈ scan (some q) ls, s.WellFormed := by
  induction ls with
  | nil =>
    refine ⟨fun s hs => absurd hs List.not_mem_nil, fun q hq _ s hs => ?_⟩
    rw [show scan (some q) [] = [.passage q] from rfl, List.mem_singleton] at hs
    rw [hs]
    exact .passage hq
  | cons l ls ih =>
    obtain ⟨hidle, hpending⟩ := ih
    cases hd : Directive.parse l.text with
    | none =>
      constructor
      · intro s hs
        rw [scan_none_cons hd] at hs
        rcases List.mem_cons.mp hs with rfl | hs
        · exact .plain hd
        · exact hidle s hs
      · intro q hq hopen s hs
        rw [scan_some_cons hd] at hs
        have hpush : (q.push l).WellFormed := hq.push hopen hd
        exact WellFormed.of_mem_resume hpush hidle (hpending _ hpush) s hs
    | some d =>
      -- the line opens a passage, whether it abandons another one or not
      have hnew : ((Passage.opened d).push l).WellFormed := Passage.wellFormed_opened_push hd
      have hresume := WellFormed.of_mem_resume hnew hidle (hpending _ hnew)
      constructor
      · intro s hs
        rw [scan_cons_of_opens hd] at hs
        exact hresume s hs
      · intro q hq _ s hs
        rw [scan_cons_of_opens hd] at hs
        rcases List.mem_cons.mp hs with rfl | hs
        · exact .passage hq
        · exact hresume s hs

/-- The segments of a document are well formed. -/
theorem wellFormed_ofDocument {document : Text} (hs : s ∈ ofDocument document) : s.WellFormed :=
  (wellFormed_scan _).1 s hs

theorem flatMap_lines_ofDocument (document : Text) :
    (ofDocument document).flatMap lines = Line.lines document :=
  flatMap_lines_ofLines _

/-- A well-formed segment has a line. -/
theorem flatMap_lines_ne_nil {segs : List Segment} (hsegs : ∀ s ∈ segs, s.WellFormed)
    (hne : segs ≠ []) : segs.flatMap lines ≠ [] := by
  obtain ⟨s, rest, rfl⟩ := List.exists_cons_of_ne_nil hne
  rw [List.flatMap_cons]
  refine List.append_ne_nil_of_left_ne_nil ?_ _
  cases hsegs s List.mem_cons_self with
  | plain _ => exact List.cons_ne_nil _ _
  | passage h => exact h.lines_ne_nil

/-! ## Grouping again -/

/-- Whether the segment is a plain line or a passage that is closed. -/
def settled : Segment → Bool
  | plain _ => true
  | passage p => p.terminated

/-- An end marker closes the passage that takes it in. -/
theorem resume_of_marked (h : Directive.isEndMarker l.text = true) (q : Passage)
    (rest : List Line) :
    resume (q.push l) rest = passage ⟨q.directive, q.lines ++ [l], true⟩ :: scan none rest := by
  have ht : q.push l = ⟨q.directive, q.lines ++ [l], true⟩ := by rw [Passage.push, h]
  rw [ht, resume, if_pos rfl]

theorem resume_of_unmarked (h : Directive.isEndMarker l.text = false) (q : Passage)
    (rest : List Line) : resume (q.push l) rest = scan (some (q.push l)) rest := by
  have ht : (q.push l).terminated = false := h
  rw [resume, if_neg (by simp [ht])]

/-- An open passage takes in the lines before an end marker and is closed by it. -/
theorem scan_some_append {last : Line} (hlast : Directive.parse last.text = none)
    (hmark : Directive.isEndMarker last.text = true) (rest : List Line) :
    ∀ (ms : List Line) (q : Passage), (∀ m ∈ ms, Directive.parse m.text = none) →
      (∀ m ∈ ms, Directive.isEndMarker m.text = false) →
      scan (some q) (ms ++ last :: rest) =
        passage ⟨q.directive, q.lines ++ (ms ++ [last]), true⟩ :: scan none rest := by
  intro ms
  induction ms with
  | nil =>
    intro q _ _
    rw [List.nil_append, scan_some_cons hlast, resume_of_marked hmark, List.nil_append]
  | cons m ms ih =>
    intro q hparse hmarks
    rw [List.cons_append, scan_some_cons (hparse m List.mem_cons_self),
      resume_of_unmarked (hmarks m List.mem_cons_self),
      ih _ (fun n hn => hparse n (List.mem_cons_of_mem _ hn))
        (fun n hn => hmarks n (List.mem_cons_of_mem _ hn))]
    simp [Passage.push]

/-- The lines of a closed passage are grouped into it. -/
theorem scan_passage_append {p : Passage} (hp : p.WellFormed) (ht : p.terminated = true)
    (rest : List Line) : scan none (p.lines ++ rest) = passage p :: scan none rest := by
  obtain ⟨first, others, hfirst, hdirective, hothers⟩ := hp.opening
  obtain ⟨earlier, last, hlast, hearlier, hmark⟩ := hp.closing
  rw [ht] at hmark
  have hp' : p = ⟨p.directive, p.lines, true⟩ := by rw [← ht]
  rw [hp', hfirst, List.cons_append, scan_cons_of_opens hdirective, Option.map_none,
    Option.toList_none, List.nil_append]
  rw [hfirst] at hlast
  cases earlier with
  | nil =>
    -- the directive line itself holds the end marker
    obtain ⟨rfl, rfl⟩ := List.cons.inj hlast
    rw [resume_of_marked hmark]
    rfl
  | cons m ms =>
    obtain ⟨rfl, hothers'⟩ := List.cons.inj (hlast.trans (List.cons_append ..))
    rw [hothers'] at hothers ⊢
    rw [resume_of_unmarked (hearlier first List.mem_cons_self), List.append_assoc,
      List.singleton_append, scan_some_append (hothers last (by simp)) hmark rest ms _
        (fun m hm => hothers m (List.mem_append_left _ hm))
        (fun m hm => hearlier m (List.mem_cons_of_mem _ hm))]
    rfl

/-- **Well-formed segments are what their lines are grouped into**, when no passage among them
is left open. -/
theorem ofLines_flatMap_lines {segs : List Segment} (hsegs : ∀ s ∈ segs, s.WellFormed)
    (hsettled : ∀ s ∈ segs, s.settled = true) : ofLines (segs.flatMap lines) = segs := by
  rw [ofLines]
  induction segs with
  | nil => rfl
  | cons s segs ih =>
    have hrest := ih (fun t ht => hsegs t (List.mem_cons_of_mem _ ht))
      (fun t ht => hsettled t (List.mem_cons_of_mem _ ht))
    rw [List.flatMap_cons]
    cases hsegs s List.mem_cons_self with
    | plain h => rw [lines, List.singleton_append, scan_none_cons h, hrest]
    | passage h => rw [lines, scan_passage_append h (hsettled _ List.mem_cons_self), hrest]

end Segment
end BuildBlocks
