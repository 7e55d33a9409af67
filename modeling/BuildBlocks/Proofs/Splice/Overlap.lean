import BuildBlocks.Proofs.Splice.Cuts
import Mathlib.Data.List.Pairwise

/-! # When splices apply

Splices apply when, in the order of their starts, each one stops before the next one starts
(`exists_apply_of_pairwise`, `pairwise_of_apply`).  Sorting keeps those that start together in the order in which they were
given, so this comes to two conditions on the list as it was given: the spans lie apart, and of
two that start together the earlier one is a point (`isSome_apply_iff`).  For spans that are not
empty the second condition follows from the first, and the order no longer matters
(`apply_disjoint`).
-/
namespace BuildBlocks
open Text

namespace Text

theorem eq_nil_of_byteLength_eq_zero {t : Text} (h : byteLength t = 0) : t = [] := by
  cases t with
  | nil => rfl
  | cons c t =>
    have hpos := c.utf8Size_pos
    rw [byteLength_cons] at h
    omega

/-- Of two texts with which a third starts the one with fewer bytes comes first. -/
theorem exists_append_of_byteLength_le {t u v w : Text} (h : t ++ u = v ++ w)
    (hlength : byteLength t ≤ byteLength v) : ∃ gap, v = t ++ gap ∧ u = gap ++ w := by
  rcases List.append_eq_append_iff.mp h with ⟨gap, hv, hu⟩ | ⟨gap, rfl, rfl⟩
  · exact ⟨gap, hv, hu⟩
  · rw [byteLength_append] at hlength
    obtain rfl : gap = [] := eq_nil_of_byteLength_eq_zero (by omega)
    exact ⟨[], by simp, by simp⟩

end Text

namespace Span

/-- The span runs forwards, lies in the source and cuts no character. -/
def Inside (source : Text) (s : Span) : Prop :=
  ∃ before extent after, source = before ++ extent ++ after ∧
    s = ⟨byteLength before, byteLength before + byteLength extent⟩

/-- The byte is one of those that the span takes. -/
def Holds (s : Span) (n : Nat) : Prop :=
  s.start ≤ n ∧ n < s.stop

/-- No byte is taken by both spans. -/
def Disjoint (a b : Span) : Prop :=
  ∀ n, ¬ (a.Holds n ∧ b.Holds n)

/-- The span takes no byte: it is a place between two. -/
def IsPoint (s : Span) : Prop :=
  s.start = s.stop

instance (s : Span) : Decidable s.IsPoint :=
  inferInstanceAs (Decidable (s.start = s.stop))

/-- One of the spans stops before the other one starts. -/
def Apart (a b : Span) : Prop :=
  a.stop ≤ b.start ∨ b.stop ≤ a.start

variable {source : Text} {a b s : Span}

theorem Inside.start_le (h : s.Inside source) : s.start ≤ s.stop := by
  obtain ⟨before, extent, _, _, rfl⟩ := h
  exact Nat.le_add_right _ _

/-- The spans that lie in a source are those that take something from it. -/
theorem inside_iff_isSome_slice? : s.Inside source ↔ (source.slice? s).isSome = true := by
  constructor
  · rintro ⟨before, extent, after, rfl, rfl⟩
    rw [slice?_append]
    rfl
  · intro h
    rw [slice?] at h
    split at h
    · rename_i hle
      obtain ⟨extent, hslice⟩ := Option.isSome_iff_exists.mp h
      obtain ⟨⟨before, rest⟩, hstart, hslice⟩ := Option.bind_eq_some_iff.mp hslice
      obtain ⟨⟨_, after⟩, hstop, rfl⟩ := Option.map_eq_some_iff.mp hslice
      obtain ⟨rfl, hbefore⟩ := splitAtByte?_eq_some_iff.mp hstart
      obtain ⟨rfl, hextent⟩ := splitAtByte?_eq_some_iff.mp hstop
      refine ⟨before, _, after, (List.append_assoc ..).symm, ?_⟩
      rw [hbefore, hextent, Nat.add_sub_cancel' hle]
    · cases h

instance (source : Text) (s : Span) : Decidable (s.Inside source) :=
  decidable_of_iff _ inside_iff_isSome_slice?.symm

theorem Apart.symm (h : a.Apart b) : b.Apart a :=
  Or.symm h

theorem Apart.disjoint (h : a.Apart b) : a.Disjoint b := by
  rintro n ⟨⟨_, _⟩, _, _⟩
  rcases h with h | h <;> omega

/-- Spans without a common byte lie apart, unless one is a point within the other. -/
theorem Disjoint.apart (h : a.Disjoint b) (ha : a.start ≤ a.stop) (hb : b.start ≤ b.stop)
    (hab : a.IsPoint → ¬ (b.start < a.start ∧ a.start < b.stop))
    (hba : b.IsPoint → ¬ (a.start < b.start ∧ b.start < a.stop)) : a.Apart b := by
  have hfirst : ¬ (a.Holds a.start ∧ b.Holds a.start) := h a.start
  have hsecond : ¬ (a.Holds b.start ∧ b.Holds b.start) := h b.start
  simp only [Holds, IsPoint, Apart] at *
  omega

/-- Spans that take bytes are disjoint when they lie apart. -/
theorem disjoint_iff_apart (ha : a.start < a.stop) (hb : b.start < b.stop) :
    a.Disjoint b ↔ a.Apart b := by
  have hpoint : ∀ {s : Span}, s.start < s.stop → ¬ s.IsPoint := fun h => Nat.ne_of_lt h
  refine ⟨fun h => h.apart (Nat.le_of_lt ha) (Nat.le_of_lt hb) ?_ ?_, Apart.disjoint⟩
  · exact fun h => absurd h (hpoint ha)
  · exact fun h => absurd h (hpoint hb)

end Span

namespace Splice

/-- The result is the source with every stretch that a splice spans replaced by its text; what
stands between these stretches is kept, once and in its order. -/
def Yields (adds : List Splice) (source result : Text) : Prop :=
  ∃ (cuts : List Cut) (tail : Text), (cuts.map Cut.splice).Perm adds ∧ Cut.Placed 0 cuts ∧
    source = Cut.sources cuts ++ tail ∧ result = Cut.results cuts ++ tail

variable {source result : Text} {splices adds : List Splice}

/-! ## The walk over sorted splices -/

/-- One splice is taken up where the walk has come to: a gap is kept in front of it. -/
theorem exists_gap_of_inside {s : Splice} {before rest : Text} (hs : s.span.Inside (before ++ rest))
    (hstart : byteLength before ≤ s.span.start) :
    ∃ gap extent later, rest = gap ++ extent ++ later ∧
      s.span = ⟨byteLength before + byteLength gap,
        byteLength before + byteLength gap + byteLength extent⟩ := by
  obtain ⟨front, extent, later, hsource, hspan⟩ := hs
  rw [hspan] at hstart
  rw [List.append_assoc] at hsource
  obtain ⟨gap, rfl, rfl⟩ := exists_append_of_byteLength_le hsource hstart
  exact ⟨gap, extent, later, (List.append_assoc ..).symm, by rw [hspan, byteLength_append]⟩

/-- Splices each of which stops before the next one starts cut the source. -/
theorem exists_cuts_of_pairwise
    (hpair : splices.Pairwise fun a b => a.span.stop ≤ b.span.start) :
    ∀ before rest : Text, (∀ s ∈ splices, s.span.Inside (before ++ rest)) →
      (∀ s ∈ splices, byteLength before ≤ s.span.start) →
      ∃ cuts tail, cuts.map Cut.splice = splices ∧ Cut.Placed (byteLength before) cuts ∧
        rest = Cut.sources cuts ++ tail := by
  induction splices with
  | nil => exact fun before rest _ _ => ⟨[], rest, rfl, trivial, rfl⟩
  | cons s splices ih =>
    intro before rest hinside hstart
    obtain ⟨hnext, hpair⟩ := List.pairwise_cons.mp hpair
    obtain ⟨gap, extent, later, rfl, hspan⟩ :=
      exists_gap_of_inside (hinside s List.mem_cons_self) (hstart s List.mem_cons_self)
    have hstop : byteLength (before ++ gap ++ extent) = s.span.stop := by
      rw [hspan, byteLength_append, byteLength_append]
    obtain ⟨cuts, tail, hsplices, hplaced, rfl⟩ := ih hpair (before ++ gap ++ extent) later
      (fun r hr => by simpa using hinside r (List.mem_cons_of_mem _ hr))
      (fun r hr => by rw [hstop]; exact hnext r hr)
    rw [hstop] at hplaced
    refine ⟨⟨gap, extent, s⟩ :: cuts, tail, ?_, ⟨hspan, hplaced⟩, ?_⟩
    · rw [List.map_cons, hsplices]
    · rw [Cut.sources_cons, List.append_assoc _ _ tail]

/-- A walk that gets through never turns back. -/
theorem pairwise_of_weave {cursor : Nat} (hle : ∀ s ∈ splices, s.span.start ≤ s.span.stop)
    (h : weave source cursor splices = some result) :
    (∀ s ∈ splices, cursor ≤ s.span.start) ∧
      splices.Pairwise fun a b => a.span.stop ≤ b.span.start := by
  induction splices generalizing cursor result with
  | nil => exact ⟨fun s hs => absurd hs List.not_mem_nil, List.Pairwise.nil⟩
  | cons s splices ih =>
    rw [weave] at h
    obtain ⟨gap, hgap, h⟩ := Option.bind_eq_some_iff.mp h
    obtain ⟨later, hlater, _⟩ := Option.map_eq_some_iff.mp h
    obtain ⟨hnext, hpair⟩ := ih (fun r hr => hle r (List.mem_cons_of_mem _ hr)) hlater
    -- a gap that runs backwards takes nothing
    have hstart : cursor ≤ s.span.start := by
      by_contra hback
      rw [slice?, if_neg hback] at hgap
      cases hgap
    refine ⟨fun r hr => ?_, List.pairwise_cons.mpr ⟨hnext, hpair⟩⟩
    rcases List.mem_cons.mp hr with rfl | hr
    · exact hstart
    · have hstop := hle s List.mem_cons_self
      have hafter := hnext r hr
      omega

/-- Splices that lie in the source and whose walk never turns back apply. -/
theorem exists_apply_of_pairwise (hinside : ∀ s ∈ adds, s.span.Inside source)
    (hpair : (adds.mergeSort precedes).Pairwise fun a b => a.span.stop ≤ b.span.start) :
    ∃ result, apply adds source = some result ∧ Yields adds source result := by
  have hsorted : ∀ s ∈ adds.mergeSort precedes, s.span.Inside source :=
    fun s hs => hinside s (List.mem_mergeSort.mp hs)
  obtain ⟨cuts, tail, hsplices, hplaced, rfl⟩ :=
    exists_cuts_of_pairwise hpair [] source hsorted fun s _ => Nat.zero_le _
  refine ⟨Cut.results cuts ++ tail, ?_, cuts, tail, ?_, hplaced, rfl, rfl⟩
  · rw [apply, ← hsplices]
    exact Cut.weave_cuts [] tail hplaced
  · rw [hsplices]
    exact List.mergeSort_perm adds precedes

theorem pairwise_of_apply (hinside : ∀ s ∈ adds, s.span.Inside source)
    (h : apply adds source = some result) :
    (adds.mergeSort precedes).Pairwise fun a b => a.span.stop ≤ b.span.start :=
  (pairwise_of_weave (fun s hs => (hinside s (List.mem_mergeSort.mp hs)).start_le) h).2

theorem yields_of_apply (hinside : ∀ s ∈ adds, s.span.Inside source)
    (h : apply adds source = some result) : Yields adds source result := by
  obtain ⟨result', hresult', hyields⟩ :=
    exists_apply_of_pairwise hinside (pairwise_of_apply hinside h)
  obtain rfl : result = result' := Option.some.inj (h.symm.trans hresult')
  exact hyields

/-! ## The order in which splices are given -/

theorem precedes_trans (a b c : Splice) (hab : precedes a b = true) (hbc : precedes b c = true) :
    precedes a c = true := by
  simp only [precedes, decide_eq_true_eq] at *
  omega

theorem precedes_total (a b : Splice) : (precedes a b || precedes b a) = true := by
  simp only [precedes, Bool.or_eq_true, decide_eq_true_eq]
  omega

theorem pairwise_start_mergeSort (adds : List Splice) :
    (adds.mergeSort precedes).Pairwise fun a b => a.span.start ≤ b.span.start :=
  (List.pairwise_mergeSort precedes_trans precedes_total adds).imp of_decide_eq_true

/-- Splices that start together stay in the order in which they were given. -/
theorem filter_start_mergeSort (adds : List Splice) (n : Nat) :
    (adds.mergeSort precedes).filter (fun s => s.span.start = n) =
      adds.filter fun s => s.span.start = n := by
  have hties : (adds.filter fun s => s.span.start = n).Pairwise fun a b => precedes a b = true := by
    refine List.pairwise_of_forall_mem_list fun a ha b hb => ?_
    have ha' := (List.mem_filter.mp ha).2
    have hb' := (List.mem_filter.mp hb).2
    simp only [precedes, decide_eq_true_eq] at *
    omega
  have hsub : (adds.filter fun s => s.span.start = n).Sublist (adds.mergeSort precedes) :=
    List.sublist_mergeSort precedes_trans precedes_total hties List.filter_sublist
  have hfilter := hsub.filter fun s => s.span.start = n
  rw [List.filter_filter] at hfilter
  simp only [Bool.and_self] at hfilter
  refine (hfilter.eq_of_length ?_).symm
  exact ((List.mergeSort_perm adds precedes).filter _).length_eq.symm

/-- A condition on splices that start together holds of all pairs when it holds at each start. -/
theorem pairwise_start_iff {R : Splice → Splice → Prop} :
    (adds.Pairwise fun a b => a.span.start = b.span.start → R a b) ↔
      ∀ n, (adds.filter fun s => s.span.start = n).Pairwise R := by
  simp only [List.pairwise_filter, decide_eq_true_eq]
  constructor
  · intro h n
    exact h.imp fun hab ha hb => hab (ha.trans hb.symm)
  · intro h
    rw [List.pairwise_iff_getElem]
    intro i j hi hj hij htie
    exact List.pairwise_iff_getElem.mp (h _) i j hi hj hij rfl htie.symm

/-- **When splices apply.**  Splices that lie in the source apply exactly when they lie apart and
of two that start together the one that is given first is a point. -/
theorem isSome_apply_iff (hinside : ∀ s ∈ adds, s.span.Inside source) :
    (apply adds source).isSome = true ↔
      (adds.Pairwise fun a b => a.span.Apart b.span) ∧
        adds.Pairwise fun a b => a.span.start = b.span.start → a.span.IsPoint := by
  have hwalk : (apply adds source).isSome = true ↔
      (adds.mergeSort precedes).Pairwise fun a b => a.span.stop ≤ b.span.start := by
    rw [Option.isSome_iff_exists]
    constructor
    · rintro ⟨result, h⟩
      exact pairwise_of_apply hinside h
    · intro hpair
      obtain ⟨result, h, _⟩ := exists_apply_of_pairwise hinside hpair
      exact ⟨result, h⟩
  -- both conditions may be read off the sorted list
  have hapart : (adds.mergeSort precedes).Pairwise (fun a b => a.span.Apart b.span) ↔
      adds.Pairwise fun a b => a.span.Apart b.span :=
    (List.mergeSort_perm adds precedes).pairwise_iff fun h => h.symm
  have htie : ((adds.mergeSort precedes).Pairwise fun a b =>
        a.span.start = b.span.start → a.span.IsPoint) ↔
      adds.Pairwise fun a b => a.span.start = b.span.start → a.span.IsPoint := by
    rw [pairwise_start_iff, pairwise_start_iff]
    simp only [filter_start_mergeSort]
  rw [hwalk, ← hapart, ← htie, ← List.pairwise_and_iff]
  have hsorted := pairwise_start_mergeSort adds
  have hle : ∀ s ∈ adds.mergeSort precedes, s.span.start ≤ s.span.stop :=
    fun s hs => (hinside s (List.mem_mergeSort.mp hs)).start_le
  simp only [Span.Apart, Span.IsPoint]
  constructor
  · intro h
    refine (hsorted.and h).imp_of_mem fun ha _ hab => ?_
    have := hle _ ha
    omega
  · intro h
    refine (hsorted.and h).imp_of_mem fun _ hb hab => ?_
    have := hle _ hb
    omega

/-! ## Spans that take bytes -/

/-- Disjoint splices that take bytes have one order. -/
theorem mergeSort_eq_of_perm {adds' : List Splice} (hne : ∀ s ∈ adds, s.span.start < s.span.stop)
    (hdisjoint : adds.Pairwise fun a b => a.span.Disjoint b.span) (hperm : adds'.Perm adds) :
    adds'.mergeSort precedes = adds.mergeSort precedes := by
  have hsymm : Std.Symm fun a b : Splice => a.span.Disjoint b.span :=
    ⟨fun a b h n hn => h n hn.symm⟩
  refine List.Perm.eq_of_pairwise ?_ (pairwise_start_mergeSort adds')
    (pairwise_start_mergeSort adds) ?_
  · intro a b ha hb hab hba
    have ha' : a ∈ adds := hperm.mem_iff.mp (List.mem_mergeSort.mp ha)
    have hb' : b ∈ adds := List.mem_mergeSort.mp hb
    -- two splices that start together share the byte where they start
    by_contra hdistinct
    have hshared := hdisjoint.forall ha' hb' hdistinct a.span.start
    have hastop := hne a ha'
    have hbstop := hne b hb'
    simp only [Span.Holds] at hshared
    omega
  · exact ((List.mergeSort_perm adds' precedes).trans hperm).trans
      (List.mergeSort_perm adds precedes).symm

theorem isSome_apply_iff_disjoint (hinside : ∀ s ∈ adds, s.span.Inside source)
    (hne : ∀ s ∈ adds, s.span.start < s.span.stop) :
    (apply adds source).isSome = true ↔ adds.Pairwise fun a b => a.span.Disjoint b.span := by
  have hapart : (adds.Pairwise fun a b => a.span.Disjoint b.span) ↔
      adds.Pairwise fun a b => a.span.Apart b.span :=
    List.Pairwise.iff_of_mem fun ha hb => Span.disjoint_iff_apart (hne _ ha) (hne _ hb)
  rw [isSome_apply_iff hinside, hapart, and_iff_left_iff_imp]
  intro h
  refine h.imp_of_mem fun ha hb hab hstart => ?_
  have hastop := hne _ ha
  have hbstop := hne _ hb
  simp only [Span.Apart] at hab
  omega

/-- **Splicing replaces disjoint spans and refuses all others.**  Splices that take bytes of the
source have a result exactly when no two of them share a byte.  It is the source with every span
replaced and the rest kept, and it does not depend on the order in which they are given. -/
theorem apply_disjoint (hinside : ∀ s ∈ adds, s.span.Inside source)
    (hne : ∀ s ∈ adds, s.span.start < s.span.stop) :
    ((∃ result, apply adds source = some result) ↔
      adds.Pairwise fun a b => a.span.Disjoint b.span) ∧
    (∀ result, apply adds source = some result → Yields adds source result) ∧
    ∀ adds' : List Splice, adds'.Perm adds → apply adds' source = apply adds source := by
  have hiff := isSome_apply_iff_disjoint hinside hne
  refine ⟨?_, fun result => yields_of_apply hinside, fun adds' hperm => ?_⟩
  · rw [← hiff, Option.isSome_iff_exists]
  · by_cases hdisjoint : adds.Pairwise fun a b => a.span.Disjoint b.span
    · rw [apply, apply, mergeSort_eq_of_perm hne hdisjoint hperm]
    · -- neither order has a result
      have hdisjoint' : ¬ adds'.Pairwise fun a b => a.span.Disjoint b.span := by
        rwa [hperm.pairwise_iff fun h n hn => h n hn.symm]
      have hiff' := isSome_apply_iff_disjoint
        (fun s hs => hinside s (hperm.mem_iff.mp hs)) fun s hs => hne s (hperm.mem_iff.mp hs)
      rw [← hiff, Option.not_isSome_iff_eq_none] at hdisjoint
      rw [← hiff', Option.not_isSome_iff_eq_none] at hdisjoint'
      rw [hdisjoint, hdisjoint']

/-- A letter of two bytes, a dash and another letter. -/
def dashed : Text :=
  "é - b".toList

/-- The letters of `dashed` in capitals, the last one first. -/
def capitals : List Splice :=
  [⟨⟨5, 6⟩, "B".toList⟩, ⟨⟨0, 2⟩, "É".toList⟩]

theorem apply_disjoint_capitals :
    (∀ s ∈ capitals, s.span.Inside dashed) ∧ (∀ s ∈ capitals, s.span.start < s.span.stop) ∧
      apply capitals dashed = some "É - B".toList ∧
      Yields capitals dashed "É - B".toList := by
  have hinside : ∀ s ∈ capitals, s.span.Inside dashed := by decide
  have hne : ∀ s ∈ capitals, s.span.start < s.span.stop := by decide
  obtain ⟨_, hyields, horder⟩ := apply_disjoint hinside hne
  -- from left to right they need no sorting
  have hsorted : apply capitals.reverse dashed = some "É - B".toList := by
    rw [apply, List.mergeSort_of_pairwise (by decide)]
    decide
  have happly : apply capitals dashed = some "É - B".toList := by
    rw [← horder capitals.reverse (List.reverse_perm capitals), hsorted]
  exact ⟨hinside, hne, happly, hyields _ happly⟩

end Splice
end BuildBlocks
