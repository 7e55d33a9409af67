import BuildBlocks.Proofs.Splice.Overlap

/-! # Texts that are put in at a point

A splice whose span takes no byte puts its text in between two.  Where a stretch starts that
another splice takes, the two start together and so are applied in the order in which they were
given: the text can be put in front of the stretch, but when the stretch comes first the walk is
already behind it.  This is the only obstacle (`apply_points`), and giving the points first removes
it.
-/
namespace BuildBlocks
open Text

namespace Splice

/-- The splices lie in the source, no byte is taken twice, and no text is put inside a stretch
that is taken. -/
structure Compatible (source : Text) (adds : List Splice) : Prop where
  inside : ∀ s ∈ adds, s.span.Inside source
  disjoint : adds.Pairwise fun a b => a.span.Disjoint b.span
  outside : ∀ a ∈ adds, ∀ b ∈ adds, a.span.IsPoint →
    ¬ (b.span.start < a.span.start ∧ a.span.start < b.span.stop)

/-- A stretch is taken, and a text is to be put in where it starts. -/
def Precludes (a b : Splice) : Prop :=
  a.span.start = b.span.start ∧ ¬ a.span.IsPoint ∧ b.span.IsPoint

instance (a b : Splice) : Decidable (Precludes a b) :=
  inferInstanceAs (Decidable (_ ∧ _))

/-- The splices with those in front that take no byte. -/
def pointsFirst (adds : List Splice) : List Splice :=
  (adds.filter fun s => s.span.IsPoint) ++ adds.filter fun s => ¬ s.span.IsPoint

variable {source : Text} {adds adds' : List Splice}

theorem pointsFirst_perm (adds : List Splice) : (pointsFirst adds).Perm adds := by
  have hperm := List.filter_append_perm (fun s : Splice => decide s.span.IsPoint) adds
  simpa only [pointsFirst, decide_not] using hperm

/-- Points that come first are precluded by nothing. -/
theorem pairwise_pointsFirst (adds : List Splice) :
    (pointsFirst adds).Pairwise fun a b => ¬ Precludes a b := by
  have hfront : ∀ a ∈ adds.filter fun s => decide s.span.IsPoint, a.span.IsPoint :=
    fun a ha => of_decide_eq_true (List.mem_filter.mp ha).2
  have hback : ∀ b ∈ adds.filter fun s => decide ¬ s.span.IsPoint, ¬ b.span.IsPoint :=
    fun b hb => of_decide_eq_true (List.mem_filter.mp hb).2
  refine List.pairwise_append.mpr ⟨?_, ?_, fun a ha b _ h => h.2.1 (hfront a ha)⟩
  · exact List.pairwise_of_forall_mem_list fun a ha b _ h => h.2.1 (hfront a ha)
  · exact List.pairwise_of_forall_mem_list fun a _ b hb h => hback b hb h.2.2

/-- Two splices of a list can be moved to its front. -/
theorem exists_perm_cons_cons {a b : Splice} (ha : a ∈ adds) (hb : b ∈ adds) (hab : a ≠ b) :
    ∃ rest, (a :: b :: rest).Perm adds := by
  have hb' : b ∈ adds.erase a := (List.mem_erase_of_ne hab.symm).mpr hb
  refine ⟨(adds.erase a).erase b, ?_⟩
  exact ((List.perm_cons_erase hb').symm.cons a).trans (List.perm_cons_erase ha).symm

namespace Compatible

theorem perm (h : Compatible source adds) (hperm : adds'.Perm adds) : Compatible source adds' where
  inside s hs := h.inside s (hperm.mem_iff.mp hs)
  disjoint := (hperm.pairwise_iff fun h n hn => h n hn.symm).mpr h.disjoint
  outside a ha b hb := h.outside a (hperm.mem_iff.mp ha) b (hperm.mem_iff.mp hb)

theorem apart (h : Compatible source adds) : adds.Pairwise fun a b => a.span.Apart b.span :=
  h.disjoint.imp_of_mem fun ha hb hab =>
    hab.apart (h.inside _ ha).start_le (h.inside _ hb).start_le (h.outside _ ha _ hb)
      (h.outside _ hb _ ha)

/-- Compatible splices apply when none is precluded by an earlier one. -/
theorem exists_apply_iff (h : Compatible source adds) :
    (∃ result, apply adds source = some result) ↔
      adds.Pairwise fun a b => ¬ Precludes a b := by
  rw [← Option.isSome_iff_exists, isSome_apply_iff h.inside, and_iff_right h.apart]
  constructor
  · intro hpoint
    exact hpoint.imp fun hab hprecludes => hprecludes.2.1 (hab hprecludes.1)
  · intro hnot
    refine (h.apart.and hnot).imp_of_mem fun {a b} ha hb hab hstart => ?_
    obtain ⟨hapart, hnot⟩ := hab
    by_contra hstretch
    -- the later one is a stretch too, and would share the first byte
    have hstretch' : ¬ b.span.IsPoint := fun hpoint => hnot ⟨hstart, hstretch, hpoint⟩
    have hle := (h.inside a ha).start_le
    have hle' := (h.inside b hb).start_le
    simp only [Span.IsPoint, Span.Apart] at *
    omega

/-- They apply in every order when no text is put in where a stretch starts. -/
theorem forall_perm_iff (h : Compatible source adds) :
    (∀ adds' : List Splice, adds'.Perm adds → ∃ result, apply adds' source = some result) ↔
      ∀ a ∈ adds, ∀ b ∈ adds, ¬ Precludes a b := by
  constructor
  · intro hall a ha b hb hprecludes
    have hab : a ≠ b := by
      rintro rfl
      exact hprecludes.2.1 hprecludes.2.2
    obtain ⟨rest, hperm⟩ := exists_perm_cons_cons ha hb hab
    have hpairwise := (h.perm hperm).exists_apply_iff.mp (hall _ hperm)
    exact (List.pairwise_cons.mp hpairwise).1 b List.mem_cons_self hprecludes
  · intro hnone adds' hperm
    refine (h.perm hperm).exists_apply_iff.mpr ?_
    exact List.pairwise_of_forall_mem_list fun a ha b hb =>
      hnone a (hperm.mem_iff.mp ha) b (hperm.mem_iff.mp hb)

end Compatible

/-- **When texts can be put in at points.**  Compatible splices apply, unless a text is put in where
a stretch starts that was given before.  So they apply in every order only if no text is put in
where a stretch starts; but they always do when the points are given first. -/
theorem apply_points (h : Compatible source adds) :
    ((∃ result, apply adds source = some result) ↔
      adds.Pairwise fun a b => ¬ Precludes a b) ∧
    ((∀ adds' : List Splice, adds'.Perm adds → ∃ result, apply adds' source = some result) ↔
      ∀ a ∈ adds, ∀ b ∈ adds, ¬ Precludes a b) ∧
    (∃ result, apply (pointsFirst adds) source = some result) ∧
    ∀ result, apply adds source = some result → Yields adds source result := by
  have hfirst := h.perm (pointsFirst_perm adds)
  refine ⟨h.exists_apply_iff, h.forall_perm_iff, ?_, fun result => yields_of_apply h.inside⟩
  exact hfirst.exists_apply_iff.mpr (pairwise_pointsFirst adds)

/-- Brackets around the last letter of `dashed` and a capital in its place, which comes first. -/
def bracketed : List Splice :=
  [⟨⟨5, 6⟩, "B".toList⟩, ⟨⟨5, 5⟩, "(".toList⟩, ⟨⟨6, 6⟩, ")".toList⟩]

theorem compatible_bracketed : Compatible dashed bracketed where
  inside := by decide
  disjoint := by
    have hapart : bracketed.Pairwise fun a b => a.span.Apart b.span := by
      unfold Span.Apart
      decide
    exact hapart.imp Span.Apart.disjoint
  outside := by decide

theorem apply_points_bracketed :
    Compatible dashed bracketed ∧ ¬ (∃ result, apply bracketed dashed = some result) ∧
      ∃ result, apply (pointsFirst bracketed) dashed = some result := by
  obtain ⟨hiff, _, hfirst, _⟩ := apply_points compatible_bracketed
  refine ⟨compatible_bracketed, ?_, hfirst⟩
  rw [hiff]
  decide

/-- Not all compatible splices with a point among them apply. -/
theorem not_all_points_apply :
    ¬ ∀ (source : Text) (adds : List Splice), Compatible source adds →
      (∃ s ∈ adds, s.span.IsPoint) → ∃ result, apply adds source = some result := by
  intro hall
  have happly := hall dashed bracketed compatible_bracketed
    ⟨⟨⟨5, 5⟩, "(".toList⟩, by decide, rfl⟩
  rw [compatible_bracketed.exists_apply_iff] at happly
  exact absurd happly (by decide)

end Splice
end BuildBlocks
