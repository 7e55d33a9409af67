import BuildBlocks.Proofs.Comment.Locality

/-! # How comments divide a text

What a part of a text has to be is said by the text behind it alone (`Part.Stands`): a stretch
without an opener, the opener of a comment that is kept, a comment up to its first closer, or all
that is left behind an opener to which no closer belongs.  Behind an opener that is kept the text is
divided on, so that comments nested there are parts of their own.  For each text one list of parts
meets this and no other (`Divides.eq_parts`), and it is the one that the reader of comments goes
through (`divides_parts`).  So removing comments leaves the parts that are not removed, and nothing
else is lost or moved (`strip_divides`).
-/
namespace BuildBlocks
open Text

namespace Text

theorem cut?_eq_none_iff {mark t : Text} : cut? mark t = none ↔ ¬ mark <:+: t := by
  rw [← holds_iff, holds, Option.not_isSome_iff_eq_none]

end Text

namespace Comment

namespace Part

/-- Whether the part is a stretch without an opener. -/
def isPlain : Part → Bool
  | plain _ => true
  | _ => false

/-- Whether the part is a comment that is removed. -/
def isRemoved : Part → Bool
  | removed _ => true
  | _ => false

/-- The part is what the parts behind it demand.  Stretches, some of them empty, take turns with
parts of the other kinds, and only a stretch or an opener without a closer comes last. -/
inductive Stands : Part → List Part → Prop
  | last {t : Text} (hfree : ¬ opener <:+: t) : Stands (plain t) []
  | plain {t : Text} {p : Part} {later : List Part} (hfree : ¬ opener <:+: t)
      (hnext : p.isPlain = false) : Stands (plain t) (p :: later)
  | kept {t : Text} {later : List Part}
      (hkept : isKept ((Part.plain t :: later).flatMap source) = true) :
      Stands kept (.plain t :: later)
  | removed {body t : Text} {later : List Part} (hfirst : ¬ closer <:+: body)
      (hkept : isKept (body ++ (closer ++ (Part.plain t :: later).flatMap source)) = false) :
      Stands (removed body) (.plain t :: later)
  | unclosed {body : Text} (hnone : ¬ closer <:+: body) (hkept : isKept body = false) :
      Stands (unclosed body) []

theorem remainder_eq (p : Part) : p.remainder = if p.isRemoved then [] else p.source := by
  cases p <;> rfl

/-- A part that is not a stretch starts with an opener. -/
theorem length_opener_le {p : Part} (h : p.isPlain = false) : 4 ≤ p.source.length := by
  cases p with
  | plain t => cases h
  | kept => exact Nat.le_refl _
  | removed body | unclosed body =>
    have hopener : opener.length = 4 := rfl
    simp only [source, List.length_append, hopener]
    omega

end Part

/-- The parts divide the text: they make it up from left to right, beginning with a stretch, and
each of them is what those behind it demand. -/
structure Divides (ps : List Part) (t : Text) : Prop where
  source : ps.flatMap Part.source = t
  start : ∃ u later, ps = .plain u :: later
  stands : ∀ earlier p later, ps = earlier ++ p :: later → p.Stands later

variable {t before : Text} {ps later : List Part} {p : Part}

/-! ## One round -/

theorem divides_plain (h : ¬ opener <:+: t) : Divides [.plain t] t where
  source := by simp [Part.source]
  start := ⟨t, [], rfl⟩
  stands := fun earlier p later hsplit => by
    cases earlier with
    | nil =>
      obtain ⟨rfl, rfl⟩ := List.cons.inj hsplit
      exact .last h
    | cons q earlier => exact absurd (List.cons.inj hsplit).2 (by simp)

/-- One round puts a stretch and another part in front of parts that stand as they have to. -/
theorem divides_cons_cons (hbefore : ¬ opener <:+: before) (hp : p.isPlain = false)
    (hstands : p.Stands later)
    (hlater : ∀ earlier q rest, later = earlier ++ q :: rest → q.Stands rest) :
    Divides (.plain before :: p :: later) (before ++ (p.source ++ later.flatMap Part.source)) where
  source := by simp [Part.source]
  start := ⟨before, p :: later, rfl⟩
  stands := fun earlier q rest hsplit => by
    cases earlier with
    | nil =>
      obtain ⟨rfl, rfl⟩ := List.cons.inj hsplit
      exact .plain hbefore hp
    | cons _ earlier =>
      have hbehind : p :: later = earlier ++ q :: rest := (List.cons.inj hsplit).2
      cases earlier with
      | nil =>
        obtain ⟨rfl, rfl⟩ := List.cons.inj hbehind
        exact hstands
      | cons _ earlier => exact hlater earlier q rest (List.cons.inj hbehind).2

/-- Parts that divide a text are a stretch only, or one in front of a part that is none. -/
theorem Divides.cases (h : Divides ps t) :
    (∃ u, ps = [.plain u] ∧ ¬ opener <:+: u) ∨
      ∃ u p later, ps = .plain u :: p :: later ∧ ¬ opener <:+: u ∧ p.isPlain = false ∧
        p.Stands later := by
  obtain ⟨u, later, rfl⟩ := h.start
  have hfirst : (Part.plain u).Stands later := h.stands [] _ later rfl
  cases hfirst with
  | last hfree => exact .inl ⟨u, rfl, hfree⟩
  | @plain _ p rest hfree hnext =>
    exact .inr ⟨u, p, rest, rfl, hfree, hnext, h.stands [.plain u] p rest rfl⟩

/-- After a round the parts that are left divide the text that is left. -/
theorem Divides.drop {u v : Text} (h : Divides (.plain u :: p :: .plain v :: later) t) :
    Divides (.plain v :: later) ((Part.plain v :: later).flatMap Part.source) where
  source := rfl
  start := ⟨v, later, rfl⟩
  stands := fun earlier q rest hsplit =>
    h.stands (.plain u :: p :: earlier) q rest (by rw [hsplit]; rfl)

/-- The opener of a comment that is kept stands in front of what divides the text behind it. -/
theorem Divides.stands_kept (h : Divides ps t) (hkept : isKept t = true) :
    Part.kept.Stands ps := by
  have hsource := h.source
  obtain ⟨u, later, rfl⟩ := h.start
  exact .kept (by rwa [hsource])

/-- A comment that is removed stands in front of what divides the text behind it. -/
theorem Divides.stands_removed {body : Text} (h : Divides ps t) (hfirst : ¬ closer <:+: body)
    (hkept : isKept (body ++ (closer ++ t)) = false) : (Part.removed body).Stands ps := by
  have hsource := h.source
  obtain ⟨u, later, rfl⟩ := h.start
  exact .removed hfirst (by rwa [hsource])

/-! ## All rounds -/

theorem parts_of_not_infix (h : ¬ opener <:+: t) : parts t = [.plain t] := by
  rw [parts]
  split
  · rfl
  · rename_i hcut
    rw [cut?_eq_none_iff.mpr h] at hcut
    cases hcut

/-- The reader of comments finds parts that divide the text. -/
theorem divides_parts (t : Text) : Divides (parts t) t := by
  fun_induction parts t with
  | case1 t hnone => exact divides_plain (cut?_eq_none_iff.mp hnone)
  | case2 t before body hcut hkept ih =>
    have hdivides := divides_cons_cons (not_infix_of_cut? (by decide) hcut) rfl
      (ih.stands_kept hkept) ih.stands
    rwa [ih.source, Part.source, ← eq_append_of_cut? hcut] at hdivides
  | case3 t before body hcut hkept hnone =>
    have hstands : (Part.unclosed body).Stands [] :=
      .unclosed (cut?_eq_none_iff.mp hnone) (by simpa using hkept)
    have hdivides := divides_cons_cons (not_infix_of_cut? (by decide) hcut) rfl hstands
      fun earlier q rest hsplit => by simp at hsplit
    rwa [List.flatMap_nil, List.append_nil, Part.source, ← eq_append_of_cut? hcut] at hdivides
  | case4 t before body hcut hkept inside rest hclose ih =>
    have hbody : body = inside ++ (closer ++ rest) := eq_append_of_cut? hclose
    have hstands : (Part.removed inside).Stands (parts rest) :=
      ih.stands_removed (not_infix_of_cut? (by decide) hclose) (by rw [← hbody]; simpa using hkept)
    have hdivides := divides_cons_cons (not_infix_of_cut? (by decide) hcut) rfl hstands ih.stands
    rwa [ih.source, Part.source, List.append_assoc, List.append_assoc, ← hbody,
      ← eq_append_of_cut? hcut] at hdivides

/-- No other parts divide it. -/
theorem Divides.eq_parts {ps : List Part} {t : Text} (h : Divides ps t) : ps = parts t := by
  have hsource := h.source
  rcases h.cases with ⟨u, rfl, hfree⟩ | ⟨u, p, later, rfl, hfree, hnext, hstands⟩
  · rw [← hsource, List.flatMap_singleton, Part.source, parts_of_not_infix hfree]
  · rw [← hsource, List.flatMap_cons, List.flatMap_cons, Part.source]
    -- The reader cuts at the same opener, and what `p` is decides where it goes on.
    cases hstands with
    | last | plain => cases hnext
    | kept hkept =>
      rw [Part.source, parts_eq_of_cut? (cut?_opener_append hfree _), if_pos hkept,
        ← h.drop.eq_parts]
    | @removed body v later hfirst hkept =>
      have hlater := h.drop.eq_parts
      rw [Part.source, List.append_assoc, List.append_assoc,
        parts_eq_of_cut? (cut?_opener_append hfree _), if_neg (Bool.eq_false_iff.mp hkept),
        cut?_closer_append hfirst]
      exact congrArg (fun rest => .plain u :: .removed body :: rest) hlater
    | unclosed hnone hkept =>
      rw [Part.source, List.flatMap_nil, List.append_nil,
        parts_eq_of_cut? (cut?_opener_append hfree _), if_neg (Bool.eq_false_iff.mp hkept),
        cut?_eq_none_iff.mpr hnone]
termination_by ps.length

/-- Every round takes up an opener. -/
theorem length_flatMap_source (ps : List Part) :
    4 * ps.countP (!·.isPlain) ≤ (ps.flatMap Part.source).length := by
  induction ps with
  | nil => exact Nat.le_refl 0
  | cons p ps ih =>
    rw [List.countP_cons, List.flatMap_cons, List.length_append]
    cases hp : p.isPlain with
    | true =>
      simp only [Bool.not_true, Bool.false_eq_true, if_false]
      omega
    | false =>
      have := p.length_opener_le hp
      simp only [Bool.not_false, if_true]
      omega

/-- Removing comments leaves the parts that are not removed. -/
theorem strip_eq (t : Text) :
    strip t = ((parts t).filter (!·.isRemoved)).flatMap Part.source := by
  rw [strip]
  induction parts t with
  | nil => rfl
  | cons p ps ih =>
    rw [List.flatMap_cons, ih, p.remainder_eq]
    cases hp : p.isRemoved with
    | true => simp [hp]
    | false => simp [hp]

/-- **Removing comments leaves all but the removed ones.**  Every text is divided, in one way only,
into stretches without an opener, openers of comments that are kept, removed comments up to their
first closer and, at the end, what follows an opener to which no closer belongs.  What is left when
comments are removed are the parts of the other kinds, in their order.  There are at most a quarter
as many rounds as there are characters, each of which finds an opener. -/
theorem strip_divides (t : Text) :
    ∃ ps, Divides ps t ∧ (∀ qs, Divides qs t → qs = ps) ∧
      strip t = (ps.filter (!·.isRemoved)).flatMap Part.source ∧
      4 * ps.countP (!·.isPlain) ≤ t.length := by
  have hdivides := divides_parts t
  refine ⟨parts t, hdivides, fun qs hqs => hqs.eq_parts, strip_eq t, ?_⟩
  have hlength := length_flatMap_source (parts t)
  rwa [hdivides.source] at hlength

end Comment
end BuildBlocks
