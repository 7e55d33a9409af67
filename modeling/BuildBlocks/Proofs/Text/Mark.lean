import BuildBlocks.Proofs.Text.Search
import Mathlib.Data.List.Infix

/-! # Texts in which a mark stands

A mark stands in a text when it is an infix of it.  Both ways of cutting a text at a mark find
it exactly then (`holds_iff`, `isSome_cutLast?_iff`).  Texts put together hold no mark that none
of them holds, as long as a character that is not of the mark stands where they meet
(`not_infix_append`).
-/
namespace BuildBlocks.Text
variable {mark t u v : Text}

theorem isSome_after?_iff : (after? mark t).isSome = true ↔ mark <+: t := by
  rw [Option.isSome_iff_exists]
  exact exists_congr fun rest => after?_eq_some_iff.trans eq_comm

/-- A text starts as it did when it goes on with a character that is not of the mark. -/
theorem prefix_append_cons_iff {c : Char} (hc : c ∉ mark) : mark <+: t ++ c :: u ↔ mark <+: t := by
  refine ⟨fun h => ?_, fun h => h.trans (List.prefix_append t _)⟩
  rcases List.prefix_or_prefix_of_prefix h (List.prefix_append t _) with hstart | ⟨rest, rfl⟩
  · exact hstart
  · rw [List.prefix_append_right_inj] at h
    cases rest with
    | nil => rw [List.append_nil]
    | cons d rest =>
      rw [List.cons_prefix_cons] at h
      rw [h.1] at hc
      exact absurd (List.mem_append_right t List.mem_cons_self) hc

/-- A search succeeds when something can be read somewhere. -/
theorem isSome_search_iff {α : Type} {read : Text → Option α} :
    (search read t).isSome = true ↔ ∃ u v, u ++ v = t ∧ (read v).isSome = true := by
  rw [← not_iff_not, Option.not_isSome_iff_eq_none, search_eq_none_iff]
  simp

theorem holds_iff : holds mark t = true ↔ mark <:+: t := by
  rw [holds, cut?, isSome_search_iff]
  simp only [isSome_after?_iff]
  constructor
  · rintro ⟨u, v, rfl, hstart⟩
    exact hstart.isInfix.trans (List.suffix_append u v).isInfix
  · rintro ⟨u, v, rfl⟩
    exact ⟨u, mark ++ v, (List.append_assoc ..).symm, List.prefix_append mark v⟩

theorem isSome_cutLast?_iff : (cutLast? mark t).isSome = true ↔ mark <:+: t := by
  induction t with
  | nil => rw [cutLast?, Option.isSome_map, isSome_after?_iff, List.prefix_nil, List.infix_nil]
  | cons c t ih =>
    rw [List.infix_cons_iff, ← ih, cutLast?]
    cases cutLast? mark t with
    | some cut => exact iff_of_true rfl (.inr rfl)
    | none => rw [Option.isSome_map, isSome_after?_iff, Option.isSome_none, or_iff_left
        Bool.false_ne_true]

/-- The last occurrence of a mark is the one inside of which no other starts, nor behind it. -/
theorem cutLast?_eq_some_iff {m : Char} {ms before rest : Text} (hmark : mark = m :: ms) :
    cutLast? mark t = some (before, rest) ↔
      t = before ++ (mark ++ rest) ∧ ¬ mark <:+: ms ++ rest := by
  induction t generalizing before with
  | nil =>
    rw [cutLast?, hmark, after?, Option.map_none]
    simp
  | cons c t ih =>
    rw [cutLast?]
    cases before with
    | nil =>
      rw [List.nil_append]
      constructor
      · intro h
        cases hlast : cutLast? mark t with
        | some cut => simp [hlast] at h
        | none =>
          simp only [hlast, Option.map_eq_some_iff, Prod.mk.injEq, true_and,
            exists_eq_right, after?_eq_some_iff] at h
          rw [← Option.not_isSome_iff_eq_none, isSome_cutLast?_iff] at hlast
          rw [hmark, List.cons_append] at h
          rw [(List.cons.inj h).2] at hlast
          exact ⟨by rw [h, hmark, List.cons_append], hlast⟩
      · rintro ⟨hsource, hlater⟩
        have ht : t = ms ++ rest := by
          rw [hmark, List.cons_append] at hsource
          exact (List.cons.inj hsource).2
        have hlast : cutLast? mark t = none := by
          rwa [← Option.not_isSome_iff_eq_none, isSome_cutLast?_iff, ht]
        rw [hlast, hsource]
        simp
    | cons b before =>
      rw [List.cons_append, List.cons.injEq, and_assoc]
      constructor
      · intro h
        cases hlast : cutLast? mark t with
        | none => simp [hlast] at h
        | some cut =>
          obtain ⟨u, v⟩ := cut
          simp only [hlast, Option.some.injEq, Prod.mk.injEq, List.cons.injEq] at h
          obtain ⟨⟨rfl, rfl⟩, rfl⟩ := h
          exact ⟨rfl, ih.mp hlast⟩
      · rintro ⟨rfl, h⟩
        rw [ih.mpr h]

/-- No mark stands in front of the first one. -/
theorem not_infix_of_cut? {before rest : Text} (hmark : mark ≠ [])
    (h : cut? mark t = some (before, rest)) : ¬ mark <:+: before := by
  obtain ⟨tail, _, _, hleft⟩ := search_eq_some_iff.mp h
  rintro ⟨u, v, hsplit⟩
  have hnone := hleft u (mark ++ v) (by rw [← hsplit, List.append_assoc]) (by simp [hmark])
  rw [List.append_assoc, after?_append] at hnone
  cases hnone

/-- A mark that starts with a character which it does not hold again is found where it stands,
behind a text without it. -/
theorem cut?_append {m : Char} {ms : Text} (hmark : mark = m :: ms) (hm : m ∉ ms)
    (hu : ¬ mark <:+: u) (v : Text) : cut? mark (u ++ (mark ++ v)) = some (u, v) := by
  refine search_eq_some_iff.mpr ⟨mark ++ v, rfl, after?_append _ v, fun x y hxy hy => ?_⟩
  rw [← Option.not_isSome_iff_eq_none, isSome_after?_iff]
  rintro ⟨rest, hrest⟩
  rcases List.append_eq_append_iff.mp hrest with ⟨inside, hyinside, _⟩ | ⟨left, hsplit, hleft⟩
  · -- the mark would stand in `u`
    refine hu ⟨x, inside, ?_⟩
    rw [List.append_assoc, ← hyinside, hxy]
  · -- the mark would reach into the one that follows
    obtain ⟨d, y, rfl⟩ := List.exists_cons_of_ne_nil hy
    rw [hmark, List.cons_append] at hleft
    cases left with
    | nil =>
      refine hu ⟨x, [], ?_⟩
      rw [List.append_nil, ← hxy, hsplit, List.append_nil]
    | cons e left =>
      obtain ⟨rfl, _⟩ := List.cons.inj hleft
      rw [hmark] at hsplit
      obtain ⟨_, hms⟩ := List.cons.inj hsplit
      rw [hms] at hm
      exact hm (List.mem_append_right _ List.mem_cons_self)

/-- The first occurrence of a character is the one with none in front of it. -/
theorem cut?_singleton_eq_some_iff {c : Char} {before rest : Text} :
    cut? [c] t = some (before, rest) ↔ t = before ++ c :: rest ∧ c ∉ before := by
  rw [← List.singleton_infix_iff]
  constructor
  · exact fun h => ⟨eq_append_of_cut? h, not_infix_of_cut? (List.cons_ne_nil c []) h⟩
  · rintro ⟨rfl, hbefore⟩
    exact cut?_append rfl List.not_mem_nil hbefore rest

theorem cut?_singleton_eq_none_iff {c : Char} : cut? [c] t = none ↔ c ∉ t := by
  rw [← List.singleton_infix_iff, ← holds_iff, holds, Option.not_isSome_iff_eq_none]

/-- Where a character stands in a text, its first occurrence is this one or one further left. -/
theorem of_cut?_singleton_append {c : Char} {before rest : Text}
    (h : cut? [c] (t ++ c :: u) = some (before, rest)) :
    (t = before ∧ rest = u) ∨ ∃ gap, t = before ++ c :: gap ∧ rest = gap ++ c :: u := by
  by_cases hc : c ∈ t
  · obtain ⟨x, gap, rfl, hx⟩ := List.eq_append_cons_of_mem hc
    rw [List.append_assoc, List.cons_append, cut?_singleton_eq_some_iff.mpr ⟨rfl, hx⟩] at h
    obtain ⟨rfl, rfl⟩ := Prod.mk.inj (Option.some.inj h)
    exact .inr ⟨gap, rfl, rfl⟩
  · rw [cut?_singleton_eq_some_iff.mpr ⟨rfl, hc⟩] at h
    obtain ⟨rfl, rfl⟩ := Prod.mk.inj (Option.some.inj h)
    exact .inl ⟨rfl, rfl⟩

/-- Dropping characters of a class keeps every mark that starts with another character. -/
theorem infix_dropWhile_iff {p : Char → Bool} {m : Char} {ms : Text}
    (hmark : mark = m :: ms) (hm : p m = false) : mark <:+: t.dropWhile p ↔ mark <:+: t := by
  refine ⟨fun h => h.trans (List.dropWhile_suffix p).isInfix, fun h => ?_⟩
  induction t with
  | nil => exact h
  | cons c t ih =>
    by_cases hc : p c = true
    · rw [List.dropWhile_cons_of_pos hc]
      rcases List.infix_cons_iff.mp h with hstart | h
      · rw [hmark, List.cons_prefix_cons] at hstart
        rw [← hstart.1, hm] at hc
        cases hc
      · exact ih h
    · rwa [List.dropWhile_cons_of_neg hc]

/-! ## Texts put together -/

theorem isSome_search_cons {α : Type} {read : Text → Option α} {c : Char} :
    (search read (c :: t)).isSome = ((read (c :: t)).isSome || (search read t).isSome) := by
  rw [search]
  cases read (c :: t) with
  | some a => rfl
  | none => simp

/-- What is read in two texts put together starts in the first or stands in the second. -/
theorem isSome_search_append {α : Type} {read : Text → Option α} :
    (search read (t ++ u)).isSome = true ↔
      (∃ x y, x ++ y = t ∧ y ≠ [] ∧ (read (y ++ u)).isSome = true) ∨
        (search read u).isSome = true := by
  induction t with
  | nil => simp
  | cons c t ih =>
    rw [List.cons_append, isSome_search_cons, Bool.or_eq_true, ih, ← or_assoc]
    refine or_congr_left ⟨?_, ?_⟩
    · rintro (h | ⟨x, y, rfl, hy, h⟩)
      · exact ⟨[], c :: t, rfl, List.cons_ne_nil _ _, h⟩
      · exact ⟨c :: x, y, rfl, hy, h⟩
    · rintro ⟨x, y, hxy, hy, h⟩
      cases x with
      | nil =>
        rw [List.nil_append] at hxy
        rw [hxy] at h
        exact .inl h
      | cons d x => exact .inr ⟨x, y, (List.cons.inj hxy).2, hy, h⟩

/-- A mark that neither text holds stands in both together only if it takes in the last
character of the one and the first of the other. -/
theorem not_infix_append (hu : ¬ mark <:+: u) (hv : ¬ mark <:+: v)
    (hedge : (∀ c ∈ u.getLast?, c ∉ mark) ∨ ∀ c ∈ v.head?, c ∉ mark) : ¬ mark <:+: u ++ v := by
  rw [List.infix_append_iff]
  rintro (h | h | ⟨left, right, rfl, hleft, hright⟩)
  · exact hu h
  · exact hv h
  · cases hlast : left.getLast? with
    | none =>
      rw [List.getLast?_eq_none_iff] at hlast
      rw [hlast] at hv
      exact hv hright.isInfix
    | some c =>
      cases hhead : right.head? with
      | none =>
        rw [List.head?_eq_none_iff] at hhead
        rw [hhead, List.append_nil] at hu
        exact hu hleft.isInfix
      | some d =>
        rcases hedge with hedge | hedge
        · refine hedge c ?_ (List.mem_append_left _ (List.mem_of_getLast? hlast))
          obtain ⟨x, rfl⟩ := hleft
          rw [List.getLast?_append, hlast]
          rfl
        · refine hedge d ?_ (List.mem_append_right _ (List.mem_of_head? hhead))
          obtain ⟨x, rfl⟩ := hright
          rw [List.head?_append, hhead]
          rfl

/-- A character that is not of the mark keeps two texts apart. -/
theorem not_infix_append_cons {c : Char} (hc : c ∉ mark) (hu : ¬ mark <:+: u)
    (hv : ¬ mark <:+: v) : ¬ mark <:+: u ++ c :: v := by
  refine not_infix_append hu (fun h => ?_) (.inr fun d hd => ?_)
  · rcases List.infix_cons_iff.mp h with hstart | h
    · cases mark with
      | nil => exact hu (List.nil_infix)
      | cons m ms =>
        rw [List.cons_prefix_cons] at hstart
        rw [hstart.1] at hc
        exact hc List.mem_cons_self
    · exact hv h
  · rw [← Option.mem_some.mp hd]
    exact hc

/-- A text that lacks a character of the mark does not hold it. -/
theorem not_infix_of_not_mem {c : Char} (hc : c ∈ mark) (ht : c ∉ t) : ¬ mark <:+: t :=
  fun h => ht (h.subset hc)

end BuildBlocks.Text
