import BuildBlocks.Comment
import Mathlib.Data.List.Chain

/-! # What stands outside the comments that are removed

Every character belongs to one part of its text, so it is either left or removed when comments are
(`marked`).  A piece of which all is left stands in the text without comments behind what remains
of the text in front of it (`Outside.strip_eq`).  A comment ends with an angle bracket, so the line
feed in front of a line whose start is left is not removed (`Outside.getLast?_remains`).
-/
namespace BuildBlocks.Comment
open Text

/-- Whether the part is left when comments are removed. -/
def Part.isLeft : Part → Bool
  | removed _ => false
  | _ => true

/-- The characters of the part, each with whether it is left. -/
def Part.marked (p : Part) : List (Char × Bool) :=
  p.source.map fun c => (c, p.isLeft)

/-- The characters of a text, each with whether it is left when comments are removed. -/
def marked (t : Text) : List (Char × Bool) :=
  (parts t).flatMap Part.marked

/-- The characters that are left. -/
def left (ms : List (Char × Bool)) : Text :=
  (ms.filter Prod.snd).map Prod.fst

/-- All of the text between two others is left when comments are removed from the whole. -/
def Outside (before t after : Text) : Prop :=
  ∃ ms ns, marked (before ++ (t ++ after)) = ms ++ (t.map (fun c => (c, true)) ++ ns) ∧
    ms.map Prod.fst = before

/-- What is left of a text when another one follows it. -/
def remains (before after : Text) : Text :=
  left ((marked (before ++ after)).take before.length)

variable {before t u v after : Text}

theorem left_append (ms ns : List (Char × Bool)) : left (ms ++ ns) = left ms ++ left ns := by
  simp [left]

theorem left_map_true (t : Text) : left (t.map fun c => (c, true)) = t := by
  induction t with
  | nil => rfl
  | cons c t ih => exact congrArg (c :: ·) ih

theorem left_marked (t : Text) : left (marked t) = strip t := by
  have hpart : ∀ p : Part, left p.marked = p.remainder := by
    intro p
    cases p with
    | removed body => simp [left, Part.marked, Part.isLeft, Part.remainder]
    | _ => exact left_map_true _
  rw [marked, strip]
  induction parts t with
  | nil => rfl
  | cons p ps ih => rw [List.flatMap_cons, List.flatMap_cons, left_append, hpart, ih]

/-- Parts are marked character by character. -/
theorem map_fst_flatMap_marked (ps : List Part) :
    (ps.flatMap Part.marked).map Prod.fst = ps.flatMap Part.source := by
  rw [List.map_flatMap]
  refine List.flatMap_congr fun p _ => ?_
  simp [Part.marked, Function.comp_def]

/-- Of two neighbours only the second of which is left the first one ends a comment. -/
theorem isChain_marked (t : Text) :
    (marked t).IsChain fun m n => m.2 = false → n.2 = true → m.1 = '>' := by
  rw [marked]
  induction parts t with
  | nil => exact .nil
  | cons p ps ih =>
    rw [List.flatMap_cons, List.isChain_append]
    refine ⟨?_, ih, fun m hm n _ hremoved _ => ?_⟩
    · -- within one part either all is left or nothing
      refine (List.pairwise_map.mpr (List.pairwise_of_forall fun c d hc hd => ?_)).isChain
      rw [hc] at hd
      cases hd
    · rw [Part.marked, List.getLast?_map] at hm
      obtain ⟨c, hc, rfl⟩ := Option.map_eq_some_iff.mp hm
      cases p with
      | removed body =>
        rw [Part.source, List.getLast?_append] at hc
        exact (Option.some.inj hc).symm
      | _ => cases hremoved

/-- The marks of a text in front of an outer piece are those of what remains. -/
theorem Outside.remains_eq {ms ns : List (Char × Bool)} (hms : ms.map Prod.fst = before)
    (h : marked (before ++ after) = ms ++ ns) : remains before after = left ms := by
  have hlength : before.length = ms.length := by rw [← hms, List.length_map]
  rw [remains, h, hlength, List.take_left]

/-- The piece comes behind what remains of the text in front of it. -/
theorem Outside.strip_eq (h : Outside before t after) :
    ∃ rest, strip (before ++ (t ++ after)) = remains before (t ++ after) ++ (t ++ rest) := by
  obtain ⟨ms, ns, hmarked, hms⟩ := h
  refine ⟨left ns, ?_⟩
  rw [← left_marked, Outside.remains_eq hms hmarked, hmarked, left_append, left_append,
    left_map_true]

/-- The end of a piece is outside, and what remains in front of it ends with its start. -/
theorem Outside.of_append (h : Outside before (u ++ v) after) :
    Outside (before ++ u) v after ∧
      remains (before ++ u) (v ++ after) = remains before (u ++ (v ++ after)) ++ u := by
  obtain ⟨ms, ns, hmarked, hms⟩ := h
  rw [List.append_assoc] at hmarked
  have hsplit : marked (before ++ u ++ (v ++ after)) =
      (ms ++ u.map fun c => (c, true)) ++ ((v.map fun c => (c, true)) ++ ns) := by
    rw [List.append_assoc, hmarked, List.map_append, List.append_assoc, List.append_assoc]
  have hfront : (ms ++ u.map fun c => (c, true)).map Prod.fst = before ++ u := by
    rw [List.map_append, hms]
    simp [Function.comp_def]
  refine ⟨⟨_, ns, hsplit, hfront⟩, ?_⟩
  rw [Outside.remains_eq hfront hsplit, Outside.remains_eq hms hmarked, left_append, left_map_true]

/-- In front of an outer piece a character is left that cannot end a comment. -/
theorem Outside.getLast?_remains {c : Char} (h : Outside before t after) (ht : t ≠ [])
    (hlast : before.getLast? = some c) (hc : c ≠ '>') :
    (remains before (t ++ after)).getLast? = some c := by
  obtain ⟨ms, ns, hmarked, hms⟩ := h
  obtain ⟨d, t, rfl⟩ := List.exists_cons_of_ne_nil ht
  rw [← hms, List.getLast?_map] at hlast
  obtain ⟨⟨_, isLeft⟩, hm, rfl⟩ := Option.map_eq_some_iff.mp hlast
  obtain ⟨ms', rfl⟩ := List.getLast?_eq_some_iff.mp hm
  have hleft : isLeft = true := by
    have hchain := isChain_marked (before ++ (d :: t ++ after))
    rw [hmarked, List.isChain_append] at hchain
    have hpair := hchain.2.2 _ hm _ rfl
    cases isLeft with
    | true => rfl
    | false => exact absurd (hpair rfl rfl) hc
  rw [Outside.remains_eq hms hmarked, hleft, left_append]
  simp [left]

/-- What stands in a part that is left is outside. -/
theorem outside_of_parts (earlier : List Part) {later : List Part} {p : Part} (u v : Text)
    (hp : p.isLeft = true) (hsource : p.source = u ++ (t ++ v))
    (hparts : parts (before ++ (t ++ after)) = earlier ++ p :: later)
    (hbefore : before = earlier.flatMap Part.source ++ u) : Outside before t after := by
  refine ⟨earlier.flatMap Part.marked ++ u.map fun c => (c, true),
    (v.map fun c => (c, true)) ++ later.flatMap Part.marked, ?_, ?_⟩
  · rw [marked, hparts, List.flatMap_append, List.flatMap_cons, Part.marked, hp, hsource]
    simp
  · rw [hbefore, List.map_append, map_fst_flatMap_marked]
    simp [Function.comp_def]

end BuildBlocks.Comment
