import BuildBlocks.Splice

/-! # What splicing does to a text

A source that is spliced falls into stretches that are kept and stretches that a splice
takes.  A `Cut` is one of the latter with the stretch kept in front of it; `Placed` says that
the spans of the splices are where the stretches stand.  Splicing then changes nothing but
the stretches taken (`apply_cuts`).
-/
namespace BuildBlocks
open Text

namespace Text

@[simp] theorem splitAtByte?_byteLength_append (t u : Text) :
    splitAtByte? (byteLength t) (t ++ u) = some (t, u) :=
  splitAtByte?_eq_some_iff.mpr ⟨rfl, rfl⟩

/-- The bytes after `t`, as many as `u` has, are those of `u`. -/
theorem slice?_append (t u v : Text) :
    slice? (t ++ u ++ v) ⟨byteLength t, byteLength t + byteLength u⟩ = some u := by
  rw [slice?, if_pos (Nat.le_add_right _ _), List.append_assoc, splitAtByte?_byteLength_append,
    Option.bind_some, Nat.add_sub_cancel_left]
  show (splitAtByte? (byteLength u) (u ++ v)).map Prod.fst = some u
  rw [splitAtByte?_byteLength_append]
  rfl

end Text

/-- A stretch of a source that a splice takes, with the stretch that is kept in front of it. -/
structure Cut where
  /-- The stretch that is kept. -/
  gap : Text
  /-- The stretch that the splice takes. -/
  extent : Text
  splice : Splice
  deriving DecidableEq, Repr

namespace Cut

/-- The stretches of cuts as they stand in the source. -/
def sources (cuts : List Cut) : Text :=
  cuts.flatMap fun c => c.gap ++ c.extent

/-- The stretches of cuts after splicing. -/
def results (cuts : List Cut) : Text :=
  cuts.flatMap fun c => c.gap ++ c.splice.replacement

/-- The splices of cuts, the first of which starts at byte `cursor` of the source, span the
stretches that they take. -/
def Placed : Nat → List Cut → Prop
  | _, [] => True
  | cursor, c :: rest =>
    c.splice.span = ⟨cursor + byteLength c.gap, cursor + byteLength c.gap + byteLength c.extent⟩ ∧
      Placed c.splice.span.stop rest

@[simp] theorem sources_nil : sources [] = [] := rfl

@[simp] theorem sources_cons (c : Cut) (cuts : List Cut) :
    sources (c :: cuts) = c.gap ++ c.extent ++ sources cuts := rfl

@[simp] theorem results_nil : results [] = [] := rfl

@[simp] theorem results_cons (c : Cut) (cuts : List Cut) :
    results (c :: cuts) = c.gap ++ c.splice.replacement ++ results cuts := rfl

/-- Past its first cut a source goes on with the others. -/
theorem append_sources_cons (before tail : Text) (c : Cut) (cuts : List Cut) :
    before ++ sources (c :: cuts) ++ tail =
      before ++ c.gap ++ c.extent ++ sources cuts ++ tail := by
  simp only [sources_cons, List.append_assoc]

/-- Splices that are placed start one after the other. -/
theorem Placed.pairwise {cursor : Nat} {cuts : List Cut} (h : Placed cursor cuts) :
    (∀ c ∈ cuts, cursor ≤ c.splice.span.start) ∧
      (cuts.map splice).Pairwise fun a b => Splice.precedes a b = true := by
  induction cuts generalizing cursor with
  | nil => exact ⟨fun c hc => absurd hc List.not_mem_nil, List.Pairwise.nil⟩
  | cons c rest ih =>
    obtain ⟨hspan, hrest⟩ := h
    obtain ⟨hstart, hpair⟩ := ih hrest
    have hfirst : cursor ≤ c.splice.span.start := by
      rw [hspan]
      exact Nat.le_add_right _ _
    have hstop : c.splice.span.start ≤ c.splice.span.stop := by
      rw [hspan]
      exact Nat.le_add_right _ _
    constructor
    · intro d hd
      rcases List.mem_cons.mp hd with rfl | hd
      · exact hfirst
      · exact Nat.le_trans (Nat.le_trans hfirst hstop) (hstart d hd)
    · refine List.pairwise_cons.mpr ⟨fun s hs => ?_, hpair⟩
      obtain ⟨d, hd, rfl⟩ := List.mem_map.mp hs
      exact decide_eq_true (Nat.le_trans hstop (hstart d hd))

/-- The span of a splice that is placed takes the stretch of its cut. -/
theorem Placed.slice? {cuts : List Cut} :
    ∀ before tail : Text, Placed (byteLength before) cuts → ∀ c ∈ cuts,
      Text.slice? (before ++ sources cuts ++ tail) c.splice.span = some c.extent := by
  induction cuts with
  | nil => exact fun before tail _ c hc => absurd hc List.not_mem_nil
  | cons c rest ih =>
    intro before tail h d hd
    obtain ⟨hspan, hrest⟩ := h
    rw [append_sources_cons]
    rcases List.mem_cons.mp hd with rfl | hd
    · rw [hspan, List.append_assoc _ _ tail, ← byteLength_append]
      exact slice?_append _ _ _
    · refine ih _ tail ?_ d hd
      rwa [hspan, ← byteLength_append, ← byteLength_append] at hrest

/-- The walk over splices that are placed keeps the gaps and puts in the replacements. -/
theorem weave_cuts {cuts : List Cut} :
    ∀ before tail : Text, Placed (byteLength before) cuts →
      Splice.weave (before ++ sources cuts ++ tail) (byteLength before) (cuts.map splice) =
        some (results cuts ++ tail) := by
  induction cuts with
  | nil =>
    intro before tail _
    simp [Splice.weave]
  | cons c rest ih =>
    intro before tail h
    obtain ⟨hspan, hrest⟩ := h
    have hstop : c.splice.span.stop = byteLength (before ++ c.gap ++ c.extent) := by
      rw [hspan, byteLength_append, byteLength_append]
    have hgap : slice? (before ++ c.gap ++ c.extent ++ sources rest ++ tail)
        ⟨byteLength before, c.splice.span.start⟩ = some c.gap := by
      rw [hspan, List.append_assoc _ c.extent, List.append_assoc _ _ tail]
      exact slice?_append _ _ _
    rw [hstop] at hrest
    rw [List.map_cons, Splice.weave, append_sources_cons, hgap, Option.bind_some, hstop, ih _ _ hrest]
    simp only [Option.map_some, results_cons, List.append_assoc]

/-- **Splicing keeps the gaps between the spans and replaces the spans.** -/
theorem apply_cuts {cuts : List Cut} (tail : Text) (h : Placed 0 cuts) :
    Splice.apply (cuts.map splice) (sources cuts ++ tail) = some (results cuts ++ tail) := by
  rw [Splice.apply, List.mergeSort_of_pairwise h.pairwise.2]
  exact weave_cuts [] tail h

end Cut
end BuildBlocks
