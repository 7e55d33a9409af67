import BuildBlocks.Proofs.Directive.Classification

/-! # The fields of a directive and the line that they are read from

What is read of a directive is cut off the front of a line part by part, and each part leaves a
rest.  Put together again, with the parentheses around search paths and the blanks between the
parts, the fields give the line back up to the last closer (`parse_lossless`).  The fields are
well formed: each holds something, none holds what would end it, and attributes come only behind
a target.
-/
namespace BuildBlocks.Directive
open Text

/-- Fields as they stand on a line. -/
structure WellFormed (d : Directive) : Prop where
  /-- The kind is the name of a type. -/
  kind : BlockType.isName d.kind = true
  /-- Search paths end at a parenthesis. -/
  searchPaths : ∀ paths, d.searchPaths = some paths → paths ≠ [] ∧ ')' ∉ paths
  /-- A target ends at a blank. -/
  target : ∀ target, d.target = some target → target ≠ [] ∧ ∀ c ∈ target, isBlank c = false
  /-- Blanks around attributes do not belong to them. -/
  attributes : ∀ attributes, d.attributes = some attributes →
    attributes ≠ [] ∧ Trimmed attributes
  /-- Attributes come behind a target. -/
  targeted : d.target = none → d.attributes = none

/-- Search paths as they stand behind the name of a type. -/
def pathsText (searchPaths : Option Text) : Text :=
  searchPaths.elim [] fun paths => '(' :: (paths ++ [')'])

variable {t rest line run paths before kind : Text} {searchPaths target : Option Text}
  {d : Directive}

/-! ## Search paths -/

/-- What is split off as search paths stands in parentheses in front of the rest. -/
theorem eq_append_of_splitSearchPaths (h : splitSearchPaths t = (searchPaths, rest)) :
    t = pathsText searchPaths ++ rest ∧
      ∀ paths, searchPaths = some paths → paths ≠ [] ∧ ')' ∉ paths := by
  have hnothing : t = pathsText none ++ t ∧
      ∀ paths, none = some paths → paths ≠ [] ∧ ')' ∉ paths :=
    ⟨rfl, fun _ hnone => by cases hnone⟩
  rw [splitSearchPaths] at h
  split at h
  · rename_i paths rest' hparen
    split at h
    · obtain ⟨rfl, rfl⟩ := Prod.mk.inj h
      obtain ⟨rfl, hpaths⟩ := parenthesized?_eq_some_iff.mp hparen
      exact ⟨by simp [pathsText], fun _ hsome => Option.some.inj hsome ▸ hpaths⟩
    · obtain ⟨rfl, rfl⟩ := Prod.mk.inj h
      exact hnothing
  · obtain ⟨rfl, rfl⟩ := Prod.mk.inj h
    exact hnothing

/-! ## Targets -/

/-- Behind the last closer of a text no other one starts. -/
theorem cutLast?_closer_eq_some_iff :
    cutLast? closer t = some (before, rest) ↔
      t = before ++ (closer ++ rest) ∧ ¬ closer <:+: rest := by
  -- no closer starts inside of another
  have hinside : closer <:+: "->".toList ++ rest ↔ closer <:+: rest := by
    simp [closer, List.infix_cons_iff, List.cons_prefix_cons]
  rw [cutLast?_eq_some_iff closer_eq_cons, hinside]

/-- A run that holds a closer at most at its start, with no closer behind it, has nothing in front
of the last closer. -/
theorem eq_nil_of_cutLast?_append {behind : Text} (hblank : ∀ c ∈ rest.head?, isBlank c = true)
    (hrun : ∀ c cs inside, cutLast? closer run ≠ some (c :: cs, inside))
    (hrest : ¬ closer <:+: rest) (hcut : cutLast? closer (run ++ rest) = some (before, behind)) :
    before = [] := by
  have hedge : ∀ c ∈ rest.head?, c ∉ closer := fun c hc =>
    not_mem_of_isBlank (by decide) (hblank c hc)
  have hsome : (cutLast? closer run).isSome = true := by
    rw [isSome_cutLast?_iff]
    by_contra hnot
    have hnone : ¬ closer <:+: run ++ rest := not_infix_append hnot hrest (.inr hedge)
    rw [← isSome_cutLast?_iff, hcut] at hnone
    exact hnone rfl
  obtain ⟨⟨u, inside⟩, hu⟩ := Option.isSome_iff_exists.mp hsome
  cases u with
  | cons c u => exact absurd hu (hrun c u inside)
  | nil =>
    obtain ⟨hsource, hinside⟩ := cutLast?_closer_eq_some_iff.mp hu
    have hlast : cutLast? closer (run ++ rest) = some ([], inside ++ rest) := by
      refine cutLast?_closer_eq_some_iff.mpr ⟨?_, not_infix_append hinside hrest (.inr hedge)⟩
      rw [hsource]
      simp only [List.nil_append, List.append_assoc]
    rw [hlast] at hcut
    exact (Prod.mk.inj (Option.some.inj hcut)).1.symm

/-- What is split off as a target stands in front of the rest.  If none is, although no blank
comes first, the last closer comes first. -/
theorem eq_append_of_splitTarget (h : splitTarget t = (target, rest)) :
    t = target.getD [] ++ rest ∧
      (∀ x, target = some x → x ≠ [] ∧ ∀ c ∈ x, isBlank c = false) ∧
      (target = none → (∀ c ∈ t.head?, isBlank c = false) → ∀ before behind,
        cutLast? closer rest = some (before, behind) → before = []) := by
  have hrun : ∀ c ∈ t.takeWhile (!isBlank ·), isBlank c = false := fun c hc => by
    simpa using List.all_eq_true.mp List.all_takeWhile c hc
  have hsplit : t.takeWhile (!isBlank ·) ++ t.dropWhile (!isBlank ·) = t :=
    List.takeWhile_append_dropWhile
  rw [splitTarget] at h
  split at h
  · -- the run goes on behind the target with a closer
    rename_i c cs inside hcut
    obtain ⟨rfl, rfl⟩ := Prod.mk.inj h
    have hsource := (cutLast?_closer_eq_some_iff.mp hcut).1
    refine ⟨?_, fun x hx => ?_, fun hnone => by cases hnone⟩
    · rw [Option.getD_some, ← List.append_assoc, ← List.append_assoc, List.append_assoc (c :: cs),
        ← hsource, hsplit]
    · obtain rfl := Option.some.inj hx
      refine ⟨List.cons_ne_nil c cs, fun d hd => hrun d ?_⟩
      rw [hsource]
      exact List.mem_append_left _ hd
  · rename_i hnot
    split at h
    · rename_i hbehind
      obtain ⟨rfl, rfl⟩ := Prod.mk.inj h
      rw [Bool.and_eq_true] at hbehind
      refine ⟨hsplit.symm, fun x hx => ?_, fun hnone => by cases hnone⟩
      obtain rfl := Option.some.inj hx
      exact ⟨by simpa using hbehind.1, hrun⟩
    · rename_i hbehind
      obtain ⟨rfl, rfl⟩ := Prod.mk.inj h
      refine ⟨rfl, fun x hx => (by cases hx), fun _ hhead before behind hcut => ?_⟩
      have hrest : ¬ closer <:+: t.dropWhile (!isBlank ·) := by
        intro hclosed
        have hempty : t.takeWhile (!isBlank ·) = [] := by
          simpa [holds_iff.mpr hclosed] using hbehind
        cases t with
        | nil => exact absurd hclosed (by decide)
        | cons c t => simp [hhead c rfl] at hempty
      rw [← hsplit] at hcut
      refine eq_nil_of_cutLast?_append (fun c hc => ?_) hnot hrest hcut
      simpa using head?_dropWhile hc

/-! ## The whole directive -/

theorem nonempty?_eq_some_iff {u : Text} : nonempty? t = some u ↔ t = u ∧ u ≠ [] := by
  rw [nonempty?]
  cases t with
  | nil => simp [eq_comm]
  | cons c t =>
    simp only [List.isEmpty_cons, Bool.false_eq_true, if_false, Option.some.injEq]
    exact ⟨fun h => ⟨h, h ▸ List.cons_ne_nil c t⟩, fun h => h.1⟩

theorem getD_nonempty? (t : Text) : (nonempty? t).getD [] = t := by
  cases t <;> rfl

/-- What follows a name is made up of the other fields, blanks between them, the last closer
and what comes behind that. -/
theorem exists_append_of_afterKind? (hkind : BlockType.isName kind = true)
    (h : afterKind? kind t = some d) :
    d.WellFormed ∧ ∃ w₁ w₂ w₃ behind, (∀ c ∈ w₁ ++ w₂ ++ w₃, isBlank c = true) ∧
      ¬ closer <:+: behind ∧
      t = pathsText d.searchPaths ++ (w₁ ++ (d.target.getD [] ++ (w₂ ++
        (d.attributes.getD [] ++ (w₃ ++ (closer ++ behind)))))) := by
  rw [afterKind?] at h
  rcases hsearch : splitSearchPaths t with ⟨searchPaths, rest⟩
  rcases hsplit : splitTarget (trimStart rest) with ⟨target, tail⟩
  simp only [hsearch, hsplit] at h
  obtain ⟨⟨attributes, behind⟩, hcut, rfl⟩ := Option.map_eq_some_iff.mp h
  obtain ⟨rfl, hpaths⟩ := eq_append_of_splitSearchPaths hsearch
  obtain ⟨hsource, htarget, hfirst⟩ := eq_append_of_splitTarget hsplit
  obtain ⟨rfl, hbehind⟩ := cutLast?_closer_eq_some_iff.mp hcut
  obtain ⟨w₂, w₃, hw₂, hw₃, htrim⟩ := exists_blanks_trim attributes
  refine ⟨⟨hkind, hpaths, htarget, fun x hx => ?_, fun hnone => ?_⟩,
    indentation rest, w₂, w₃, behind, ?_, hbehind, ?_⟩
  · obtain ⟨rfl, hne⟩ := nonempty?_eq_some_iff.mp hx
    exact ⟨hne, trimmed_trim attributes⟩
  · -- without a target the closer comes first
    obtain rfl := hfirst hnone (fun c hc => head?_dropWhile hc) _ _ hcut
    rfl
  · intro c hc
    rw [List.append_assoc, List.mem_append, List.mem_append] at hc
    rcases hc with hc | hc | hc
    · exact List.all_eq_true.mp List.all_takeWhile c hc
    · exact hw₂ c hc
    · exact hw₃ c hc
  · have hafter : attributes ++ (closer ++ behind) =
        w₂ ++ (trim attributes ++ (w₃ ++ (closer ++ behind))) := by
      conv_lhs => rw [htrim]
      simp only [List.append_assoc]
    rw [getD_nonempty?, ← hafter, ← hsource, indentation_append_trimStart]

/-- What a directive is read from is made up of its fields, the fixed parts between them, blanks,
and what comes behind the last closer. -/
theorem exists_append_of_at? (h : at? t = some d) :
    d.WellFormed ∧ ∃ opener w₀ w₁ w₂ w₃ behind, opener ∈ openers ∧
      (∀ c ∈ w₀ ++ w₁ ++ w₂ ++ w₃, isBlank c = true) ∧ ¬ closer <:+: behind ∧
      t = opener ++ (w₀ ++ ("build:".toList ++ (d.kind ++
        (pathsText d.searchPaths ++ (w₁ ++ (d.target.getD [] ++ (w₂ ++
          (d.attributes.getD [] ++ (w₃ ++ (closer ++ behind)))))))))) := by
  obtain ⟨opener, w₀, rest, hopener, hw₀, hname, _, hread, rfl⟩ := at?_eq_some_iff.mp h
  obtain ⟨hwf, w₁, w₂, w₃, behind, hblank, hbehind, rfl⟩ := exists_append_of_afterKind? hname hread
  refine ⟨hwf, opener, w₀, w₁, w₂, w₃, behind, hopener, fun c hc => ?_, hbehind, rfl⟩
  rw [List.append_assoc, List.append_assoc, List.mem_append] at hc
  exact hc.elim (hw₀ c) fun hc => hblank c (by rwa [List.append_assoc])

/-- Target and attributes stand on the line of the directive. -/
theorem infix_of_parse (h : parse line = some d) :
    d.target.getD [] <:+: line ∧ d.attributes.getD [] <:+: line := by
  obtain ⟨⟨before, d⟩, hsearch, rfl⟩ := Option.map_eq_some_iff.mp h
  obtain ⟨tail, rfl, hat, _⟩ := search_eq_some_iff.mp hsearch
  obtain ⟨_, opener, w₀, w₁, w₂, w₃, behind, _, _, _, rfl⟩ := exists_append_of_at? hat
  have hfront := List.suffix_append (before ++ (opener ++ (w₀ ++ ("build:".toList ++ (d.kind ++
    (pathsText d.searchPaths ++ w₁))))))
  simp only [List.append_assoc] at hfront
  refine ⟨List.IsInfix.trans ?_ (hfront _).isInfix, List.IsInfix.trans ?_ (hfront _).isInfix⟩
  · exact (List.prefix_append _ _).isInfix
  · exact ⟨d.target.getD [] ++ w₂, w₃ ++ (closer ++ behind), by simp only [List.append_assoc]⟩

/-- **Reading a directive loses nothing.**  The line of a directive is, from left to right: what
stands before an opener, the opener, `build:` and the kind, the search paths in parentheses, the
target, the attributes, a closer, and a rest without a closer.  What a directive lacks leaves
nothing on the line, and between the parts stand only blanks.  The fields are well formed. -/
theorem parse_lossless (h : parse line = some d) :
    d.WellFormed ∧ ∃ before opener w₀ w₁ w₂ w₃ behind, opener ∈ openers ∧
      (∀ c ∈ w₀ ++ w₁ ++ w₂ ++ w₃, isBlank c = true) ∧ ¬ closer <:+: behind ∧
      line = before ++ (opener ++ (w₀ ++ ("build:".toList ++ (d.kind ++
        (pathsText d.searchPaths ++ (w₁ ++ (d.target.getD [] ++ (w₂ ++
          (d.attributes.getD [] ++ (w₃ ++ (closer ++ behind))))))))))) := by
  obtain ⟨⟨before, d⟩, hsearch, rfl⟩ := Option.map_eq_some_iff.mp h
  obtain ⟨tail, rfl, hat, _⟩ := search_eq_some_iff.mp hsearch
  obtain ⟨hwf, opener, w₀, w₁, w₂, w₃, behind, hopener, hblank, hbehind, rfl⟩ :=
    exists_append_of_at? hat
  exact ⟨hwf, before, opener, w₀, w₁, w₂, w₃, behind, hopener, hblank, hbehind, rfl⟩

/-- A line on which a closer stands where a target is looked for. -/
def crowded : Text :=
  "<p><!--build:js() (x)--> --> defer --> </p>".toList

/-- Of `crowded` the empty parentheses are the target, and a closer is among the attributes. -/
theorem parse_lossless_crowded :
    let d : Directive :=
      ⟨"js".toList, none, some "()".toList, some "(x)--> --> defer".toList⟩
    parse crowded = some d ∧ d.WellFormed ∧
      ∃ before opener w₀ w₁ w₂ w₃ behind, opener ∈ openers ∧
        (∀ c ∈ w₀ ++ w₁ ++ w₂ ++ w₃, isBlank c = true) ∧ ¬ closer <:+: behind ∧
        crowded = before ++ (opener ++ (w₀ ++ ("build:".toList ++ (d.kind ++
          (pathsText d.searchPaths ++ (w₁ ++ (d.target.getD [] ++ (w₂ ++
            (d.attributes.getD [] ++ (w₃ ++ (closer ++ behind))))))))))) := by
  intro d
  have hparse : parse crowded = some d := by decide
  exact ⟨hparse, parse_lossless hparse⟩

end BuildBlocks.Directive
