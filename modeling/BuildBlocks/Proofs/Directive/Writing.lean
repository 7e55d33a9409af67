import BuildBlocks.Proofs.Directive.Fields

/-! # Directives that are written out

A directive is written with an opener, its fields one space apart, and a closer (`written`).
Every part of the reader stops where the part that was written ends, because of the parenthesis,
the space or the closer that follows it, and not because of what the later parts hold.  So
reading gives the same directive back (`parse_written`), even when search paths or attributes
hold closers or look like directives themselves.
-/
namespace BuildBlocks.Directive
open Text

/-- A field behind a space. -/
def spaced (field : Option Text) : Text :=
  field.elim [] (' ' :: ·)

/-- What is written behind the kind of a directive. -/
def fieldsText (d : Directive) : Text :=
  pathsText d.searchPaths ++ (spaced d.target ++ (spaced d.attributes ++ ' ' :: closer))

/-- A directive on a line of its own. -/
def written (d : Directive) (indent opener blanks : Text) : Text :=
  indent ++ (opener ++ (blanks ++ ("build:".toList ++ (d.kind ++ d.fieldsText))))

variable {t x tail indent opener blanks : Text} {searchPaths attributes : Option Text}
  {d : Directive}

/-! ## Reading the parts back -/

/-- Parentheses end search paths, if a closer follows. -/
theorem splitSearchPaths_append
    (hpaths : ∀ paths, searchPaths = some paths → paths ≠ [] ∧ ')' ∉ paths)
    (hclosed : closer <:+: t) (hhead : t.head? ≠ some '(') :
    splitSearchPaths (pathsText searchPaths ++ t) = (searchPaths, t) := by
  rw [splitSearchPaths]
  cases searchPaths with
  | none =>
    have hnone : parenthesized? (pathsText none ++ t) = none := by
      rw [Option.eq_none_iff_forall_ne_some]
      rintro ⟨paths, rest⟩ hparen
      obtain ⟨hsource, _⟩ := parenthesized?_eq_some_iff.mp hparen
      have hstart : t = '(' :: (paths ++ ')' :: rest) := hsource
      rw [hstart] at hhead
      exact hhead rfl
    rw [hnone]
    rfl
  | some paths =>
    have hparen : parenthesized? (pathsText (some paths) ++ t) = some (paths, t) :=
      parenthesized?_eq_some_iff.mpr ⟨by simp [pathsText], hpaths paths rfl⟩
    rw [hparen]
    exact if_pos (holds_iff.mpr hclosed)

/-- A blank ends a target, if a closer follows and none is in it. -/
theorem splitTarget_append (hne : x ≠ []) (hx : ∀ c ∈ x, isBlank c = false)
    (hfree : ¬ closer <:+: x) (hclosed : closer <:+: tail) :
    splitTarget (x ++ ' ' :: tail) = (some x, ' ' :: tail) := by
  obtain ⟨htake, hdrop⟩ :=
    takeWhile_append_cons (p := (!isBlank ·)) (fun c hc => by rw [hx c hc]; rfl)
      (show (!isBlank ' ') = false by decide) tail
  have hcut : cutLast? closer x = none := by
    rwa [← Option.not_isSome_iff_eq_none, isSome_cutLast?_iff]
  have hholds : holds closer (' ' :: tail) = true :=
    holds_iff.mpr (List.infix_cons hclosed)
  rw [splitTarget, htake, hdrop, hcut]
  simp [hne, hholds]

/-- The attributes are what stands in front of the last closer. -/
theorem cutLast?_spaced (attributes : Option Text) :
    cutLast? closer (spaced attributes ++ ' ' :: closer) = some (spaced attributes ++ [' '], []) := by
  refine cutLast?_closer_eq_some_iff.mpr ⟨?_, by decide⟩
  simp

theorem nonempty?_trim_spaced
    (h : ∀ x, attributes = some x → x ≠ [] ∧ Trimmed x) :
    nonempty? (trim (spaced attributes ++ [' '])) = attributes := by
  have hspace : ∀ c ∈ [' '], isBlank c = true := List.forall_mem_singleton.mpr (by decide)
  cases attributes with
  | none => decide
  | some x =>
    obtain ⟨hne, htrimmed⟩ := h x rfl
    have htrim : trim (spaced (some x) ++ [' ']) = x :=
      show trim ([' '] ++ (x ++ [' '])) = x from trim_blanks_append htrimmed hspace hspace
    exact nonempty?_eq_some_iff.mpr ⟨htrim, hne⟩

/-! ## Reading a directive back -/

theorem infix_closer_spaced (field : Option Text) : closer <:+: spaced field ++ ' ' :: closer :=
  ⟨spaced field ++ [' '], [], by simp⟩

theorem afterKind?_fieldsText (h : d.WellFormed)
    (hfree : ∀ x, d.target = some x → ¬ closer <:+: x) :
    afterKind? d.kind d.fieldsText = some d := by
  obtain ⟨kind, searchPaths, target, attributes⟩ := d
  have hclosed : closer <:+: spaced target ++ (spaced attributes ++ ' ' :: closer) :=
    (infix_closer_spaced attributes).trans (List.suffix_append _ _).isInfix
  have hhead : (spaced target ++ (spaced attributes ++ ' ' :: closer)).head? ≠ some '(' := by
    cases target <;> cases attributes <;> simp [spaced]
  rw [fieldsText, afterKind?, splitSearchPaths_append h.searchPaths hclosed hhead]
  cases target with
  | none =>
    -- there are no attributes either, and the closer follows at once
    obtain rfl : attributes = none := h.targeted rfl
    have hsplit : splitTarget (trimStart (spaced none ++ (spaced none ++ ' ' :: closer))) =
        (none, closer) := by decide
    have hcut : cutLast? closer closer = some ([], []) := by decide
    simp only [hsplit, hcut]
    rfl
  | some x =>
    obtain ⟨hne, hx⟩ := h.target x rfl
    have htrim : trimStart (spaced (some x) ++ (spaced attributes ++ ' ' :: closer)) =
        x ++ (spaced attributes ++ ' ' :: closer) := by
      cases x with
      | nil => exact absurd rfl hne
      | cons c x =>
        have hspace : ∀ c ∈ [' '], isBlank c = true := List.forall_mem_singleton.mpr (by decide)
        exact (takeWhile_append_cons hspace (hx c List.mem_cons_self) _).2
    have hsplit : splitTarget (x ++ (spaced attributes ++ ' ' :: closer)) =
        (some x, spaced attributes ++ ' ' :: closer) := by
      cases attributes with
      | none => exact splitTarget_append hne hx (hfree x rfl) (List.infix_refl closer)
      | some y =>
        have hlater : closer <:+: y ++ ' ' :: closer := ⟨y ++ [' '], [], by simp⟩
        exact splitTarget_append hne hx (hfree x rfl) hlater
    simp only [htrim, hsplit, cutLast?_spaced, Option.map_some, nonempty?_trim_spaced h.attributes]

/-- No directive starts with a blank. -/
theorem at?_cons_of_isBlank {c : Char} (hc : isBlank c = true) (t : Text) : at? (c :: t) = none := by
  rw [Option.eq_none_iff_forall_ne_some]
  intro d hd
  obtain ⟨opener, _, _, hopener, _, _, _, _, hsource⟩ := at?_eq_some_iff.mp hd
  have hopeners : openers.all (fun o => o.all (!isBlank ·)) = true := by decide
  cases opener with
  | nil => exact absurd hopener (by decide)
  | cons e opener =>
    obtain ⟨rfl, _⟩ := List.cons.inj hsource
    exact not_mem_of_isBlank (List.all_eq_true.mp hopeners _ hopener) hc List.mem_cons_self

/-- **A directive that is written out is read back.**  Whatever its fields hold, as long as they
are well formed and no closer stands in the target, the line is read as the same directive: with
either opener, any blanks in front of it, and any blanks between it and `build:`. -/
theorem parse_written (h : d.WellFormed) (hfree : ∀ x, d.target = some x → ¬ closer <:+: x)
    (hopener : opener ∈ openers) (hindent : ∀ c ∈ indent, isBlank c = true)
    (hblanks : ∀ c ∈ blanks, isBlank c = true) : parse (d.written indent opener blanks) = some d := by
  have hat : at? (opener ++ (blanks ++ ("build:".toList ++ (d.kind ++ d.fieldsText)))) = some d := by
    refine at?_eq_some_iff.mpr ⟨opener, blanks, d.fieldsText, hopener, hblanks, h.kind, ?_,
      afterKind?_fieldsText h hfree, rfl⟩
    -- the kind is followed by a parenthesis or a space
    rw [fieldsText]
    cases d.searchPaths <;> cases d.target <;> cases d.attributes <;>
      simp [pathsText, spaced, BlockType.isNameCharacter]
  have hsearch : search at? (d.written indent opener blanks) = some (indent, d) := by
    refine search_eq_some_iff.mpr ⟨_, rfl, hat, fun u v huv hv => ?_⟩
    cases v with
    | nil => exact absurd rfl hv
    | cons c v =>
      refine at?_cons_of_isBlank (hindent c ?_) _
      rw [← huv]
      exact List.mem_append_right u List.mem_cons_self
  rw [parse, hsearch]
  rfl

/-- A directive whose search paths and attributes look like directives. -/
def nested : Directive where
  kind := "js".toList
  searchPaths := some "{a,b} --> <!-- build:css x -->".toList
  target := some "(out).js".toList
  attributes := some "--> //- build:js y -->".toList

theorem wellFormed_nested : nested.WellFormed where
  kind := by decide
  searchPaths := by rintro _ ⟨⟩; decide
  target := by
    rintro _ ⟨⟩
    refine ⟨by decide, fun c hc => Bool.eq_false_iff.mpr fun hblank => ?_⟩
    exact not_mem_of_isBlank (by decide) hblank hc
  attributes := by
    rintro _ ⟨⟩
    refine ⟨by decide, ?_, ?_⟩ <;> rintro _ ⟨⟩ <;> decide
  targeted := by rintro ⟨⟩

/-- The directives that `nested` seems to hold are not read. -/
theorem parse_written_nested :
    nested.WellFormed ∧
      parse (nested.written "\t ".toList "//-".toList "\n".toList) = some nested := by
  refine ⟨wellFormed_nested, parse_written wellFormed_nested ?_ ?_ ?_ ?_⟩
  · rintro _ ⟨⟩
    decide
  · decide
  · exact List.all_eq_true.mp (by decide)
  · exact List.all_eq_true.mp (by decide)

end BuildBlocks.Directive
