import BuildBlocks.Proofs.Directive.Fields

/-! # Which text of a line is the target

The target of a directive is looked for in the first run without blanks behind the type and the
search paths (`FirstRun`).  The run is cut at its last closer, when something stands in front of
it, and else is the target as a whole when a closer comes behind it (`Targeted`).  So a run that
is nothing but a closer is no target as long as no other closer follows, and with another one
behind it, it is taken as the target (`target_of_leading_closer`).
-/
namespace BuildBlocks.Directive
open Text

/-- What a directive names as its target, when the first run behind the type and the search paths
is `run` and `rest` follows it. -/
inductive Targeted (run rest : Text) : Option Text → Prop
  /-- A closer in the run ends the target; the last one does, if it does not come first. -/
  | cut {target inside : Text} (hne : target ≠ []) (hrun : run = target ++ (closer ++ inside))
      (hlast : ¬ closer <:+: inside) : Targeted run rest (some target)
  /-- A run without a closer behind its first character is the target when a closer follows. -/
  | whole (hrun : ¬ closer <:+: run.tail) (hrest : closer <:+: rest) :
      Targeted run rest (some run)
  /-- There is no target when none follows. -/
  | none (hrun : ¬ closer <:+: run.tail) (hrest : ¬ closer <:+: rest) : Targeted run rest none

/-- The directive that is spelled leftmost on the line, with its name as long as it can be. -/
structure Leading (line before opener blanks kind behind : Text) : Prop extends
    Spelled line before opener blanks kind behind where
  maximal : ∀ c ∈ behind.head?, BlockType.isNameCharacter c = false
  leftmost : ∀ before' opener' blanks' kind' behind',
    Spelled line before' opener' blanks' kind' behind' → before.length ≤ before'.length

/-- The first run without blanks behind the type of the directive, and behind its search paths if
it has any.  What follows the run is `rest`. -/
structure FirstRun (line : Text) (d : Directive) (run rest : Text) : Prop where
  placed : ∃ before opener blanks blanks', (∀ c ∈ blanks', isBlank c = true) ∧
    Leading line before opener blanks d.kind
      (pathsText d.searchPaths ++ (blanks' ++ (run ++ rest)))
  nonempty : run ≠ []
  unblank : ∀ c ∈ run, isBlank c = false
  ended : ∀ c ∈ rest.head?, isBlank c = true

variable {t line before opener blanks kind behind run rest : Text} {d : Directive}

/-! ## Where the run is found -/

theorem at?_append (hopener : opener ∈ openers) (hblanks : ∀ c ∈ blanks, isBlank c = true)
    (hname : BlockType.isName kind = true)
    (hmaximal : ∀ c ∈ behind.head?, BlockType.isNameCharacter c = false) :
    at? (opener ++ (blanks ++ ("build:".toList ++ (kind ++ behind)))) = afterKind? kind behind := by
  rw [at?, afterOpener?_eq_some_iff.mpr ⟨opener, hopener, rfl⟩, Option.bind_some,
    inComment?_append hblanks hname hmaximal]

/-- A directive is read from what stands behind the name of the leading one. -/
theorem Leading.afterKind?_eq (hl : Leading line before opener blanks d.kind behind)
    (h : parse line = some d) : afterKind? d.kind behind = some d := by
  obtain ⟨before', _, _, _, hspelled, _, hleft, hat⟩ := parse_eq_some_iff.mp h
  have hlength : before'.length = before.length :=
    Nat.le_antisymm (hleft _ _ _ _ _ hl.toSpelled) (hl.leftmost _ _ _ _ _ hspelled)
  rw [hlength, hl.line_eq, List.drop_left] at hat
  rwa [at?_append hl.opener_mem hl.blank hl.isName hl.maximal] at hat

theorem exists_leading (h : parse line = some d) :
    ∃ before opener blanks behind, Leading line before opener blanks d.kind behind := by
  obtain ⟨before, opener, blanks, behind, hspelled, hmaximal, hleft, _⟩ := parse_eq_some_iff.mp h
  exact ⟨before, opener, blanks, behind, hspelled, hmaximal, hleft⟩

/-- Of what follows a name the search paths come first, and the target is read from the rest. -/
theorem exists_of_afterKind? (h : afterKind? kind t = some d) :
    ∃ tail, t = pathsText d.searchPaths ++ tail ∧ closer <:+: tail ∧
      d.target = (splitTarget (trimStart tail)).1 := by
  rw [afterKind?] at h
  rcases hsearch : splitSearchPaths t with ⟨searchPaths, tail⟩
  rcases hsplit : splitTarget (trimStart tail) with ⟨target, tail'⟩
  simp only [hsearch, hsplit] at h
  obtain ⟨_, hcut, rfl⟩ := Option.map_eq_some_iff.mp h
  refine ⟨tail, (eq_append_of_splitSearchPaths hsearch).1, ?_, by rw [hsplit]⟩
  have hclosed : closer <:+: tail' := by
    rw [← isSome_cutLast?_iff, hcut]
    rfl
  rw [← infix_dropWhile_iff (p := isBlank) closer_eq_cons (by decide), ← infix_splitTarget_iff]
  rw [trimStart] at hsplit
  rwa [hsplit]

/-- Every directive has a first run, since a closer follows its name at the latest. -/
theorem exists_firstRun (h : parse line = some d) : ∃ run rest, FirstRun line d run rest := by
  obtain ⟨before, opener, blanks, behind, hl⟩ := exists_leading h
  obtain ⟨tail, rfl, hclosed, _⟩ := exists_of_afterKind? (hl.afterKind?_eq h)
  have hsplit : tail = indentation tail ++ ((trimStart tail).takeWhile (!isBlank ·) ++
      (trimStart tail).dropWhile (!isBlank ·)) := by
    rw [List.takeWhile_append_dropWhile, indentation_append_trimStart]
  rw [hsplit] at hl
  refine ⟨_, _, ⟨before, opener, blanks, _, List.all_eq_true.mp List.all_takeWhile, hl⟩, ?_,
    fun c hc => ?_, fun c hc => ?_⟩
  · have hstart : closer <:+: trimStart tail :=
      (infix_dropWhile_iff closer_eq_cons (by decide)).mpr hclosed
    cases htrim : trimStart tail with
    | nil =>
      rw [htrim, List.infix_nil] at hstart
      cases hstart
    | cons c cs =>
      have hc : isBlank c = false := head?_dropWhile (by rw [← trimStart, htrim]; rfl)
      rw [List.takeWhile_cons_of_pos (by simp [hc])]
      exact List.cons_ne_nil _ _
  · simpa using List.all_eq_true.mp List.all_takeWhile c hc
  · simpa using head?_dropWhile hc

/-! ## What is taken of the run -/

/-- The rule for targets is that of the reader. -/
theorem targeted_splitTarget (hne : run ≠ []) (hrun : ∀ c ∈ run, isBlank c = false)
    (hrest : ∀ c ∈ rest.head?, isBlank c = true) :
    Targeted run rest (splitTarget (run ++ rest)).1 := by
  obtain ⟨htake, hdrop⟩ := takeWhile_append_of_head? (p := (!isBlank ·))
    (fun c hc => by rw [hrun c hc]; rfl) (fun c hc => by rw [hrest c hc]; rfl)
  rw [splitTarget, htake, hdrop]
  split
  · rename_i c target inside hcut
    obtain ⟨hsource, hlast⟩ := cutLast?_closer_eq_some_iff.mp hcut
    exact .cut (List.cons_ne_nil c target) hsource hlast
  · rename_i hcut
    obtain ⟨c, cs, rfl⟩ := List.exists_cons_of_ne_nil hne
    have hfront : ¬ closer <:+: cs := by
      rw [← isSome_cutLast?_iff]
      intro hsome
      obtain ⟨⟨target, inside⟩, hlast⟩ := Option.isSome_iff_exists.mp hsome
      exact hcut c target inside (by rw [cutLast?, hlast])
    by_cases hclosed : closer <:+: rest
    · rw [if_pos (by simpa using holds_iff.mpr hclosed)]
      exact .whole hfront hclosed
    · rw [if_neg (by simpa [holds_iff] using hclosed)]
      exact .none hfront hclosed

/-- The target of a directive is taken from its first run by the rule. -/
theorem targeted_of_firstRun (h : parse line = some d) (hrun : FirstRun line d run rest) :
    Targeted run rest d.target := by
  obtain ⟨before, opener, blanks, blanks', hblanks', hl⟩ := hrun.placed
  obtain ⟨tail, hsource, _, htarget⟩ := exists_of_afterKind? (hl.afterKind?_eq h)
  obtain rfl := List.append_cancel_left hsource
  obtain ⟨c, cs, rfl⟩ := List.exists_cons_of_ne_nil hrun.nonempty
  have htrim : trimStart (blanks' ++ (c :: cs ++ rest)) = c :: cs ++ rest :=
    (takeWhile_append_cons hblanks' (hrun.unblank c List.mem_cons_self) (cs ++ rest)).2
  rw [htarget, htrim]
  exact targeted_splitTarget hrun.nonempty hrun.unblank hrun.ended

/-! ## A closer as the first run -/

/-- **A closer that comes first is taken as the target when another follows.**  When the first run
behind the type, and behind the search paths, is a closer and nothing else, there is no target
exactly when no closer stands behind the run.  Otherwise the run is the target. -/
theorem target_of_leading_closer (h : parse line = some d) (hrun : FirstRun line d closer rest) :
    (d.target = none ↔ ¬ closer <:+: rest) ∧ (closer <:+: rest → d.target = some closer) := by
  have htargeted := targeted_of_firstRun h hrun
  generalize d.target = target at htargeted
  cases htargeted with
  | cut hne hsource _ =>
    -- nothing of a closer is left in front of a closer
    rename_i x inside
    have hlength := congrArg List.length hsource
    simp only [List.length_append] at hlength
    exact absurd (List.length_eq_zero_iff.mp (by omega)) hne
  | whole _ hclosed =>
    exact ⟨iff_of_false (Option.some_ne_none _) (not_not_intro hclosed), fun _ => rfl⟩
  | none _ hopen => exact ⟨iff_of_true rfl hopen, fun hclosed => absurd hclosed hopen⟩

/-- A script block that is written on one line. -/
def oneLine : Text :=
  "<!-- build:js --> <script src=\"a.js\"></script> <!-- endbuild -->".toList

/-- What follows the directive on the line `oneLine`. -/
def oneLineRest : Text :=
  " <script src=\"a.js\"></script> <!-- endbuild -->".toList

/-- The directive that is read from `oneLine`. -/
def oneLineDirective : Directive where
  kind := "js".toList
  searchPaths := none
  target := some closer
  attributes := some "<script src=\"a.js\"></script> <!-- endbuild".toList

theorem parse_oneLine : parse oneLine = some oneLineDirective := by
  decide

theorem firstRun_oneLine : FirstRun oneLine oneLineDirective closer oneLineRest where
  placed := by
    refine ⟨[], "<!--".toList, [' '], [' '], List.forall_mem_singleton.mpr (by decide),
      ⟨by decide, by decide, List.forall_mem_singleton.mpr (by decide), by decide, by decide⟩,
      ?_, fun _ _ _ _ _ _ => Nat.zero_le _⟩
    rintro c ⟨⟩
    decide
  nonempty := by decide
  unblank := fun c hc => Bool.eq_false_iff.mpr fun hblank =>
    not_mem_of_isBlank (by decide) hblank hc
  ended := by
    rintro c ⟨⟩
    decide

/-- The closer of the end marker makes the directive of `oneLine` take its own closer. -/
theorem target_oneLine :
    parse oneLine = some oneLineDirective ∧
      FirstRun oneLine oneLineDirective closer oneLineRest ∧
      closer <:+: oneLineRest ∧ oneLineDirective.target = some closer := by
  have hclosed : closer <:+: oneLineRest := by decide
  exact ⟨parse_oneLine, firstRun_oneLine, hclosed,
    (target_of_leading_closer parse_oneLine firstRun_oneLine).2 hclosed⟩

/-- Not every closer that comes first is passed over. -/
theorem not_all_leading_closers_untaken :
    ¬ ∀ (line rest : Text) (d : Directive), parse line = some d → FirstRun line d closer rest →
      d.target = none := by
  intro huntaken
  exact Option.some_ne_none _ (huntaken oneLine oneLineRest oneLineDirective parse_oneLine
    firstRun_oneLine)

end BuildBlocks.Directive
