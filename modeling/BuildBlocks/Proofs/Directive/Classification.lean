import BuildBlocks.Proofs.Directive.Recognition

/-! # Which lines hold a directive or an end marker

A directive is spelled where an opener stands, then `build:` behind blanks, then the name of a
type, with a closer anywhere behind it (`Spelled`).  The parser tries every place of a line and
several ways of reading what follows a name, and yet a line holds a directive exactly when one
is spelled on it; it is the one at the leftmost opener, and its name goes as far as it can
(`line_classification`).  End markers have a grammar of the same kind.
-/
namespace BuildBlocks.Directive
open Text

/-- A directive is spelled on the line: behind `before` an opener, blanks, `build:`, a name of a
type, and a rest that holds a closer. -/
structure Spelled (line before opener blanks kind rest : Text) : Prop where
  line_eq : line = before ++ (opener ++ (blanks ++ ("build:".toList ++ (kind ++ rest))))
  opener_mem : opener ∈ openers
  blank : ∀ c ∈ blanks, isBlank c = true
  isName : BlockType.isName kind = true
  closed : closer <:+: rest

variable {t line before opener blanks kind rest : Text} {d : Directive}

theorem isName_iff :
    BlockType.isName kind = true ↔
      kind ≠ [] ∧ ∀ c ∈ kind, BlockType.isNameCharacter c = true := by
  cases kind <;> simp [BlockType.isName]

theorem isName_takeWhile (h : t.takeWhile BlockType.isNameCharacter ≠ []) :
    BlockType.isName (t.takeWhile BlockType.isNameCharacter) = true :=
  isName_iff.mpr ⟨h, List.all_eq_true.mp List.all_takeWhile⟩

/-! ## What is read at an opener -/

theorem kind_of_afterKind? (h : afterKind? kind t = some d) : d.kind = kind := by
  obtain ⟨_, _, rfl⟩ := Option.map_eq_some_iff.mp h
  rfl

/-- A name ends where a character follows that cannot be part of it. -/
theorem takeWhile_name_append (hkind : BlockType.isName kind = true)
    (hrest : ∀ c ∈ rest.head?, BlockType.isNameCharacter c = false) :
    (kind ++ rest).takeWhile BlockType.isNameCharacter = kind ∧
      (kind ++ rest).dropWhile BlockType.isNameCharacter = rest :=
  takeWhile_append_of_head? (isName_iff.mp hkind).2 hrest

/-- Behind `build:` the longest name is read first. -/
theorem inComment?_append (hblanks : ∀ c ∈ blanks, isBlank c = true)
    (hkind : BlockType.isName kind = true)
    (hrest : ∀ c ∈ rest.head?, BlockType.isNameCharacter c = false) :
    inComment? (blanks ++ ("build:".toList ++ (kind ++ rest))) = afterKind? kind rest := by
  rw [inComment?, (after?_trimStart_eq_some_iff (show "build:".toList = 'b' :: "uild:".toList from rfl)
    (by decide)).mpr ⟨blanks, hblanks, rfl⟩]
  obtain ⟨htake, hdrop⟩ := takeWhile_name_append hkind hrest
  have hne : kind.isEmpty = false := by simpa using (isName_iff.mp hkind).1
  simp only [htake, hdrop, hne, Bool.false_eq_true, if_false]

/-- A directive is read from `build:`, the longest name behind it, and what follows that. -/
theorem inComment?_eq_some_iff :
    inComment? t = some d ↔ ∃ blanks rest, (∀ c ∈ blanks, isBlank c = true) ∧
      BlockType.isName d.kind = true ∧
      (∀ c ∈ rest.head?, BlockType.isNameCharacter c = false) ∧
      afterKind? d.kind rest = some d ∧
      t = blanks ++ ("build:".toList ++ (d.kind ++ rest)) := by
  have hword : "build:".toList = 'b' :: "uild:".toList := rfl
  have hb : isBlank 'b' = false := by decide
  rw [inComment?]
  constructor
  · intro h
    split at h
    · cases h
    · rename_i behind hafter
      obtain ⟨blanks, hblanks, rfl⟩ := (after?_trimStart_eq_some_iff hword hb).mp hafter
      simp only at h
      split at h
      · cases h
      · rename_i hkind
        obtain hd := kind_of_afterKind? h
        refine ⟨blanks, behind.dropWhile BlockType.isNameCharacter, hblanks, ?_,
          fun c hc => head?_dropWhile hc, by rwa [hd], ?_⟩
        · rw [hd]
          exact isName_takeWhile (by simpa using hkind)
        · rw [hd, List.takeWhile_append_dropWhile]
  · rintro ⟨blanks, rest, hblanks, hname, hmaximal, hread, rfl⟩
    rw [← inComment?, inComment?_append hblanks hname hmaximal, hread]

theorem at?_eq_some_iff :
    at? t = some d ↔ ∃ opener blanks rest, opener ∈ openers ∧
      (∀ c ∈ blanks, isBlank c = true) ∧ BlockType.isName d.kind = true ∧
      (∀ c ∈ rest.head?, BlockType.isNameCharacter c = false) ∧
      afterKind? d.kind rest = some d ∧
      t = opener ++ (blanks ++ ("build:".toList ++ (d.kind ++ rest))) := by
  rw [at?, Option.bind_eq_some_iff]
  simp only [afterOpener?_eq_some_iff, inComment?_eq_some_iff]
  constructor
  · rintro ⟨_, ⟨opener, hopener, rfl⟩, blanks, rest, hblanks, hname, hmaximal, hread, rfl⟩
    exact ⟨opener, blanks, rest, hopener, hblanks, hname, hmaximal, hread, rfl⟩
  · rintro ⟨opener, blanks, rest, hopener, hblanks, hname, hmaximal, hread, rfl⟩
    exact ⟨_, ⟨opener, hopener, rfl⟩, blanks, rest, hblanks, hname, hmaximal, hread, rfl⟩

/-- Something is read at a place exactly when a directive is spelled there. -/
theorem isSome_at?_iff_spelled (before : Text) :
    (at? t).isSome = true ↔
      ∃ opener blanks kind rest, Spelled (before ++ t) before opener blanks kind rest := by
  constructor
  · intro h
    obtain ⟨d, hd⟩ := Option.isSome_iff_exists.mp h
    obtain ⟨opener, blanks, rest, hopener, hblanks, hname, _, hread, rfl⟩ := at?_eq_some_iff.mp hd
    exact ⟨opener, blanks, d.kind, rest, rfl, hopener, hblanks, hname,
      isSome_afterKind?_iff.mp (by rw [hread]; rfl)⟩
  · rintro ⟨opener, blanks, kind, rest, hline, hopener, hblanks, hname, hclosed⟩
    obtain rfl := List.append_cancel_left hline
    cases kind with
    | nil => cases hname
    | cons c kind =>
      obtain ⟨inside, behind, rfl⟩ := hclosed
      have hc : BlockType.isNameCharacter c = true := (isName_iff.mp hname).2 c List.mem_cons_self
      refine isSome_at?_iff.mpr ⟨opener ++ (blanks ++
        ("build:".toList ++ c :: ((kind ++ inside) ++ closer))), .mk hopener hblanks hc, behind, ?_⟩
      simp only [List.append_assoc, List.cons_append]

/-! ## End markers -/

theorem endMarkerAt?_eq_some_iff :
    endMarkerAt? t = some rest ↔ ∃ opener blanks blanks', opener ∈ openers ∧
      (∀ c ∈ blanks, isBlank c = true) ∧ (∀ c ∈ blanks', isBlank c = true) ∧
      t = opener ++ (blanks ++ ("endbuild".toList ++ (blanks' ++ (closer ++ rest)))) := by
  have hword : "endbuild".toList = 'e' :: "ndbuild".toList := rfl
  have he : isBlank 'e' = false := by decide
  have hdash : isBlank '-' = false := by decide
  rw [endMarkerAt?]
  simp only [Option.bind_eq_some_iff, afterOpener?_eq_some_iff,
    after?_trimStart_eq_some_iff hword he, after?_trimStart_eq_some_iff closer_eq_cons hdash]
  constructor
  · rintro ⟨_, ⟨opener, hopener, rfl⟩, _, ⟨blanks, hblanks, rfl⟩, blanks', hblanks', rfl⟩
    exact ⟨opener, blanks, blanks', hopener, hblanks, hblanks', rfl⟩
  · rintro ⟨opener, blanks, blanks', hopener, hblanks, hblanks', rfl⟩
    exact ⟨_, ⟨opener, hopener, rfl⟩, _, ⟨blanks, hblanks, rfl⟩, blanks', hblanks', rfl⟩

/-! ## Lines -/

/-- The directive of a line is read at the leftmost place where one is spelled. -/
theorem parse_eq_some_iff :
    parse line = some d ↔ ∃ before opener blanks rest,
      Spelled line before opener blanks d.kind rest ∧
      (∀ c ∈ rest.head?, BlockType.isNameCharacter c = false) ∧
      (∀ before' opener' blanks' kind' rest',
        Spelled line before' opener' blanks' kind' rest' → before.length ≤ before'.length) ∧
      at? (line.drop before.length) = some d := by
  rw [parse, Option.map_eq_some_iff]
  constructor
  · rintro ⟨⟨before, d⟩, hsearch, rfl⟩
    obtain ⟨tail, rfl, hat, hleft⟩ := search_eq_some_iff.mp hsearch
    obtain ⟨opener, blanks, rest, hopener, hblanks, hname, hmaximal, hread, rfl⟩ :=
      at?_eq_some_iff.mp hat
    refine ⟨before, opener, blanks, rest, ⟨rfl, hopener, hblanks, hname, ?_⟩, hmaximal, ?_, ?_⟩
    · exact isSome_afterKind?_iff.mp (by rw [hread]; rfl)
    · -- further left nothing is read, so nothing is spelled there
      intro before' opener' blanks' kind' rest' hspelled
      rcases List.append_eq_append_iff.mp hspelled.line_eq with ⟨gap, rfl, _⟩ | ⟨gap, hgap, _⟩
      · simp
      · cases gap with
        | nil => simp [hgap]
        | cons c gap =>
          have hnone := hleft before' (c :: gap) hgap.symm (List.cons_ne_nil c gap)
          rw [hgap, List.append_assoc] at hspelled
          have hsome := (isSome_at?_iff_spelled _).mpr ⟨_, _, _, _, hspelled⟩
          rw [hnone] at hsome
          cases hsome
    · rw [List.drop_left]
      exact hat
  · rintro ⟨before, opener, blanks, rest, hspelled, _, hleft, hat⟩
    refine ⟨(before, d), search_eq_some_iff.mpr ⟨line.drop before.length, ?_, hat, ?_⟩, rfl⟩
    · rw [hspelled.line_eq, List.drop_left]
    · intro u v huv hv
      rw [← Option.not_isSome_iff_eq_none, isSome_at?_iff_spelled u]
      rintro ⟨opener', blanks', kind', rest', hother⟩
      have hsource : u ++ (v ++ line.drop before.length) = line := by
        rw [← List.append_assoc, huv, hspelled.line_eq, List.drop_left]
      rw [hsource] at hother
      have hle := hleft _ _ _ _ _ hother
      rw [← huv, List.length_append] at hle
      exact hv (List.length_eq_zero_iff.mp (by omega))

/-- **Which lines hold a directive or an end marker.**  A line holds a directive when one is
spelled on it: an opener, `build:` behind any blanks, a name, and a closer in what follows.  The
directive is then the one read at the leftmost such opener, and its name goes on as long as
characters of names do.  A line holds an end marker when an opener, `endbuild` and a closer
stand on it with nothing but blanks between them. -/
theorem line_classification (line : Text) :
    ((parse line).isSome = true ↔
      ∃ before opener blanks kind rest, Spelled line before opener blanks kind rest) ∧
    (∀ d, parse line = some d ↔ ∃ before opener blanks rest,
      Spelled line before opener blanks d.kind rest ∧
      (∀ c ∈ rest.head?, BlockType.isNameCharacter c = false) ∧
      (∀ before' opener' blanks' kind' rest',
        Spelled line before' opener' blanks' kind' rest' → before.length ≤ before'.length) ∧
      at? (line.drop before.length) = some d) ∧
    (isEndMarker line = true ↔ ∃ before opener blanks blanks' rest, opener ∈ openers ∧
      (∀ c ∈ blanks, isBlank c = true) ∧ (∀ c ∈ blanks', isBlank c = true) ∧
      line = before ++
        (opener ++ (blanks ++ ("endbuild".toList ++ (blanks' ++ (closer ++ rest)))))) := by
  refine ⟨?_, fun d => parse_eq_some_iff, ?_⟩
  · rw [parse, Option.isSome_map, isSome_search_iff]
    constructor
    · rintro ⟨before, tail, rfl, hat⟩
      exact ⟨before, (isSome_at?_iff_spelled _).mp hat⟩
    · rintro ⟨before, opener, blanks, kind, rest, hspelled⟩
      obtain rfl := hspelled.line_eq
      exact ⟨before, _, rfl, (isSome_at?_iff_spelled _).mpr ⟨opener, blanks, kind, rest, hspelled⟩⟩
  · rw [isEndMarker, isSome_search_iff]
    simp only [Option.isSome_iff_exists, endMarkerAt?_eq_some_iff]
    constructor
    · rintro ⟨before, tail, rfl, rest, opener, blanks, blanks', hopener, hblanks, hblanks', rfl⟩
      exact ⟨before, opener, blanks, blanks', rest, hopener, hblanks, hblanks', rfl⟩
    · rintro ⟨before, opener, blanks, blanks', rest, hopener, hblanks, hblanks', rfl⟩
      exact ⟨before, _, rfl, rest, opener, blanks, blanks', hopener, hblanks, hblanks', rfl⟩

end BuildBlocks.Directive
