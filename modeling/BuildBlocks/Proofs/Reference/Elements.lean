import BuildBlocks.Proofs.ConditionalComment.Recognition
import BuildBlocks.Proofs.Document.Uniform

/-! # Where links and scripts are found

What the searches for elements succeed at, said of the text without a search: a link is the word
with a closing bracket behind it on its line (`linksStylesheet_iff_hasLink`), a script is the word
with an end anywhere behind it (`holdsScript_iff_hasScript`).  No word and no bracket reaches over a
line break, so that elements are found line by line: a link in one line, a script in a line and
those after it (`linksStylesheet_join_iff` and `holdsScript_join_iff`).  Hence further lines between
those of a text take no element from it.
-/
namespace BuildBlocks
open Text

/-! ## Words in any letter case -/

namespace Text

/-- The character is the letter in either case; `k` is also written as the Kelvin sign, and `s` as
the long s. -/
def IsLetter (letter c : Char) : Prop :=
  c.toLower = letter ∨ letter = 'k' ∧ c = '\u212A' ∨ letter = 's' ∧ c = '\u017F'

/-- The text is the word in any letter case. -/
def IsWord (word t : Text) : Prop :=
  List.Forall₂ IsLetter word t

theorem isLetter_iff {letter c : Char} (hkelvin : letter ≠ '\u212A') (hlong : letter ≠ '\u017F') :
    IsLetter letter c ↔ foldCase c = letter := by
  rw [IsLetter, foldCase_eq]
  by_cases hk : c = '\u212A'
  · subst hk
    rw [if_pos rfl, show Char.toLower '\u212A' = '\u212A' by decide]
    simp [Ne.symm hkelvin, eq_comm]
  · by_cases hs : c = '\u017F'
    · subst hs
      rw [if_neg (by decide), if_pos rfl, show Char.toLower '\u017F' = '\u017F' by decide]
      simp [Ne.symm hlong, eq_comm]
    · simp [hk, hs]

theorem isWord_iff {word t : Text}
    (hword : word.all (fun letter => letter != '\u212A' && letter != '\u017F') = true) :
    IsWord word t ↔ t.map foldCase = word := by
  rw [IsWord, eq_comm, ← List.forall₂_eq_eq_eq, List.forall₂_map_right_iff]
  induction word generalizing t with
  | nil => simp
  | cons letter word ih =>
    rw [List.all_cons, Bool.and_eq_true, Bool.and_eq_true, bne_iff_ne, bne_iff_ne] at hword
    obtain ⟨⟨hkelvin, hlong⟩, hword⟩ := hword
    cases t with
    | nil => simp
    | cons c t =>
      rw [List.forall₂_cons, List.forall₂_cons, ih hword, isLetter_iff hkelvin hlong, eq_comm]

end Text

namespace Reference

/-- The text says `link` and, further on in the same line, a closing bracket or parenthesis. -/
def HasLink (t : Text) : Prop :=
  ∃ before word between close after, t = before ++ (word ++ (between ++ close :: after)) ∧
    IsWord "link".toList word ∧ '\r' ∉ between ∧ '\n' ∉ between ∧ (close = '>' ∨ close = ')')

/-- The text holds what ends a script. -/
def HasScriptEnd (t : Text) : Prop :=
  ')' ∈ t ∨ ∃ tag, tag <:+: t ∧ IsWord "</script>".toList tag

/-- The text says `script`, as a word or the end of one, and ends the script anywhere behind it. -/
def HasScript (t : Text) : Prop :=
  ∃ before word after, t = before ++ (word ++ after) ∧ IsWord "script".toList word ∧
    (∀ c ∈ after.head?, isWordCharacter c = false) ∧ HasScriptEnd after

variable {t u : Text}

theorem endsWord_iff : endsWord t = true ↔ ∀ c ∈ t.head?, isWordCharacter c = false := by
  cases t <;> simp [endsWord]

theorem hasScriptEnd_iff : HasScriptEnd t ↔ Comment.EndsScript t :=
  or_congr_right (exists_congr fun _ => and_congr_right fun _ => isWord_iff (by decide))

/-- **A stylesheet is linked where the text says so.** -/
theorem linksStylesheet_iff_hasLink : linksStylesheet t = true ↔ HasLink t := by
  rw [linksStylesheet, isSome_search_iff]
  simp only [Comment.isSome_linkAt?, Option.any_eq_true, Prod.exists, afterFolded?_eq_some_iff,
    Comment.closesLink_iff]
  constructor
  · rintro ⟨before, _, rfl, word, _, ⟨rfl, hword⟩, between, close, after, rfl, hbetween⟩
    exact ⟨before, word, between, close, after, rfl, (isWord_iff (by decide)).mpr hword, hbetween⟩
  · rintro ⟨before, word, between, close, after, rfl, hword, hbetween⟩
    exact ⟨before, _, rfl, word, _, ⟨rfl, (isWord_iff (by decide)).mp hword⟩, between, close, after,
      rfl, hbetween⟩

/-- **A script is held where the text says so.** -/
theorem holdsScript_iff_hasScript : holdsScript t = true ↔ HasScript t := by
  rw [holdsScript, isSome_search_iff]
  simp only [Comment.isSome_scriptAt?, Option.any_eq_true, Prod.exists, afterFolded?_eq_some_iff,
    Bool.and_eq_true, endsWord_iff, Comment.isSome_search_scriptEndAt?_iff, ← hasScriptEnd_iff]
  constructor
  · rintro ⟨before, _, rfl, word, after, ⟨rfl, hword⟩, hends⟩
    exact ⟨before, word, after, rfl, (isWord_iff (by decide)).mpr hword, hends⟩
  · rintro ⟨before, word, after, rfl, hword, hends⟩
    exact ⟨before, _, rfl, word, after, ⟨rfl, (isWord_iff (by decide)).mp hword⟩, hends⟩

/-! ## Elements line by line -/

/-- The text starts with a line break, or is empty. -/
def BreaksFirst (t : Text) : Prop :=
  ∀ c ∈ t.head?, c = '\r' ∨ c = '\n'

variable {ending : LineEnding} {l : Text} {ls : List Text}

theorem breaksFirst_flatMap (ending : LineEnding) (ls : List Text) :
    BreaksFirst (ls.flatMap (ending.text ++ ·)) := by
  cases ls with
  | nil => exact fun c hc => by cases hc
  | cons l ls =>
    rintro c hc
    cases ending with
    | lf => exact .inr (Option.some.inj hc).symm
    | crlf => exact .inl (Option.some.inj hc).symm

/-- What is read in lines starts in one of them, as nothing starts at a line break. -/
theorem search_join_iff {read : Text → Option Unit} (hread : Comment.PassesOver read)
    (Found : Text → List Text → Prop) (ending : LineEnding)
    (hfound : ∀ l ls, (∃ x y, x ++ y = l ∧
      (read (y ++ ls.flatMap (ending.text ++ ·))).isSome = true) ↔ Found l ls) (ls : List Text) :
    (search read (join ending.text ls)).isSome = true ↔
      ∃ earlier l later, ls = earlier ++ l :: later ∧ Found l later := by
  induction ls with
  | nil => simp [join, search, hread.nil]
  | cons l ls ih =>
    have hblank : ∀ c ∈ ending.text, isBlank c = true := by
      cases ending with
      | lf => exact List.forall_mem_singleton.mpr rfl
      | crlf => exact List.forall_mem_cons.mpr ⟨rfl, List.forall_mem_singleton.mpr rfl⟩
    -- behind the first line stands a line break with the others behind it, or nothing
    have hbehind : (search read (ls.flatMap (ending.text ++ ·))).isSome =
        (search read (join ending.text ls)).isSome := by
      cases ls with
      | nil => rfl
      | cons m ls =>
        rw [List.flatMap_cons, List.append_assoc, hread.search_blanks hblank]
        exact congrArg (fun t => (search read t).isSome) (join_append_cons [] m ls).symm
    have hstart : read (ls.flatMap (ending.text ++ ·)) = none := by
      cases ls with
      | nil => exact hread.nil
      | cons m ls => cases ending <;> exact hread.blank _ _ (by decide)
    have hjoin : join ending.text (l :: ls) = l ++ ls.flatMap (ending.text ++ ·) :=
      join_append_cons [] l ls
    rw [hjoin, isSome_search_append, hbehind, ih]
    constructor
    · rintro (⟨x, y, hxy, _, h⟩ | ⟨earlier, m, later, rfl, h⟩)
      · exact ⟨[], l, ls, rfl, (hfound l ls).mp ⟨x, y, hxy, h⟩⟩
      · exact ⟨l :: earlier, m, later, rfl, h⟩
    · rintro ⟨earlier, m, later, hsplit, h⟩
      cases earlier with
      | nil =>
        obtain ⟨rfl, rfl⟩ := List.cons.inj hsplit
        obtain ⟨x, y, hxy, h⟩ := (hfound l ls).mpr h
        refine .inl ⟨x, y, hxy, ?_, h⟩
        rintro rfl
        rw [List.nil_append, hstart] at h
        cases h
      | cons first earlier => exact .inr ⟨earlier, m, later, (List.cons.inj hsplit).2, h⟩

/-- A word ends in front of a line break. -/
theorem afterFolded?_append {lead : Text} (hlead : '\r' ∉ lead ∧ '\n' ∉ lead) (hu : BreaksFirst u)
    (t : Text) : afterFolded? lead (t ++ u) =
      (afterFolded? lead t).map fun (written, rest) => (written, rest ++ u) := by
  cases u with
  | nil =>
    simp only [List.append_nil]
    exact (congrFun Option.map_id _).symm
  | cons c u =>
    refine afterFolded?_append_cons ?_ t u
    rcases hu c rfl with rfl | rfl
    · exact hlead.1
    · exact hlead.2

/-! ### Links -/

theorem closesLink_append (hu : BreaksFirst u) (t : Text) :
    Comment.closesLink (t ++ u) = Comment.closesLink t := by
  have hbreak : Comment.closesLink u = Comment.closesLink [] := by
    cases u with
    | nil => rfl
    | cons c u => rcases hu c rfl with rfl | rfl <;> rfl
  have happend := Comment.closesLink_append_congr hbreak t
  rwa [List.append_nil] at happend

theorem isSome_linkAt?_append (hu : BreaksFirst u) (t : Text) :
    (linkAt? (t ++ u)).isSome = (linkAt? t).isSome := by
  rw [Comment.isSome_linkAt?, Comment.isSome_linkAt?, afterFolded?_append (by decide) hu]
  cases afterFolded? "link".toList t with
  | none => rfl
  | some found => exact closesLink_append hu found.2

/-- Lines link a stylesheet when one of them does. -/
theorem linksStylesheet_join_iff (ending : LineEnding) (ls : List Text) :
    linksStylesheet (join ending.text ls) = true ↔ ∃ l ∈ ls, linksStylesheet l = true := by
  have hlines := search_join_iff Comment.passesOver_linkAt? (fun l _ => linksStylesheet l = true)
    ending fun l later => by
      rw [linksStylesheet, isSome_search_iff]
      simp only [isSome_linkAt?_append (breaksFirst_flatMap ending later)]
  rw [linksStylesheet, hlines]
  constructor
  · rintro ⟨earlier, l, later, rfl, hl⟩
    exact ⟨l, List.mem_append_right _ List.mem_cons_self, hl⟩
  · rintro ⟨l, hl, hlinks⟩
    obtain ⟨earlier, later, rfl⟩ := List.append_of_mem hl
    exact ⟨earlier, l, later, rfl, hlinks⟩

/-! ### Scripts -/

theorem isSome_scriptEndAt?_append (hu : BreaksFirst u) (t : Text) :
    (scriptEndAt? (t ++ u)).isSome = (scriptEndAt? t).isSome := by
  cases u with
  | nil => rw [List.append_nil]
  | cons c u =>
    rcases hu c rfl with rfl | rfl
    · exact Comment.isSome_scriptEndAt?_append_cons (by decide) (by decide) t u
    · exact Comment.isSome_scriptEndAt?_append_cons (by decide) (by decide) t u

/-- Lines end a script when one of them does. -/
theorem endsScript_join_iff (ending : LineEnding) (ls : List Text) :
    Comment.EndsScript (join ending.text ls) ↔ ∃ l ∈ ls, Comment.EndsScript l := by
  have hlines := search_join_iff Comment.passesOver_scriptEndAt? (fun l _ => Comment.EndsScript l)
    ending fun l later => by
      rw [← Comment.isSome_search_scriptEndAt?_iff, isSome_search_iff]
      simp only [isSome_scriptEndAt?_append (breaksFirst_flatMap ending later)]
  rw [← Comment.isSome_search_scriptEndAt?_iff, hlines]
  constructor
  · rintro ⟨earlier, l, later, rfl, hl⟩
    exact ⟨l, List.mem_append_right _ List.mem_cons_self, hl⟩
  · rintro ⟨l, hl, hends⟩
    obtain ⟨earlier, later, rfl⟩ := List.append_of_mem hl
    exact ⟨earlier, l, later, rfl, hends⟩

set_option maxRecDepth 10000 in
theorem endsWord_of_breaksFirst (hu : BreaksFirst u) : endsWord u = true := by
  cases u with
  | nil => rfl
  | cons c u =>
    rw [endsWord]
    rcases hu c rfl with rfl | rfl <;> decide

/-- Lines hold a script when one of them opens it and the same one or a later one ends it. -/
theorem holdsScript_join_iff (ending : LineEnding) (ls : List Text) :
    holdsScript (join ending.text ls) = true ↔ Comment.MentionsScript ls := by
  refine search_join_iff Comment.passesOver_scriptAt? Comment.OpensScript ending
    (fun l later => ?_) ls
  have hu := breaksFirst_flatMap ending later
  have hends : ∀ rest : Text,
      (search scriptEndAt? (rest ++ later.flatMap (ending.text ++ ·))).isSome = true ↔
        Comment.EndsScript rest ∨ ∃ other ∈ later, Comment.EndsScript other := by
    intro rest
    have hjoin : join ending.text (rest :: later) = rest ++ later.flatMap (ending.text ++ ·) :=
      join_append_cons [] rest later
    rw [Comment.isSome_search_scriptEndAt?_iff, ← hjoin, endsScript_join_iff]
    simp only [List.mem_cons, exists_eq_or_imp]
  have hword : ∀ y : Text, afterFolded? "script".toList (y ++ later.flatMap (ending.text ++ ·)) =
      (afterFolded? "script".toList y).map fun (written, rest) =>
        (written, rest ++ later.flatMap (ending.text ++ ·)) :=
    fun y => afterFolded?_append (by decide) hu y
  simp only [Comment.isSome_scriptAt?, hword, Option.any_map, Option.any_eq_true, Prod.exists,
    afterFolded?_eq_some_iff, Bool.and_eq_true, hends,
    Comment.endsWord_append (endsWord_of_breaksFirst hu)]
  constructor
  · rintro ⟨x, y, rfl, word, rest, ⟨rfl, hfold⟩, hends⟩
    exact ⟨x, word, rest, rfl, hfold, hends⟩
  · rintro ⟨x, word, rest, rfl, hfold, hends⟩
    exact ⟨x, _, rfl, word, rest, ⟨rfl, hfold⟩, hends⟩

/-! ### Further lines -/

variable {ms : List Text}

theorem linksStylesheet_of_sublist (h : ls.Sublist ms) (ending' : LineEnding)
    (hlinks : linksStylesheet (join ending.text ls) = true) :
    linksStylesheet (join ending'.text ms) = true := by
  rw [linksStylesheet_join_iff] at hlinks ⊢
  obtain ⟨l, hl, hlinks⟩ := hlinks
  exact ⟨l, h.subset hl, hlinks⟩

/-- Lines before, between and behind those of a script leave it one. -/
theorem mentionsScript_of_sublist (h : ls.Sublist ms) (hscript : Comment.MentionsScript ls) :
    Comment.MentionsScript ms := by
  obtain ⟨earlier, l, later, rfl, x, word, rest, hl, hfold, hword, hends⟩ := hscript
  obtain ⟨front, _, rfl, _, htail⟩ := List.append_sublist_iff.mp h
  obtain ⟨upTo, behind, rfl, hmem, hlater⟩ := List.cons_sublist_iff.mp htail
  obtain ⟨before, after, rfl⟩ := List.append_of_mem hmem
  refine ⟨front ++ before, l, after ++ behind, by simp, x, word, rest, hl, hfold, hword, ?_⟩
  exact hends.imp_right fun ⟨other, hother, hends⟩ =>
    ⟨other, List.mem_append_right _ (hlater.subset hother), hends⟩

theorem holdsScript_of_sublist (h : ls.Sublist ms) (ending' : LineEnding)
    (hscript : holdsScript (join ending.text ls) = true) :
    holdsScript (join ending'.text ms) = true := by
  rw [holdsScript_join_iff] at hscript ⊢
  exact mentionsScript_of_sublist h hscript

/-! ## Tags -/

theorem stylesheetTag_ne_nil (target : Text) (attributes : Option Text) :
    stylesheetTag target attributes ≠ [] :=
  fun h => List.cons_ne_nil _ _ (List.append_eq_nil_iff.mp h).2

theorem scriptTag_ne_nil (target : Text) (attributes : Option Text) :
    scriptTag target attributes ≠ [] :=
  fun h => List.cons_ne_nil _ _ (List.append_eq_nil_iff.mp h).2

end Reference
end BuildBlocks
