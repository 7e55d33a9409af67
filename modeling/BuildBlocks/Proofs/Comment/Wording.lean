import BuildBlocks.Comment
import BuildBlocks.Proofs.Text.Mark
import BuildBlocks.Reference

/-! # Elements that are found in comments

Elements are looked for in a text as it is written, comments included.  In a text of blanks and
comments they can only be found in what the comments say: no element starts at a blank or in a
mark of a comment (`PassesOver`), so that it starts in the body of a comment.  A link then ends in
the same comment at the latest (`linksStylesheet_iff`), while a script can end in a later one
(`holdsScript_iff`).
-/
namespace BuildBlocks
open Text Reference

/-! ## Words -/

namespace Text
variable {lead : Text} {c p : Char}

/-- A word ends in front of a character that it does not hold. -/
theorem afterFolded?_append_cons (hc : foldCase c ∉ lead) (t u : Text) :
    afterFolded? lead (t ++ c :: u) =
      (afterFolded? lead t).map fun (written, rest) => (written, rest ++ c :: u) := by
  induction lead generalizing t with
  | nil => rfl
  | cons p lead ih =>
    obtain ⟨hp, hlead⟩ : foldCase c ≠ p ∧ foldCase c ∉ lead := by simpa using hc
    cases t with
    | nil => exact if_neg hp
    | cons d t =>
      rw [List.cons_append, afterFolded?, afterFolded?, ih hlead]
      split
      · cases afterFolded? lead t <;> rfl
      · rfl

theorem foldCase_of_isBlank (hc : isBlank c = true) : foldCase c = c := by
  simp only [isBlank, Bool.or_eq_true, Bool.and_eq_true, decide_eq_true_eq, beq_iff_eq] at hc
  have hupper : isBetween 'A' 'Z' c = false := by
    simp only [isBetween, Bool.and_eq_false_iff, decide_eq_false_iff_not]
    change ¬ 65 ≤ c.toNat ∨ ¬ c.toNat ≤ 90
    omega
  rw [foldCase, hupper, if_neg Bool.false_ne_true, if_neg (by omega), if_neg (by omega)]

/-- A word that starts with no blank is not read at a blank. -/
theorem afterFolded?_of_isBlank (hp : isBlank p = false) (hc : isBlank c = true) (t : Text) :
    afterFolded? (p :: lead) (c :: t) = none := by
  refine if_neg fun h => ?_
  rw [foldCase_of_isBlank hc] at h
  rw [h, hp] at hc
  cases hc

end Text

namespace Comment
variable {read : Text → Option Unit} {t : Text} {ps : List Part}

/-! ## Texts of blanks and comments -/

/-- Nothing but blanks is left of the text when comments are removed. -/
def LeavesBlanks (t : Text) : Prop :=
  ∀ c ∈ strip t, isBlank c = true

/-- What stands between the marks of the part, if it is a comment that is removed. -/
def Part.body? : Part → Option Text
  | .removed body => some body
  | _ => none

/-- What the comments of a text say that are removed. -/
def bodies (t : Text) : List Text :=
  (parts t).filterMap Part.body?

/-- The part leaves nothing but blanks. -/
inductive Part.Idle : Part → Prop
  | plain {t : Text} (h : ∀ c ∈ t, isBlank c = true) : Idle (.plain t)
  | removed (body : Text) : Idle (.removed body)

theorem LeavesBlanks.idle (h : LeavesBlanks t) {p : Part} (hp : p ∈ parts t) : p.Idle := by
  have hblank : ∀ c ∈ p.remainder, isBlank c = true :=
    fun c hc => h c (List.mem_flatMap.mpr ⟨p, hp, hc⟩)
  cases p with
  | plain t => exact .plain hblank
  | removed body => exact .removed body
  | kept | unclosed =>
    have hmark := hblank '<' (by simp [Part.remainder, Part.source, opener])
    exact absurd hmark (by decide)

/-! ## Searches in them -/

/-- The reader reads nothing that starts at a blank or in a mark of a comment. -/
structure PassesOver (read : Text → Option Unit) : Prop where
  nil : read [] = none
  blank : ∀ c t, isBlank c = true → read (c :: t) = none
  opening : ∀ t, read (opener ++ t) = none
  /-- The other characters of the marks. -/
  mark : ∀ c t, c ∈ "!->".toList → read (c :: t) = none

/-- A reader of a word passes over comments, when no blank and no mark starts like the word. -/
theorem passesOver_of_word (p : Char) (lead : Text) (hblank : isBlank p = false)
    (hmark : p ∉ "<!->".toList.map foldCase)
    (hread : ∀ t, afterFolded? (p :: lead) t = none → read t = none) : PassesOver read where
  nil := hread [] rfl
  blank _ _ hc := hread _ (afterFolded?_of_isBlank hblank hc _)
  opening _ := hread _ (if_neg fun h => hmark (List.mem_map.mpr ⟨_, List.mem_cons_self, h⟩))
  mark _ _ hc := hread _ (if_neg fun h =>
    hmark (List.mem_map.mpr ⟨_, List.mem_cons_of_mem _ hc, h⟩))

namespace PassesOver

theorem search_blanks (hread : PassesOver read) {blanks : Text}
    (h : ∀ c ∈ blanks, isBlank c = true) (t : Text) :
    (search read (blanks ++ t)).isSome = (search read t).isSome := by
  induction blanks with
  | nil => rfl
  | cons c blanks ih =>
    obtain ⟨hc, hblanks⟩ := List.forall_mem_cons.mp h
    rw [List.cons_append, isSome_search_cons, hread.blank c _ hc, ih hblanks]
    rfl

theorem search_marks (hread : PassesOver read) {marks : Text}
    (h : marks ⊆ "!->".toList) (t : Text) :
    (search read (marks ++ t)).isSome = (search read t).isSome := by
  induction marks with
  | nil => rfl
  | cons c marks ih =>
    obtain ⟨hc, hmarks⟩ := List.cons_subset.mp h
    rw [List.cons_append, isSome_search_cons, hread.mark c _ hc, ih hmarks]
    rfl

theorem search_opener (hread : PassesOver read) (t : Text) :
    (search read (opener ++ t)).isSome = (search read t).isSome := by
  have hopening := hread.opening t
  rw [show opener = '<' :: "!--".toList from rfl, List.cons_append] at hopening ⊢
  rw [isSome_search_cons, hopening, hread.search_marks (by decide)]
  rfl

/-- What is read from the body of a comment on starts in it or stands behind the comment. -/
theorem search_body (hread : PassesOver read) (body t : Text) :
    (search read (body ++ (closer ++ t))).isSome = true ↔
      (∃ x y, x ++ y = body ∧ (read (y ++ (closer ++ t))).isSome = true) ∨
        (search read t).isSome = true := by
  rw [isSome_search_append, hread.search_marks (by decide)]
  refine or_congr_left (exists_congr fun x => exists_congr fun y => and_congr_right fun _ => ?_)
  refine and_iff_right_of_imp fun h hy => ?_
  have hnone : read (closer ++ t) = none := hread.mark '-' _ (by decide)
  rw [hy, List.nil_append, hnone] at h
  cases h

/-- In parts that leave nothing but blanks, what is read starts in the body of a comment. -/
theorem search_parts (hread : PassesOver read) (Found : Text → List Text → Prop)
    (hfound : ∀ (body : Text) (ps : List Part), (∀ p ∈ ps, p.Idle) →
      ((∃ x y, x ++ y = body ∧ (read (y ++ (closer ++ ps.flatMap Part.source))).isSome = true) ↔
        Found body (ps.filterMap Part.body?)))
    (h : ∀ p ∈ ps, p.Idle) :
    (search read (ps.flatMap Part.source)).isSome = true ↔
      ∃ earlier body later, ps.filterMap Part.body? = earlier ++ body :: later ∧
        Found body later := by
  induction ps with
  | nil => simp [search, hread.nil]
  | cons p ps ih =>
    obtain ⟨hp, hps⟩ := List.forall_mem_cons.mp h
    rw [List.flatMap_cons]
    cases hp with
    | @plain blanks hblanks =>
      show (search read (blanks ++ ps.flatMap Part.source)).isSome = true ↔ _
      rw [hread.search_blanks hblanks, ih hps]
      rfl
    | removed body =>
      show (search read (opener ++ body ++ closer ++ ps.flatMap Part.source)).isSome = true ↔ _
      rw [List.append_assoc, List.append_assoc, hread.search_opener, hread.search_body,
        hfound body ps hps, ih hps]
      show _ ↔ ∃ earlier other later,
        body :: ps.filterMap Part.body? = earlier ++ other :: later ∧ _
      constructor
      · rintro (hbody | ⟨earlier, other, later, heq, hother⟩)
        · exact ⟨[], body, _, rfl, hbody⟩
        · exact ⟨body :: earlier, other, later, by rw [heq]; rfl, hother⟩
      · rintro ⟨earlier, other, later, heq, hother⟩
        cases earlier with
        | nil =>
          obtain ⟨rfl, rfl⟩ := List.cons.inj heq
          exact .inl hother
        | cons first earlier => exact .inr ⟨earlier, other, later, (List.cons.inj heq).2, hother⟩

/-- So it does, when what stands behind a comment does not matter to the reader. -/
theorem search_parts_of_mem (hread : PassesOver read) {Found : Text → Prop}
    (hfound : ∀ body t,
      (∃ x y, x ++ y = body ∧ (read (y ++ (closer ++ t))).isSome = true) ↔ Found body)
    (h : ∀ p ∈ ps, p.Idle) :
    (search read (ps.flatMap Part.source)).isSome = true ↔
      ∃ body ∈ ps.filterMap Part.body?, Found body := by
  rw [hread.search_parts (fun body _ => Found body) (fun body ps _ => hfound body _) h]
  constructor
  · rintro ⟨earlier, body, later, heq, hbody⟩
    exact ⟨body, List.mem_iff_append.mpr ⟨earlier, later, heq⟩, hbody⟩
  · rintro ⟨body, hmem, hbody⟩
    obtain ⟨earlier, later, heq⟩ := List.mem_iff_append.mp hmem
    exact ⟨earlier, body, later, heq, hbody⟩

end PassesOver

/-! ## Links -/

/-- Whether a link ends on the line that the text starts with. -/
def closesLink (t : Text) : Bool :=
  (t.takeWhile fun c => c != '\r' && c != '\n').any fun c => c == '>' || c == ')'

theorem isSome_linkAt? (t : Text) :
    (linkAt? t).isSome = (afterFolded? "link".toList t).any fun found => closesLink found.2 := by
  rw [linkAt?]
  cases afterFolded? "link".toList t with
  | none => rfl
  | some found =>
    show (if closesLink found.2 = true then some () else none).isSome = closesLink found.2
    cases closesLink found.2 <;> rfl

theorem closesLink_iff :
    closesLink t = true ↔ ∃ line c rest, t = line ++ c :: rest ∧
      '\r' ∉ line ∧ '\n' ∉ line ∧ (c = '>' ∨ c = ')') := by
  let unbroken (c : Char) : Bool := c != '\r' && c != '\n'
  have hunbroken : ∀ line : Text,
      (∀ d ∈ line, unbroken d = true) ↔ '\r' ∉ line ∧ '\n' ∉ line := by
    intro line
    constructor
    · intro h
      exact ⟨fun hreturn => absurd (h _ hreturn) (by decide),
        fun hfeed => absurd (h _ hfeed) (by decide)⟩
    · rintro ⟨hreturn, hfeed⟩ d hd
      have hd' : d ≠ '\r' ∧ d ≠ '\n' :=
        ⟨ne_of_mem_of_not_mem hd hreturn, ne_of_mem_of_not_mem hd hfeed⟩
      simpa [unbroken] using hd'
  rw [closesLink, List.any_eq_true]
  constructor
  · rintro ⟨c, hc, hends⟩
    obtain ⟨line, rest, hline⟩ := List.append_of_mem hc
    have hall : ∀ d ∈ line, unbroken d = true := fun d hd =>
      List.all_eq_true.mp List.all_takeWhile d (by rw [hline]; exact List.mem_append_left _ hd)
    obtain ⟨hreturn, hfeed⟩ := (hunbroken line).mp hall
    refine ⟨line, c, rest ++ t.dropWhile unbroken, ?_, hreturn, hfeed, by simpa using hends⟩
    rw [← List.cons_append, ← List.append_assoc, ← hline, List.takeWhile_append_dropWhile]
  · rintro ⟨line, c, rest, rfl, hreturn, hfeed, hends⟩
    have hc : unbroken c = true := by rcases hends with rfl | rfl <;> rfl
    refine ⟨c, ?_, by simpa using hends⟩
    rw [List.takeWhile_append_of_pos ((hunbroken line).mpr ⟨hreturn, hfeed⟩),
      List.takeWhile_cons_of_pos hc]
    exact List.mem_append_right _ List.mem_cons_self

/-- Two texts that close a link alike do so behind any text. -/
theorem closesLink_append_congr {u v : Text} (h : closesLink u = closesLink v) (rest : Text) :
    closesLink (rest ++ u) = closesLink (rest ++ v) := by
  induction rest with
  | nil => exact h
  | cons c rest ih =>
    unfold closesLink at ih ⊢
    rw [List.cons_append, List.cons_append, List.takeWhile_cons, List.takeWhile_cons]
    split
    · rw [List.any_cons, List.any_cons, ih]
    · rfl

/-- Behind a comment nothing counts, since the mark that ends it has a bracket. -/
theorem isSome_linkAt?_append (y t : Text) :
    (linkAt? (y ++ (closer ++ t))).isSome =
      (afterFolded? "link".toList y).any fun found => closesLink (found.2 ++ closer) := by
  show (linkAt? (y ++ '-' :: ("->".toList ++ t))).isSome = _
  rw [isSome_linkAt?, afterFolded?_append_cons (by decide)]
  cases afterFolded? "link".toList y with
  | none => rfl
  | some found => exact closesLink_append_congr (u := closer ++ t) (v := closer) rfl found.2

/-- The comment says `link` in any letter case, with a closing bracket or parenthesis behind it
before the line ends, which can be the one that ends the comment. -/
def MentionsLink (body : Text) : Prop :=
  ∃ before word rest, body = before ++ (word ++ rest) ∧ word.map foldCase = "link".toList ∧
    ∃ line c after, rest ++ closer = line ++ c :: after ∧
      '\r' ∉ line ∧ '\n' ∉ line ∧ (c = '>' ∨ c = ')')

theorem mentionsLink_iff (body t : Text) :
    (∃ x y, x ++ y = body ∧ (linkAt? (y ++ (closer ++ t))).isSome = true) ↔ MentionsLink body := by
  simp only [isSome_linkAt?_append, Option.any_eq_true, Prod.exists, afterFolded?_eq_some_iff,
    closesLink_iff]
  constructor
  · rintro ⟨x, y, rfl, word, rest, ⟨rfl, hword⟩, hends⟩
    exact ⟨x, word, rest, rfl, hword, hends⟩
  · rintro ⟨x, word, rest, rfl, hword, hends⟩
    exact ⟨x, _, rfl, word, rest, ⟨rfl, hword⟩, hends⟩

theorem passesOver_linkAt? : PassesOver linkAt? :=
  passesOver_of_word 'l' "ink".toList (by decide) (by decide) fun t ht => by
    rw [linkAt?, show "link".toList = 'l' :: "ink".toList from rfl, ht]

/-- A text of blanks and comments links a stylesheet when one of its comments mentions a link. -/
theorem linksStylesheet_iff (h : LeavesBlanks t) :
    linksStylesheet t = true ↔ ∃ body ∈ bodies t, MentionsLink body := by
  have hparts := passesOver_linkAt?.search_parts_of_mem mentionsLink_iff fun p hp => h.idle hp
  rwa [flatMap_source_parts] at hparts

/-! ## Scripts -/

/-- The text holds an end of a script: a closing tag in any letter case, or a parenthesis. -/
def EndsScript (t : Text) : Prop :=
  ')' ∈ t ∨ ∃ tag, tag <:+: t ∧ tag.map foldCase = "</script>".toList

theorem isSome_scriptEndAt? (t : Text) :
    (scriptEndAt? t).isSome =
      ((afterFolded? "</script>".toList t).isSome || (after? [')'] t).isSome) := by
  rw [scriptEndAt?]
  split
  · rename_i h
    exact h.symm
  · rename_i h
    exact (Bool.eq_false_iff.mpr h).symm

theorem isSome_search_scriptEndAt?_iff :
    (search scriptEndAt? t).isSome = true ↔ EndsScript t := by
  rw [isSome_search_iff]
  simp only [isSome_scriptEndAt?, Bool.or_eq_true, Option.isSome_iff_exists, Prod.exists,
    afterFolded?_eq_some_iff, after?_eq_some_iff]
  constructor
  · rintro ⟨u, v, rfl, ⟨tag, rest, rfl, htag⟩ | ⟨rest, rfl⟩⟩
    · exact .inr ⟨tag, ⟨u, rest, List.append_assoc ..⟩, htag⟩
    · exact .inl (by simp)
  · rintro (hmem | ⟨tag, ⟨u, rest, rfl⟩, htag⟩)
    · obtain ⟨u, rest, rfl⟩ := List.append_of_mem hmem
      exact ⟨u, ')' :: rest, rfl, .inr ⟨rest, rfl⟩⟩
    · exact ⟨u, tag ++ rest, (List.append_assoc ..).symm, .inl ⟨tag, rest, rfl, htag⟩⟩

theorem passesOver_scriptEndAt? : PassesOver scriptEndAt? where
  nil := rfl
  blank c t hc := by
    have hparenthesis : c ≠ ')' := by
      rintro rfl
      exact absurd hc (by decide)
    rw [scriptEndAt?, show "</script>".toList = '<' :: "/script>".toList from rfl,
      afterFolded?_of_isBlank (by decide) hc, after?, if_neg hparenthesis]
    rfl
  opening _ := rfl
  mark c t hc := by
    have hbracket : foldCase c ≠ '<' := fun h =>
      absurd (h ▸ List.mem_map_of_mem hc : '<' ∈ "!->".toList.map foldCase) (by decide)
    have hparenthesis : c ≠ ')' := fun h => absurd (h ▸ hc : ')' ∈ "!->".toList) (by decide)
    rw [scriptEndAt?, show "</script>".toList = '<' :: "/script>".toList from rfl, afterFolded?,
      if_neg hbracket, after?, if_neg hparenthesis]
    rfl

/-- An end of a script ends in front of a character that it does not hold. -/
theorem isSome_scriptEndAt?_append_cons {c : Char} (hc : foldCase c ∉ "</script>".toList)
    (hparenthesis : c ≠ ')') (y t : Text) :
    (scriptEndAt? (y ++ c :: t)).isSome = (scriptEndAt? y).isSome := by
  rw [isSome_scriptEndAt?, isSome_scriptEndAt?, afterFolded?_append_cons hc, Option.isSome_map]
  cases y with
  | nil => simp only [List.nil_append, after?, if_neg hparenthesis]
  | cons d y =>
    simp only [List.cons_append, after?]
    split <;> rfl

theorem isSome_scriptEndAt?_append (y t : Text) :
    (scriptEndAt? (y ++ (closer ++ t))).isSome = (scriptEndAt? y).isSome :=
  isSome_scriptEndAt?_append_cons (c := '-') (by decide) (by decide) y ("->".toList ++ t)

theorem endsScript_iff (body t : Text) :
    (∃ x y, x ++ y = body ∧ (scriptEndAt? (y ++ (closer ++ t))).isSome = true) ↔
      EndsScript body := by
  rw [← isSome_search_scriptEndAt?_iff, isSome_search_iff]
  simp only [isSome_scriptEndAt?_append]

/-- The comment says `script` in any letter case, as a word or the end of one, and an end of a
script stands behind it, in the same comment or in one of the later ones. -/
def OpensScript (body : Text) (later : List Text) : Prop :=
  ∃ before word rest, body = before ++ (word ++ rest) ∧ word.map foldCase = "script".toList ∧
    endsWord rest = true ∧ (EndsScript rest ∨ ∃ other ∈ later, EndsScript other)

/-- One of the comments opens a script. -/
def MentionsScript (bodies : List Text) : Prop :=
  ∃ earlier body later, bodies = earlier ++ body :: later ∧ OpensScript body later

theorem isSome_scriptAt? (t : Text) :
    (scriptAt? t).isSome = (afterFolded? "script".toList t).any fun found =>
      endsWord found.2 && (search scriptEndAt? found.2).isSome := by
  rw [scriptAt?]
  cases afterFolded? "script".toList t with
  | none => rfl
  | some found =>
    show (if (endsWord found.2 && (search scriptEndAt? found.2).isSome) = true then some ()
      else none).isSome = (endsWord found.2 && (search scriptEndAt? found.2).isSome)
    cases endsWord found.2 && (search scriptEndAt? found.2).isSome <;> rfl

/-- A word stays at its end in front of what starts no other. -/
theorem endsWord_append {u : Text} (hu : endsWord u = true) (rest : Text) :
    endsWord (rest ++ u) = endsWord rest := by
  cases rest with
  | nil => exact hu
  | cons c rest => rfl

/-- The mark that ends a comment starts no word. -/
theorem endsWord_closer_append (t : Text) : endsWord (closer ++ t) = true := by
  have hmark : isWordCharacter '-' = false := by decide +kernel
  show (!isWordCharacter '-') = true
  rw [hmark]
  rfl

theorem passesOver_scriptAt? : PassesOver scriptAt? :=
  passesOver_of_word 's' "cript".toList (by decide) (by decide) fun t ht => by
    rw [scriptAt?, show "script".toList = 's' :: "cript".toList from rfl, ht]

theorem opensScript_iff (body : Text) (h : ∀ p ∈ ps, p.Idle) :
    (∃ x y, x ++ y = body ∧
        (scriptAt? (y ++ (closer ++ ps.flatMap Part.source))).isSome = true) ↔
      OpensScript body (ps.filterMap Part.body?) := by
  have hends : ∀ rest : Text,
      (search scriptEndAt? (rest ++ (closer ++ ps.flatMap Part.source))).isSome = true ↔
        EndsScript rest ∨ ∃ other ∈ ps.filterMap Part.body?, EndsScript other := by
    intro rest
    rw [passesOver_scriptEndAt?.search_body, endsScript_iff,
      passesOver_scriptEndAt?.search_parts_of_mem endsScript_iff h]
  have hword : ∀ y : Text, afterFolded? "script".toList (y ++ (closer ++ ps.flatMap Part.source)) =
      (afterFolded? "script".toList y).map fun (written, rest) =>
        (written, rest ++ (closer ++ ps.flatMap Part.source)) :=
    fun y => afterFolded?_append_cons (by decide) y ("->".toList ++ ps.flatMap Part.source)
  simp only [isSome_scriptAt?, hword, Option.any_map, Option.any_eq_true, Prod.exists,
    afterFolded?_eq_some_iff, Bool.and_eq_true, endsWord_append (endsWord_closer_append _), hends]
  constructor
  · rintro ⟨x, y, rfl, word, rest, ⟨rfl, hfold⟩, hends⟩
    exact ⟨x, word, rest, rfl, hfold, hends⟩
  · rintro ⟨x, word, rest, rfl, hfold, hends⟩
    exact ⟨x, _, rfl, word, rest, ⟨rfl, hfold⟩, hends⟩

/-- A text of blanks and comments holds a script when one of its comments opens one. -/
theorem holdsScript_iff (h : LeavesBlanks t) :
    holdsScript t = true ↔ MentionsScript (bodies t) := by
  have hparts := passesOver_scriptAt?.search_parts OpensScript
    (fun body _ hps => opensScript_iff body hps) fun p hp => h.idle hp
  rwa [flatMap_source_parts] at hparts

end Comment
end BuildBlocks
