import BuildBlocks.Proofs.ConditionalComment.Recognition
import BuildBlocks.Transform

/-! # Conditional comments among the comments that are kept

A conditional comment is recognised in any letter case, with any blank after `[if`, whatever
its condition is (`wellFormed_of_at?`).  When comments are removed only those are kept that are
written in lower case with a space and a condition that does not start with a bracket
(`isKept_conditional_iff`).
-/
namespace BuildBlocks
open Text

namespace Text

/-- Only the character itself folds to one that is no lower-case letter. -/
theorem eq_of_foldCase {c d : Char} (hd : isBetween 'a' 'z' d = false) (h : foldCase c = d) :
    c = d := by
  rw [foldCase] at h
  split at h
  · rename_i hupper
    have hrange : 65 ≤ c.toNat ∧ c.toNat ≤ 90 := by simpa [isBetween] using hupper
    have hlower : ∀ n < 26, isBetween 'a' 'z' (Char.ofNat (65 + n + 32)) = true := by decide
    have hfolded := hlower (c.toNat - 65) (by omega)
    rw [show 65 + (c.toNat - 65) = c.toNat by omega, h, hd] at hfolded
    cases hfolded
  · split at h
    · rw [← h] at hd
      exact absurd hd (by decide)
    · split at h
      · rw [← h] at hd
        exact absurd hd (by decide)
      · exact h

theorem eq_of_map_foldCase {t u : Text} (hu : u.all (fun d => !isBetween 'a' 'z' d) = true)
    (h : t.map foldCase = u) : t = u := by
  induction t generalizing u with
  | nil => exact h
  | cons c t ih =>
    rw [← h, List.map_cons] at hu ⊢
    rw [List.all_cons, Bool.and_eq_true, Bool.not_eq_true'] at hu
    rw [← eq_of_foldCase hu.1 rfl, ← ih hu.2 rfl]

end Text

namespace ConditionalComment

/-- What a conditional comment looks like. -/
structure WellFormed (c : ConditionalComment) : Prop where
  /-- The opener is a comment with `[if` in any letter case, a blank and a condition. -/
  opener : ∃ word blank condition,
    c.opener = Comment.opener ++ '[' :: (word ++ blank :: (condition ++ leadEnd)) ∧
      word.map foldCase = "if".toList ∧ isBlank blank = true ∧ '\n' ∉ condition
  /-- The closer is written in any letter case. -/
  closer : c.closer.map foldCase = closing

/-- The opener is written in lower case with one space, and its condition is not empty and does
not start with a bracket. -/
def Conventional (c : ConditionalComment) : Prop :=
  ∃ condition, c.opener = "<!--[if ".toList ++ (condition ++ leadEnd) ∧
    condition ≠ [] ∧ condition.head? ≠ some ']'

/-- What is read as a conditional comment is one. -/
theorem wellFormed_of_at? {t : Text} {c : ConditionalComment} (h : at? t = some c) :
    c.WellFormed ∧ ∃ inside rest, t = c.opener ++ (inside ++ (c.closer ++ rest)) := by
  obtain ⟨head, condition, inside, after, hread⟩ := at?_eq_some_iff.mp h
  obtain ⟨written, blank, rfl, hwritten, hblank⟩ := hread.isLead
  -- the mark of a comment and the bracket are no letters, so they stand there as they are
  obtain ⟨bracket, word, rfl, hbracket, hword⟩ := List.map_eq_append_iff.mp
    (show written.map foldCase = "<!--[".toList ++ "if".toList from
      (map_foldCase_eq_iff (by decide)).mpr hwritten)
  obtain rfl := eq_of_map_foldCase (by decide) hbracket
  refine ⟨⟨⟨word, blank, condition, ?_, hword, hblank, hread.unbroken⟩,
    isClosing_iff.mp hread.isClosing⟩, inside, after, hread.source⟩
  rw [hread.opener]
  simp [Comment.opener]

theorem wellFormed_of_find {t : Text} {c : ConditionalComment} (h : find t = some c) :
    c.WellFormed := by
  obtain ⟨⟨before, c'⟩, hsearch, rfl⟩ := Option.map_eq_some_iff.mp h
  obtain ⟨rest, _, hat, _⟩ := search_eq_some_iff.mp hsearch
  exact (wellFormed_of_at? hat).1

/-- A closer closes every comment. -/
theorem WellFormed.closer_suffix {c : ConditionalComment} (h : c.WellFormed) :
    Comment.closer <:+ c.closer := by
  obtain ⟨left, right, hsplit, _, hright⟩ := List.map_eq_append_iff.mp
    (show c.closer.map foldCase = "<![endif]".toList ++ Comment.closer from h.closer)
  rw [← eq_of_map_foldCase (by decide) hright, hsplit]
  exact List.suffix_append left right

end ConditionalComment

namespace Comment

/-- A comment is kept when it starts like one of the forms without a condition, or when a condition
in brackets stands there. -/
theorem isKept_iff {body : Text} :
    isKept body = true ↔ "<!".toList <+: trimStart body ∨ ['>'] <+: trimStart body ∨
      ∃ condition, trimStart body = "[if ".toList ++ condition ∧ ']' ∈ condition ∧
        condition.head? ≠ some ']' := by
  have hkept : ∀ condition : Text,
      (holds [']'] condition && (after? [']'] condition).isNone) = true ↔
        ']' ∈ condition ∧ condition.head? ≠ some ']' := by
    intro condition
    rw [Bool.and_eq_true, holds_iff, List.singleton_infix_iff, Option.isNone_iff_eq_none,
      ← Option.not_isSome_iff_eq_none, isSome_after?_iff]
    cases condition <;> simp [eq_comm]
  rw [isKept]
  simp only [Bool.or_eq_true, isSome_after?_iff, or_assoc, ← after?_eq_some_iff]
  refine or_congr_right (or_congr_right ?_)
  cases after? "[if ".toList (trimStart body) with
  | none => simp
  | some condition => simp only [hkept, Option.some.injEq, exists_eq_left']

/-- Of a comment that starts with a bracket only the condition matters. -/
theorem isKept_bracket_iff {t : Text} :
    isKept ('[' :: t) = true ↔
      ∃ condition, t = "if ".toList ++ condition ∧ ']' ∈ condition ∧
        condition.head? ≠ some ']' := by
  have htrim : trimStart ('[' :: t) = '[' :: t := rfl
  have hlead : "[if ".toList = '[' :: "if ".toList := rfl
  rw [isKept_iff, htrim, hlead]
  simp [List.cons_prefix_cons]

theorem cut?_opener_append {before : Text} (h : ¬ opener <:+: before) (body : Text) :
    cut? opener (before ++ (opener ++ body)) = some (before, body) :=
  cut?_append (show opener = '<' :: "!--".toList from rfl) (by decide) h body

/-- The parts of a text with an opener: the text in front of it, the opener alone when it is kept,
and else the comment up to the first closer. -/
theorem parts_eq_of_cut? {t before body : Text} (h : cut? opener t = some (before, body)) :
    parts t = .plain before ::
      if isKept body then .kept :: parts body
      else match cut? closer body with
        | some (inside, rest) => .removed inside :: parts rest
        | none => [.unclosed body] := by
  rw [parts]
  split
  · rename_i hnone
    rw [h] at hnone
    cases hnone
  · rename_i before' body' hcut
    rw [h] at hcut
    obtain ⟨rfl, rfl⟩ := Prod.mk.inj (Option.some.inj hcut)
    split
    · rfl
    · split
      · rename_i hclose
        rw [hclose]
      · rename_i hclose
        rw [hclose]

/-- Nothing is removed from a text without an opener. -/
theorem strip_of_holds_eq_false {t : Text} (h : holds opener t = false) : strip t = t := by
  rw [holds, Option.isSome_eq_false_iff, Option.isNone_iff_eq_none] at h
  rw [strip, parts]
  split
  · simp [Part.remainder, Part.source]
  · rename_i hcut
    rw [h] at hcut
    cases hcut

/-- Removing comments goes on behind the first opener, when it is kept, and else behind the
first closer after it. -/
theorem strip_eq_of_cut? {t before body : Text} (h : cut? opener t = some (before, body)) :
    strip t =
      if isKept body then before ++ (opener ++ strip body)
      else match cut? closer body with
        | some (_, rest) => before ++ strip rest
        | none => before ++ (opener ++ body) := by
  rw [strip, parts_eq_of_cut? h]
  split
  · simp [Part.remainder, Part.source, strip]
  · cases cut? closer body <;> simp [Part.remainder, Part.source, strip]

end Comment

/-- **Which conditional comments are kept.**  Of the comment that is recognised in a text the
opener is kept when it is a conventional one, and only then.  If no other comment opens before
it, what follows is looked at in turn; a comment that is not kept is removed up to the first
closer. -/
theorem isKept_conditional_iff {t before : Text} {c : ConditionalComment}
    (h : search ConditionalComment.at? t = some (before, c)) :
    ∃ body, t = before ++ (Comment.opener ++ body) ∧ c.opener <+: Comment.opener ++ body ∧
      (Comment.isKept body = true ↔ c.Conventional) ∧
      (¬ Comment.opener <:+: before →
        ∃ inside rest, cut? Comment.closer body = some (inside, rest) ∧
          Comment.strip t =
            if Comment.isKept body then before ++ (Comment.opener ++ Comment.strip body)
            else before ++ Comment.strip rest) := by
  obtain ⟨tail, rfl, hat, _⟩ := search_eq_some_iff.mp h
  obtain ⟨hc, inside, after, rfl⟩ := ConditionalComment.wellFormed_of_at? hat
  obtain ⟨word, blank, condition, hopener, hword, _, _⟩ := hc.opener
  let follows := condition ++ (ConditionalComment.leadEnd ++ (inside ++ (c.closer ++ after)))
  have hsource : c.opener ++ (inside ++ (c.closer ++ after)) =
      Comment.opener ++ '[' :: (word ++ blank :: follows) := by
    rw [hopener]
    simp [follows]
  refine ⟨'[' :: (word ++ blank :: follows), by rw [hsource], ?_, ?_, fun hbefore => ?_⟩
  · rw [← hsource]
    exact List.prefix_append _ _
  · have hmem : ']' ∈ follows := by simp [follows, ConditionalComment.leadEnd]
    have hhead : follows.head? ≠ some ']' ↔ condition ≠ [] ∧ condition.head? ≠ some ']' := by
      cases condition <;> simp [follows, ConditionalComment.leadEnd]
    -- the word has two letters, so it ends where the literal one does
    have hlength : word.length = "if".toList.length := by rw [← hword, List.length_map]
    rw [Comment.isKept_bracket_iff, ConditionalComment.Conventional]
    constructor
    · rintro ⟨other, hother, _, hne⟩
      obtain ⟨rfl, hrest⟩ := List.append_inj
        (show word ++ blank :: follows = "if".toList ++ ' ' :: other from hother) hlength
      obtain ⟨rfl, rfl⟩ := List.cons.inj hrest
      exact ⟨condition, hopener, hhead.mp hne⟩
    · rintro ⟨other, hother, hne⟩
      have hsame : Comment.opener ++ '[' ::
            (word ++ blank :: (condition ++ ConditionalComment.leadEnd)) =
          Comment.opener ++ '[' ::
            ("if".toList ++ ' ' :: (other ++ ConditionalComment.leadEnd)) :=
        hopener.symm.trans hother
      obtain ⟨rfl, hrest⟩ :=
        List.append_inj (List.cons.inj (List.append_cancel_left hsame)).2 hlength
      obtain ⟨rfl, hcondition⟩ := List.cons.inj hrest
      obtain rfl := List.append_cancel_right hcondition
      exact ⟨follows, rfl, hmem, hhead.mpr hne⟩
  · -- the comment's own closer closes it, if none before does
    have hclosed : Comment.closer <:+: '[' :: (word ++ blank :: follows) := by
      have hinside : c.closer <:+: '[' :: (word ++ blank :: follows) :=
        ⟨'[' :: (word ++ blank :: (condition ++ (ConditionalComment.leadEnd ++ inside))), after,
          by simp [follows]⟩
      exact hc.closer_suffix.isInfix.trans hinside
    obtain ⟨⟨inside', rest⟩, hclose⟩ := Option.isSome_iff_exists.mp (holds_iff.mpr hclosed)
    refine ⟨inside', rest, hclose, ?_⟩
    rw [hsource, Comment.strip_eq_of_cut? (Comment.cut?_opener_append hbefore _), hclose]

/-- A script block whose conditional comment is written in capitals. -/
def shouted : Text :=
  "<!-- build:js ie.js -->\n".toList ++
    "<!--[IF lt IE 9]>\n".toList ++
    "<script src=\"shiv.js\"></script>\n".toList ++
    "<![endif]-->\n".toList ++
    "<!-- endbuild -->\n".toList

/-- What follows `<!--` in the inner text of the block of `shouted`. -/
def shoutedBody : Text :=
  "[IF lt IE 9]>\n<script src=\"shiv.js\"></script>\n<![endif]-->".toList

/-- The conditional comment of the block of `shouted`. -/
def shoutedComment : ConditionalComment :=
  ⟨"<!--[IF lt IE 9]>".toList, "<![endif]-->".toList⟩

theorem search_shoutedBody :
    search ConditionalComment.at? (Comment.opener ++ shoutedBody) = some ([], shoutedComment) := by
  decide

theorem not_conventional_shoutedComment : ¬ shoutedComment.Conventional := by
  rintro ⟨condition, hopener, _⟩
  have hprefix : "<!--[if ".toList <+: shoutedComment.opener := by
    rw [hopener]
    exact List.prefix_append _ _
  exact absurd hprefix (by decide)

/-- In `shouted` the reference is put into the conditional comment, and what stands in the
comment is removed before assets are looked for. -/
theorem strip_shoutedBody :
    search ConditionalComment.at? (Comment.opener ++ shoutedBody) = some ([], shoutedComment) ∧
      Comment.strip (Comment.opener ++ shoutedBody) = [] ∧
      (transform shouted .default).content =
        "<!--[IF lt IE 9]>\n<script src=\"ie.js\"></script>\n<![endif]-->\n".toList ∧
      (transform shouted .default).manifest.get? "js".toList "ie.js".toList =
        some ⟨[], none⟩ := by
  refine ⟨search_shoutedBody, ?_, by decide +kernel, by decide +kernel⟩
  obtain ⟨body, hsource, _, hkept, hstrip⟩ := isKept_conditional_iff search_shoutedBody
  rw [List.nil_append] at hsource
  obtain rfl := List.append_cancel_left hsource
  obtain ⟨inside, rest, hclose, hstrip⟩ := hstrip (by decide)
  have hrest : (cut? Comment.closer shoutedBody).map Prod.snd = some [] := by decide
  rw [hclose] at hrest
  obtain rfl : rest = [] := Option.some.inj hrest
  rw [hstrip, if_neg fun h => not_conventional_shoutedComment (hkept.mp h)]
  decide +kernel

/-- Not every conditional comment that is recognised is kept. -/
theorem not_all_conditional_kept :
    ¬ ∀ (t before body : Text) (c : ConditionalComment),
      search ConditionalComment.at? t = some (before, c) →
      t = before ++ (Comment.opener ++ body) → Comment.isKept body = true := by
  intro hkept
  exact absurd (hkept _ [] shoutedBody shoutedComment search_shoutedBody rfl) (by decide)

end BuildBlocks
