import BuildBlocks.Proofs.Comment.Wording

/-! # Where conditional comments are recognised

A conditional comment starts where `<!--[if` and a blank are followed by some `]>` on the same line
and by some closer anywhere behind it (`Starts`).  It is read up to the first `]>` and the first
closer: nothing is lost by stopping early, since whatever stands behind a later end also stands
behind the first (`isSome_at?_iff`).  A search then finds the leftmost place where one starts
(`find_eq_some_iff`).
-/
namespace BuildBlocks
open Text

namespace Text
variable {t u before : Text}

/-- Nothing for which `p` holds starts in the text further left than behind `before`. -/
def Earliest (p : Text → Prop) (t before : Text) : Prop :=
  ∀ u v, t = u ++ v → p v → before.length ≤ u.length

/-- A search finds the earliest place at which something can be read. -/
theorem search_eq_some_iff_earliest {α : Type} {read : Text → Option α} {p : Text → Prop} {a : α}
    (hp : ∀ v, (read v).isSome = true ↔ p v) :
    search read t = some (before, a) ↔
      ∃ rest, t = before ++ rest ∧ read rest = some a ∧ Earliest p t before := by
  rw [search_eq_some_iff]
  refine exists_congr fun rest => and_congr_right fun ht => and_congr_right fun _ => ?_
  constructor
  · intro hnone u v hsplit hv
    by_contra hlength
    rw [ht] at hsplit
    rcases List.append_eq_append_iff.mp hsplit with ⟨gap, rfl, _⟩ | ⟨gap, hbefore, rfl⟩
    · simp at hlength
    · have hgap : gap ≠ [] := by
        rintro rfl
        rw [hbefore, List.append_nil] at hlength
        exact hlength (Nat.le_refl _)
      rw [← hp, hnone u gap hbefore.symm hgap] at hv
      cases hv
  · intro hearliest u v hsplit hv
    rw [← Option.not_isSome_iff_eq_none, hp]
    intro hread
    have hlength := hearliest u (v ++ rest) (by rw [ht, ← hsplit, List.append_assoc]) hread
    rw [← hsplit, List.length_append] at hlength
    exact hv (List.length_eq_zero_iff.mp (by omega))

/-- What can be read at the start of a text is found there. -/
theorem search_of_read {α : Type} {read : Text → Option α} {a : α} (h : read t = some a) :
    search read t = some ([], a) := by
  cases t with
  | nil => rw [search, h]; rfl
  | cons c t => rw [search, h]

/-! ## Letters in any case -/

/-- Case is folded as in the Latin alphabet, but for two letters outside of it. -/
theorem foldCase_eq (c : Char) :
    foldCase c = if c = '\u212A' then 'k' else if c = '\u017F' then 's' else c.toLower := by
  by_cases hupper : isBetween 'A' 'Z' c = true
  · have hrange : 65 ≤ c.toNat ∧ c.toNat ≤ 90 := by simpa [isBetween] using hupper
    have hletters : ∀ n < 26, Char.ofNat (65 + n) ≠ '\u212A' ∧ Char.ofNat (65 + n) ≠ '\u017F' ∧
        (Char.ofNat (65 + n)).toLower = Char.ofNat (65 + n + 32) := by decide
    obtain ⟨hkelvin, hlong, hlower⟩ := hletters (c.toNat - 65) (by omega)
    rw [show 65 + (c.toNat - 65) = c.toNat by omega, Char.ofNat_toNat] at hkelvin hlong hlower
    rw [foldCase, if_pos hupper, if_neg hkelvin, if_neg hlong, hlower]
  · have hlower : c.toLower = c := by
      refine dif_neg fun h => hupper ?_
      simp only [isBetween, Bool.and_eq_true, decide_eq_true_eq]
      exact h
    have hkelvin : c.toNat = 0x212A ↔ c = '\u212A' := Char.toNat_inj (d := '\u212A')
    have hlong : c.toNat = 0x17F ↔ c = '\u017F' := Char.toNat_inj (d := '\u017F')
    rw [foldCase, if_neg hupper, hlower]
    simp only [hkelvin, hlong]

/-- Apart from `k` and `s` a letter is written in two ways. -/
theorem map_foldCase_eq_iff {word : Text}
    (hword : word.all (fun d => !"ks\u212A\u017F".toList.contains d) = true) :
    t.map foldCase = word ↔ t.map Char.toLower = word := by
  induction t generalizing word with
  | nil => rfl
  | cons c t ih =>
    cases word with
    | nil => simp
    | cons d word =>
      rw [List.all_cons, Bool.and_eq_true] at hword
      obtain ⟨hd, hword⟩ := hword
      rw [List.map_cons, List.map_cons, List.cons.injEq, List.cons.injEq, ih hword]
      refine and_congr_left fun _ => ?_
      have hd' : d ≠ 'k' ∧ d ≠ 's' ∧ d ≠ '\u212A' ∧ d ≠ '\u017F' := by simpa using hd
      obtain ⟨hk, hs, hkelvin, hlong⟩ := hd'
      rw [foldCase_eq]
      split
      · rename_i hc
        refine iff_of_false (fun h => hk h.symm) fun h => hkelvin ?_
        rw [← h, hc]
        decide
      · split
        · rename_i hc
          refine iff_of_false (fun h => hs h.symm) fun h => hlong ?_
          rw [← h, hc]
          decide
        · rfl

end Text

namespace ConditionalComment

/-- The text is `<!--[if` in any letter case and one blank. -/
def IsLead (t : Text) : Prop :=
  ∃ written blank, t = written ++ [blank] ∧
    written.map Char.toLower = "<!--[if".toList ∧ isBlank blank = true

/-- The text is `<![endif]-->` in any letter case. -/
def IsClosing (t : Text) : Prop :=
  t.map Char.toLower = "<![endif]-->".toList

/-- The text starts with a closer. -/
def Closes (t : Text) : Prop :=
  ∃ closer, IsClosing closer ∧ closer <+: t

/-- A conditional comment starts the text: a `]>` on the line behind the blank, and a closer
anywhere behind that. -/
def Starts (t : Text) : Prop :=
  ∃ head condition inside closer after,
    t = head ++ (condition ++ (leadEnd ++ (inside ++ (closer ++ after)))) ∧
      IsLead head ∧ '\n' ∉ condition ∧ IsClosing closer

/-- How the conditional comment is read that starts a text. -/
structure ReadAs (c : ConditionalComment) (t head condition inside after : Text) : Prop where
  source : t = c.opener ++ (inside ++ (c.closer ++ after))
  opener : c.opener = head ++ (condition ++ leadEnd)
  isLead : IsLead head
  unbroken : '\n' ∉ condition
  /-- The opener ends at the first `]>`. -/
  earliestEnd : Earliest (leadEnd <+: ·)
    (condition ++ (leadEnd ++ (inside ++ (c.closer ++ after)))) condition
  isClosing : IsClosing c.closer
  /-- The closer is the first one behind the opener. -/
  earliestClosing : Earliest Closes (inside ++ (c.closer ++ after)) inside

variable {t rest head condition inside closer after opened : Text} {c : ConditionalComment}

/-! ## The condition -/

theorem cut?_leadEnd_eq_some_iff :
    cut? leadEnd t = some (condition, rest) ↔
      t = condition ++ (leadEnd ++ rest) ∧ Earliest (leadEnd <+: ·) t condition := by
  rw [cut?, search_eq_some_iff_earliest fun v => isSome_after?_iff]
  simp only [after?_eq_some_iff]
  constructor
  · rintro ⟨_, ht, rfl, hearliest⟩
    exact ⟨ht, hearliest⟩
  · rintro ⟨ht, hearliest⟩
    exact ⟨_, ht, rfl, hearliest⟩

theorem condition?_eq_some_iff :
    condition? t = some (opened, rest) ↔
      ∃ condition, opened = condition ++ leadEnd ∧ t = condition ++ (leadEnd ++ rest) ∧
        '\n' ∉ condition ∧ Earliest (leadEnd <+: ·) t condition := by
  rw [condition?]
  constructor
  · intro h
    split at h
    · rename_i condition rest' hfound
      split at h
      · cases h
      · rename_i hunbroken
        obtain ⟨rfl, rfl⟩ := Prod.mk.inj (Option.some.inj h)
        obtain ⟨ht, hearliest⟩ := cut?_leadEnd_eq_some_iff.mp hfound
        exact ⟨condition, rfl, ht, by simpa using hunbroken, hearliest⟩
    · cases h
  · rintro ⟨condition, rfl, ht, hunbroken, hearliest⟩
    rw [cut?_leadEnd_eq_some_iff.mpr ⟨ht, hearliest⟩]
    exact if_neg (by simpa using hunbroken)

/-- Some end on the line is enough, for the first one is on it too. -/
theorem exists_condition? (hunbroken : '\n' ∉ condition) (rest : Text) :
    ∃ opened later, condition? (condition ++ (leadEnd ++ rest)) = some (opened, later) ∧
      rest <:+ later := by
  have hholds : holds leadEnd (condition ++ (leadEnd ++ rest)) = true :=
    holds_iff.mpr ⟨condition, rest, List.append_assoc ..⟩
  obtain ⟨⟨first, later⟩, hcut⟩ := Option.isSome_iff_exists.mp hholds
  obtain ⟨hsource, hearliest⟩ := cut?_leadEnd_eq_some_iff.mp hcut
  have hwithin : first <+: condition := by
    refine List.prefix_of_prefix_length_le ?_ (List.prefix_append condition (leadEnd ++ rest)) ?_
    · rw [hsource]
      exact List.prefix_append _ _
    · exact hearliest condition (leadEnd ++ rest) rfl (List.prefix_append _ _)
  have hfirst : '\n' ∉ first := fun hmem => hunbroken (hwithin.subset hmem)
  refine ⟨first ++ leadEnd, later,
    condition?_eq_some_iff.mpr ⟨first, rfl, hsource, hfirst, hearliest⟩, ?_⟩
  -- both are what follows an end, and the first end stands further left
  obtain ⟨gap, rfl⟩ := hwithin
  have hbehind : gap ++ leadEnd ++ rest = leadEnd ++ later := by
    rw [List.append_assoc] at hsource
    rw [List.append_assoc]
    exact List.append_cancel_left hsource
  refine List.suffix_of_suffix_length_le (List.suffix_append (gap ++ leadEnd) rest) ?_ ?_
  · rw [hbehind]
    exact List.suffix_append _ _
  · have hlength := congrArg List.length hbehind
    simp only [List.length_append] at hlength
    omega

/-! ## The closer -/

theorem isClosing_iff : IsClosing t ↔ t.map foldCase = closing :=
  (map_foldCase_eq_iff (by decide)).symm

theorem isSome_afterFolded?_closing :
    (afterFolded? closing t).isSome = true ↔ Closes t := by
  rw [Option.isSome_iff_exists]
  constructor
  · rintro ⟨⟨closer, rest⟩, h⟩
    obtain ⟨rfl, hcloser⟩ := afterFolded?_eq_some_iff.mp h
    exact ⟨closer, isClosing_iff.mpr hcloser, List.prefix_append _ _⟩
  · rintro ⟨closer, hcloser, rest, rfl⟩
    exact ⟨(closer, rest), afterFolded?_eq_some_iff.mpr ⟨rfl, isClosing_iff.mp hcloser⟩⟩

theorem search_closing_eq_some_iff :
    search (afterFolded? closing) t = some (inside, closer, after) ↔
      t = inside ++ (closer ++ after) ∧ IsClosing closer ∧ Earliest Closes t inside := by
  rw [search_eq_some_iff_earliest fun v => isSome_afterFolded?_closing, isClosing_iff]
  simp only [afterFolded?_eq_some_iff]
  constructor
  · rintro ⟨_, ht, ⟨rfl, hcloser⟩, hearliest⟩
    exact ⟨ht, hcloser, hearliest⟩
  · rintro ⟨ht, hcloser, hearliest⟩
    exact ⟨_, ht, ⟨rfl, hcloser⟩, hearliest⟩

/-! ## Conditional comments at the start of a text -/

/-- Behind its lead a conditional comment is read as a condition and what follows up to a closer. -/
theorem at?_append (h : IsLead head) (rest : Text) :
    at? (head ++ rest) = (condition? rest).bind fun (condition, rest) =>
      (search (afterFolded? closing) rest).map fun (_, closer, _) =>
        ⟨head ++ condition, closer⟩ := by
  obtain ⟨written, blank, rfl, hwritten, hblank⟩ := h
  have hlead : afterFolded? lead (written ++ [blank] ++ rest) = some (written, blank :: rest) :=
    afterFolded?_eq_some_iff.mpr ⟨by simp, (map_foldCase_eq_iff (by decide)).mpr hwritten⟩
  rw [at?, hlead]
  simp only [hblank, if_true, List.append_assoc, List.cons_append, List.nil_append]

theorem exists_lead_of_at? (h : at? t = some c) : ∃ head rest, t = head ++ rest ∧ IsLead head := by
  rw [at?] at h
  split at h
  · rename_i written blank rest hlead
    split at h
    · rename_i hblank
      obtain ⟨rfl, hwritten⟩ := afterFolded?_eq_some_iff.mp hlead
      exact ⟨written ++ [blank], rest, by simp, written, blank, rfl,
        (map_foldCase_eq_iff (by decide)).mp hwritten, hblank⟩
    · cases h
  · cases h

theorem at?_eq_some_iff :
    at? t = some c ↔ ∃ head condition inside after, c.ReadAs t head condition inside after := by
  constructor
  · intro h
    obtain ⟨head, rest, rfl, hlead⟩ := exists_lead_of_at? h
    rw [at?_append hlead] at h
    obtain ⟨⟨opened, later⟩, hcondition, h⟩ := Option.bind_eq_some_iff.mp h
    obtain ⟨⟨inside, closer, after⟩, hclosing, rfl⟩ := Option.map_eq_some_iff.mp h
    obtain ⟨condition, rfl, rfl, hunbroken, hend⟩ := condition?_eq_some_iff.mp hcondition
    obtain ⟨rfl, hcloser, hfirst⟩ := search_closing_eq_some_iff.mp hclosing
    exact ⟨head, condition, inside, after, by simp, rfl, hlead, hunbroken, hend, hcloser, hfirst⟩
  · rintro ⟨head, condition, inside, after, h⟩
    have hcondition : condition? (condition ++ (leadEnd ++ (inside ++ (c.closer ++ after)))) =
        some (condition ++ leadEnd, inside ++ (c.closer ++ after)) :=
      condition?_eq_some_iff.mpr ⟨condition, rfl, rfl, h.unbroken, h.earliestEnd⟩
    have hclosing : search (afterFolded? closing) (inside ++ (c.closer ++ after)) =
        some (inside, c.closer, after) :=
      search_closing_eq_some_iff.mpr ⟨rfl, h.isClosing, h.earliestClosing⟩
    rw [h.source, h.opener, List.append_assoc, List.append_assoc, at?_append h.isLead, hcondition,
      Option.bind_some]
    show (search (afterFolded? closing) _).map _ = _
    rw [hclosing, Option.map_some, ← h.opener]

/-- Something is read at the start of a text exactly when a conditional comment starts there. -/
theorem isSome_at?_iff : (at? t).isSome = true ↔ Starts t := by
  constructor
  · intro h
    obtain ⟨c, hc⟩ := Option.isSome_iff_exists.mp h
    obtain ⟨head, condition, inside, after, h⟩ := at?_eq_some_iff.mp hc
    refine ⟨head, condition, inside, c.closer, after, ?_, h.isLead, h.unbroken, h.isClosing⟩
    rw [h.source, h.opener]
    simp only [List.append_assoc]
  · rintro ⟨head, condition, inside, closer, after, rfl, hlead, hunbroken, hcloser⟩
    obtain ⟨opened, later, hcondition, front, hlater⟩ :=
      exists_condition? hunbroken (inside ++ (closer ++ after))
    rw [at?_append hlead, hcondition, Option.bind_some]
    show ((search (afterFolded? closing) later).map _).isSome = true
    rw [Option.isSome_map, isSome_search_iff]
    refine ⟨front ++ inside, closer ++ after, by rw [← hlater, List.append_assoc], ?_⟩
    exact isSome_afterFolded?_closing.mpr ⟨closer, hcloser, List.prefix_append _ _⟩

/-- A search finds the leftmost conditional comment. -/
theorem find_eq_some_iff :
    find t = some c ↔ ∃ before rest, t = before ++ rest ∧ Earliest Starts t before ∧
      ∃ head condition inside after, c.ReadAs rest head condition inside after := by
  rw [find, Option.map_eq_some_iff]
  constructor
  · rintro ⟨⟨before, _⟩, hsearch, rfl⟩
    obtain ⟨rest, ht, hat, hearliest⟩ :=
      (search_eq_some_iff_earliest fun v => isSome_at?_iff).mp hsearch
    exact ⟨before, rest, ht, hearliest, at?_eq_some_iff.mp hat⟩
  · rintro ⟨before, rest, ht, hearliest, hread⟩
    refine ⟨(before, c), ?_, rfl⟩
    exact (search_eq_some_iff_earliest fun v => isSome_at?_iff).mpr
      ⟨rest, ht, at?_eq_some_iff.mpr hread, hearliest⟩

theorem exists_find_iff :
    (∃ c, find t = some c) ↔ ∃ before rest, t = before ++ rest ∧ Starts rest := by
  rw [← Option.isSome_iff_exists, find, Option.isSome_map, isSome_search_iff]
  exact exists_congr fun before => exists_congr fun rest => and_congr eq_comm isSome_at?_iff

/-! ## Conditional comments put together anew -/

/-- An opener opens a conditional comment in front of every text that holds a closer. -/
theorem ReadAs.at?_opener_append (h : c.ReadAs t head condition inside after) (front : Text)
    (hrest : Closes rest) :
    ∃ closer, at? (c.opener ++ (front ++ rest)) = some ⟨c.opener, closer⟩ := by
  have hend : ¬ leadEnd <:+: condition :=
    not_infix_of_cut? (by decide) (cut?_leadEnd_eq_some_iff.mpr ⟨rfl, h.earliestEnd⟩)
  have hcut : cut? leadEnd (condition ++ (leadEnd ++ (front ++ rest))) =
      some (condition, front ++ rest) :=
    cut?_append (show leadEnd = ']' :: ['>'] from rfl) (by decide) hend _
  have hcondition : condition? (condition ++ (leadEnd ++ (front ++ rest))) =
      some (condition ++ leadEnd, front ++ rest) := by
    rw [condition?, hcut]
    exact if_neg (by simpa using h.unbroken)
  have hclosing : (search (afterFolded? closing) (front ++ rest)).isSome = true :=
    isSome_search_iff.mpr ⟨front, rest, rfl, isSome_afterFolded?_closing.mpr hrest⟩
  obtain ⟨⟨inside', closer, after'⟩, hclosing⟩ := Option.isSome_iff_exists.mp hclosing
  refine ⟨closer, ?_⟩
  rw [h.opener, List.append_assoc, List.append_assoc, at?_append h.isLead, hcondition,
    Option.bind_some]
  show (search (afterFolded? closing) _).map _ = _
  rw [hclosing, Option.map_some]

/-- No conditional comment starts at a blank. -/
theorem find_blanks_append {blanks : Text} (hblanks : ∀ c ∈ blanks, isBlank c = true) (t : Text) :
    find (blanks ++ t) = find t := by
  induction blanks with
  | nil => rfl
  | cons blank blanks ih =>
    obtain ⟨hblank, hblanks⟩ := List.forall_mem_cons.mp hblanks
    have hnone : at? (blank :: (blanks ++ t)) = none := by
      rw [at?, show lead = '<' :: "!--[if".toList from rfl,
        afterFolded?_of_isBlank (by decide) hblank]
    rw [← ih hblanks, find, find, List.cons_append, search, hnone, Option.map_map]
    rfl

end ConditionalComment
end BuildBlocks
