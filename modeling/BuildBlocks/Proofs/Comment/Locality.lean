import BuildBlocks.Proofs.Comment.Conditional

/-! # Whether a comment is removed, and what stands behind it

A comment is kept when it starts in certain ways, and the reader that tells so is given the whole
text behind the opener.  All that it looks for at the start of a comment ends in front of the
closer, but for one thing: a bracket that ends a condition is looked for in the whole text.  So
the text behind a comment matters when the comment opens a condition in brackets and does not
close it (`OpenCondition`), and in no other case (`removed_local_iff`).
-/
namespace BuildBlocks.Comment
open Text

/-- The text with a comment of the given body between two others. -/
def withComment (before body after : Text) : Text :=
  before ++ (opener ++ (body ++ (closer ++ after)))

/-- The comment between two texts is removed: it is one of the parts of the whole text that are,
in its place. -/
def Removed (before body after : Text) : Prop :=
  ∃ earlier later, parts (withComment before body after) = earlier ++ .removed body :: later ∧
    earlier.flatMap Part.source = before ∧ later.flatMap Part.source = after

/-- The comment opens a condition in brackets that it does not close. -/
def OpenCondition (body : Text) : Prop :=
  ∃ condition, trimStart body = "[if ".toList ++ condition ∧ ']' ∉ condition

variable {before body : Text}

/-- A body without a closer goes up to the closer that is put behind it. -/
theorem cut?_closer_append (hbody : ¬ closer <:+: body) (t : Text) :
    cut? closer (body ++ (closer ++ t)) = some (body, t) := by
  refine search_eq_some_iff.mpr ⟨closer ++ t, rfl, after?_append _ t, fun u v huv hv => ?_⟩
  rw [← Option.not_isSome_iff_eq_none, isSome_after?_iff]
  intro hstart
  match v with
  | [] => exact hv rfl
  | [a] => simp [closer] at hstart
  | [a, b] => simp [closer] at hstart
  | a :: b :: c :: v =>
    obtain ⟨rfl, rfl, rfl⟩ : '-' = a ∧ '-' = b ∧ '>' = c := by simpa [closer] using hstart
    exact hbody ⟨u, v, by rw [← huv, List.append_assoc]; rfl⟩

/-- A comment is kept by itself, or because of a bracket behind it. -/
theorem isKept_append_closer (body t : Text) :
    isKept (body ++ (closer ++ t)) = true ↔
      isKept body = true ∨ OpenCondition body ∧ ']' ∈ t := by
  have htrim : trimStart (body ++ (closer ++ t)) = trimStart body ++ '-' :: ("->".toList ++ t) :=
    trimStart_append_cons (by decide) body _
  rw [isKept_iff, isKept_iff, htrim, prefix_append_cons_iff (by decide),
    prefix_append_cons_iff (by decide), or_assoc, or_assoc]
  refine or_congr_right (or_congr_right ?_)
  constructor
  · rintro ⟨condition, hsource, hmem, hhead⟩
    obtain ⟨own, hown⟩ : "[if ".toList <+: trimStart body :=
      (prefix_append_cons_iff (by decide)).mp ⟨condition, hsource.symm⟩
    rw [← hown, List.append_assoc] at hsource
    obtain rfl := List.append_cancel_left hsource
    by_cases hclosed : ']' ∈ own
    · refine .inl ⟨own, hown.symm, hclosed, ?_⟩
      obtain ⟨d, own, rfl⟩ := List.exists_cons_of_ne_nil (List.ne_nil_of_mem hclosed)
      exact hhead
    · exact .inr ⟨⟨own, hown.symm, hclosed⟩, by simpa [hclosed] using hmem⟩
  · rintro (⟨own, hown, hmem, hhead⟩ | ⟨⟨own, hown, hnot⟩, hmem⟩)
    · refine ⟨own ++ '-' :: ("->".toList ++ t), by rw [hown, List.append_assoc],
        List.mem_append_left _ hmem, ?_⟩
      obtain ⟨d, own, rfl⟩ := List.exists_cons_of_ne_nil (List.ne_nil_of_mem hmem)
      exact hhead
    · refine ⟨own ++ '-' :: ("->".toList ++ t), by rw [hown, List.append_assoc], by simp [hmem], ?_⟩
      cases own with
      | nil => simp
      | cons d own => exact fun hhead => hnot (Option.some.inj hhead ▸ List.mem_cons_self)

/-- A comment whose condition is open is not kept by itself. -/
theorem OpenCondition.isKept_eq_false (h : OpenCondition body) : isKept body = false := by
  obtain ⟨condition, hsource, hopen⟩ := h
  rw [← Bool.not_eq_true, isKept_iff, hsource]
  rintro (hstart | hstart | ⟨other, hother, hclosed, _⟩)
  · simp at hstart
  · simp at hstart
  · obtain rfl := List.append_cancel_left hother
    exact hopen hclosed

/-- The comment behind a text without an opener is the first part behind that text. -/
theorem parts_withComment (hbefore : ¬ opener <:+: before) (hbody : ¬ closer <:+: body) (t : Text) :
    parts (withComment before body t) = .plain before ::
      if isKept (body ++ (closer ++ t)) then .kept :: parts (body ++ (closer ++ t))
      else .removed body :: parts t := by
  rw [withComment, parts_eq_of_cut? (cut?_opener_append hbefore _), cut?_closer_append hbody]

/-- Such a comment is removed when it is not kept. -/
theorem removed_iff_isKept (hbefore : ¬ opener <:+: before) (hbody : ¬ closer <:+: body)
    {t : Text} : Removed before body t ↔ isKept (body ++ (closer ++ t)) = false := by
  rw [Removed, parts_withComment hbefore hbody]
  constructor
  · rintro ⟨earlier, later, hparts, hearlier, _⟩
    by_contra hkept
    rw [if_pos (by simpa using hkept)] at hparts
    -- in front of an opener that is kept there is only the text before it
    match earlier with
    | [] => cases hparts
    | [_] => cases hparts
    | p :: q :: earlier =>
      simp only [List.cons_append, List.cons.injEq] at hparts
      obtain ⟨rfl, rfl, _⟩ := hparts
      simp [Part.source, opener] at hearlier
  · intro hkept
    rw [if_neg (by simp [hkept])]
    exact ⟨[.plain before], parts t, rfl, by simp [Part.source], flatMap_source_parts t⟩

/-- So it is removed when it is not kept by itself, and no bracket behind it closes a condition
that it leaves open. -/
theorem removed_iff (hbefore : ¬ opener <:+: before) (hbody : ¬ closer <:+: body) {t : Text} :
    Removed before body t ↔ isKept body = false ∧ (OpenCondition body → ']' ∉ t) := by
  rw [removed_iff_isKept hbefore hbody, ← Bool.not_eq_true, isKept_append_closer, not_or, not_and,
    Bool.not_eq_true]

/-- **What stands behind a comment decides on it only if the comment leaves a condition open.**
Two texts behind a comment make a difference to whether it is removed exactly when it opens a
condition in brackets without closing it, and one of them holds a closing bracket and the other
does not.  A comment that is removed leaves the texts around it; of one that is not, the opener is
left, and what follows it is looked at in turn. -/
theorem removed_local_iff (hbefore : ¬ opener <:+: before) (hbody : ¬ closer <:+: body) :
    (∀ t u, (Removed before body t ↔ Removed before body u) ↔
      (OpenCondition body → (']' ∈ t ↔ ']' ∈ u))) ∧
    ∀ t, (Removed before body t ↔ isKept body = false ∧ (OpenCondition body → ']' ∉ t)) ∧
      (Removed before body t → strip (withComment before body t) = before ++ strip t) ∧
      (¬ Removed before body t → strip (withComment before body t) =
        before ++ (opener ++ strip (body ++ (closer ++ t)))) := by
  refine ⟨fun t u => ?_, fun t => ⟨removed_iff hbefore hbody, ?_⟩⟩
  · rw [removed_iff hbefore hbody, removed_iff hbefore hbody]
    by_cases hopen : OpenCondition body
    · simp [hopen, hopen.isKept_eq_false, not_iff_not]
    · simp [hopen]
  · rw [removed_iff_isKept hbefore hbody, withComment,
      strip_eq_of_cut? (cut?_opener_append hbefore _), cut?_closer_append hbody]
    constructor
    · intro hkept
      rw [if_neg (by simp [hkept])]
    · intro hkept
      rw [if_pos (by simpa using hkept)]

/-- What a comment says that opens a condition and does not close it. -/
def goneBody : Text :=
  "[if gone <script src=\"old.js\"></script> ".toList

/-- A script whose name holds brackets. -/
def bracketed : Text :=
  "<script src=\"new[1].js\"></script>".toList

/-- A script whose name holds none. -/
def unbracketed : Text :=
  "<script src=\"new.js\"></script>".toList

theorem openCondition_goneBody : OpenCondition goneBody :=
  ⟨"gone <script src=\"old.js\"></script> ".toList, by decide, by decide⟩

/-- The comment is removed in front of the one script and kept in front of the other. -/
theorem removed_goneBody :
    ¬ opener <:+: ([] : Text) ∧ ¬ closer <:+: goneBody ∧
      strip (withComment [] goneBody unbracketed) = unbracketed ∧
      strip (withComment [] goneBody bracketed) = withComment [] goneBody bracketed ∧
      ¬ (Removed [] goneBody unbracketed ↔ Removed [] goneBody bracketed) := by
  have hbefore : ¬ opener <:+: ([] : Text) := by decide
  have hbody : ¬ closer <:+: goneBody := by decide
  obtain ⟨hlocal, hremoved⟩ := removed_local_iff hbefore hbody
  have hdiffer : ¬ (Removed [] goneBody unbracketed ↔ Removed [] goneBody bracketed) := by
    rw [hlocal]
    exact fun hsame => absurd (hsame openCondition_goneBody) (by decide)
  obtain ⟨hiff, hstrip, _⟩ := hremoved unbracketed
  obtain ⟨_, _, hkeep⟩ := hremoved bracketed
  have hgone : Removed [] goneBody unbracketed := hiff.mpr ⟨by decide, fun _ => by decide⟩
  refine ⟨hbefore, hbody, ?_, ?_, hdiffer⟩
  · rw [hstrip hgone, strip_of_holds_eq_false (by decide), List.nil_append]
  · rw [hkeep fun hsame => hdiffer (iff_of_true hgone hsame), strip_of_holds_eq_false (by decide),
      withComment]

/-- Not every comment is removed, or kept, whatever stands behind it. -/
theorem not_all_removed_alike :
    ¬ ∀ before body t u : Text, ¬ opener <:+: before → ¬ closer <:+: body →
      (Removed before body t ↔ Removed before body u) := by
  intro halike
  have hsame := halike [] goneBody unbracketed bracketed (by decide) (by decide)
  rw [removed_iff (by decide) (by decide), removed_iff (by decide) (by decide)] at hsame
  have hremoved := hsame.mp ⟨by decide, fun _ => by decide⟩
  exact hremoved.2 openCondition_goneBody (by decide)

end BuildBlocks.Comment
