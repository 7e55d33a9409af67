import BuildBlocks.Text.Blank

/-! # Searches and trimmed texts

When a search finds nothing (`search_eq_none_iff`), how a text is cut where a class of
characters ends (`takeWhile_append_cons`), and what a text looks like without the blanks at
its ends (`trimmed_trim`).
-/
namespace BuildBlocks.Text

/-- A search fails exactly when nothing can be read anywhere. -/
theorem search_eq_none_iff {α : Type} {read : Text → Option α} {t : Text} :
    search read t = none ↔ ∀ u v, u ++ v = t → read v = none := by
  induction t with
  | nil =>
    rw [search, Option.map_eq_none_iff]
    constructor
    · intro h u v huv
      rw [(List.append_eq_nil_iff.mp huv).2]
      exact h
    · exact fun h => h [] [] rfl
  | cons c t ih =>
    cases hc : read (c :: t) with
    | some a =>
      simp only [search, hc, reduceCtorEq, false_iff]
      intro h
      rw [h [] (c :: t) rfl] at hc
      cases hc
    | none =>
      simp only [search, hc, Option.map_eq_none_iff, ih]
      constructor
      · intro h u v huv
        cases u with
        | nil =>
          rw [List.nil_append] at huv
          rw [huv, hc]
        | cons d u =>
          rw [List.cons_append] at huv
          exact h u v (List.cons.inj huv).2
      · exact fun h u v huv => h (c :: u) v (by rw [List.cons_append, huv])

section Class
variable {p : Char → Bool} {t : Text} {c : Char}

/-- The characters of a class reach up to the first one outside of it. -/
theorem takeWhile_append_cons (ht : ∀ d ∈ t, p d = true) (hc : p c = false) (rest : Text) :
    (t ++ c :: rest).takeWhile p = t ∧ (t ++ c :: rest).dropWhile p = c :: rest := by
  rw [List.takeWhile_append_of_pos ht, List.dropWhile_append_of_pos ht,
    List.takeWhile_cons_of_neg (by simp [hc]), List.dropWhile_cons_of_neg (by simp [hc]),
    List.append_nil]
  exact ⟨rfl, rfl⟩

/-- The characters of a class reach up to a text that does not start with one. -/
theorem takeWhile_append_of_head? {rest : Text} (ht : ∀ d ∈ t, p d = true)
    (hrest : ∀ c ∈ rest.head?, p c = false) :
    (t ++ rest).takeWhile p = t ∧ (t ++ rest).dropWhile p = rest := by
  cases rest with
  | nil =>
    rw [List.takeWhile_append_of_pos ht, List.dropWhile_append_of_pos ht]
    exact ⟨List.append_nil t, rfl⟩
  | cons c rest => exact takeWhile_append_cons ht (hrest c rfl) rest

theorem head?_dropWhile (h : (t.dropWhile p).head? = some c) : p c = false := by
  have := List.head?_dropWhile_not p t
  rw [h] at this
  simpa using this

theorem not_mem_of_isBlank (ht : t.all (!isBlank ·) = true) (hc : isBlank c = true) : c ∉ t := by
  intro hmem
  have hnot := List.all_eq_true.mp ht c hmem
  rw [hc] at hnot
  cases hnot

end Class

/-! ## Trimmed texts -/

/-- No blank stands at either end of the text. -/
def Trimmed (t : Text) : Prop :=
  (∀ c, t.head? = some c → isBlank c = false) ∧ ∀ c, t.getLast? = some c → isBlank c = false

/-- What is removed at the end of a text is blank. -/
theorem exists_trimEnd_append (t : Text) :
    ∃ blanks, (∀ c ∈ blanks, isBlank c = true) ∧ t = trimEnd t ++ blanks := by
  induction t with
  | nil => exact ⟨[], fun c hc => absurd hc List.not_mem_nil, rfl⟩
  | cons c t ih =>
    obtain ⟨blanks, hblanks, h⟩ := ih
    rw [trimEnd]
    split
    · rename_i hnil
      rw [hnil, List.nil_append] at h
      split
      · rename_i hc
        refine ⟨c :: t, List.forall_mem_cons.mpr ⟨hc, ?_⟩, rfl⟩
        rwa [h]
      · exact ⟨t, by rwa [h], rfl⟩
    · rename_i d rest hcons
      rw [hcons] at h
      exact ⟨blanks, hblanks, by rw [h]; rfl⟩

theorem getLast?_trimEnd {t : Text} {c : Char} (h : (trimEnd t).getLast? = some c) :
    isBlank c = false := by
  induction t with
  | nil => cases h
  | cons d t ih =>
    rw [trimEnd] at h
    split at h
    · split at h
      · cases h
      · rename_i hblank
        rw [List.getLast?_singleton, Option.some.injEq] at h
        rw [← h]
        simpa using hblank
    · rename_i e rest hcons
      rw [List.getLast?_cons_cons, ← hcons] at h
      exact ih h

/-- A text is trimmed once the blanks at its ends are gone. -/
theorem trimmed_trim (t : Text) : Trimmed (trim t) := by
  refine ⟨fun c hc => ?_, fun c hc => getLast?_trimEnd hc⟩
  -- removing blanks at the end leaves the first character where it is
  obtain ⟨blanks, _, h⟩ := exists_trimEnd_append (trimStart t)
  obtain ⟨rest, hrest⟩ := List.head?_eq_some_iff.mp hc
  have hstart : (trimStart t).head? = some c := by
    rw [h]
    show (trim t ++ blanks).head? = some c
    rw [hrest]
    rfl
  exact head?_dropWhile hstart

/-- A trimmed text holds nothing new. -/
theorem mem_of_mem_trim {t : Text} {c : Char} (h : c ∈ trim t) : c ∈ t := by
  obtain ⟨blanks, _, hstart⟩ := exists_trimEnd_append (trimStart t)
  have hmem : c ∈ trimStart t := by
    rw [hstart]
    exact List.mem_append_left _ h
  exact (List.dropWhile_suffix _).subset hmem

/-- A trimmed text stands between blanks in the text that it is trimmed from. -/
theorem exists_blanks_trim (t : Text) :
    ∃ front back, (∀ c ∈ front, isBlank c = true) ∧ (∀ c ∈ back, isBlank c = true) ∧
      t = front ++ (trim t ++ back) := by
  obtain ⟨back, hback, h⟩ := exists_trimEnd_append (trimStart t)
  refine ⟨indentation t, back, fun c hc => ?_, hback, ?_⟩
  · exact List.all_eq_true.mp List.all_takeWhile c hc
  · rw [trim, ← h, indentation_append_trimStart]

theorem trimEnd_blanks {blanks : Text} (h : ∀ c ∈ blanks, isBlank c = true) :
    trimEnd blanks = [] := by
  induction blanks with
  | nil => rfl
  | cons c blanks ih =>
    obtain ⟨hc, hblanks⟩ := List.forall_mem_cons.mp h
    rw [trimEnd, ih hblanks]
    exact if_pos hc

/-- Only the blanks behind the last other character are removed at the end. -/
theorem trimEnd_append_blanks {t blanks : Text} (ht : ∀ c, t.getLast? = some c → isBlank c = false)
    (hblanks : ∀ c ∈ blanks, isBlank c = true) : trimEnd (t ++ blanks) = t := by
  induction t with
  | nil => exact trimEnd_blanks hblanks
  | cons c t ih =>
    rw [List.cons_append, trimEnd]
    cases t with
    | nil =>
      rw [List.nil_append, trimEnd_blanks hblanks]
      exact if_neg (by simp [ht c rfl])
    | cons d t => rw [ih fun e he => ht e (by rwa [List.getLast?_cons_cons])]

/-- Blanks around a text without blanks at its ends are what is removed. -/
theorem trim_blanks_append {t front back : Text} (ht : Trimmed t)
    (hfront : ∀ c ∈ front, isBlank c = true) (hback : ∀ c ∈ back, isBlank c = true) :
    trim (front ++ (t ++ back)) = t := by
  rw [trim, trimStart, List.dropWhile_append_of_pos hfront]
  cases t with
  | nil =>
    rw [List.nil_append, ← List.append_nil back, List.dropWhile_append_of_pos hback]
    rfl
  | cons c t =>
    rw [List.cons_append, List.dropWhile_cons_of_neg (by simp [ht.1 c rfl]), ← List.cons_append]
    exact trimEnd_append_blanks ht.2 hback

/-- Blanks are removed up to a character that is none. -/
theorem trimStart_append_cons {c : Char} (hc : isBlank c = false) (t u : Text) :
    trimStart (t ++ c :: u) = trimStart t ++ c :: u := by
  rw [trimStart, trimStart, List.dropWhile_append]
  split
  · rename_i hblank
    rw [List.dropWhile_cons_of_neg (by simp [hc]), List.isEmpty_iff.mp hblank, List.nil_append]
  · rfl

/-- A word behind blanks is read where it stands, when it does not start with a blank. -/
theorem after?_trimStart_eq_some_iff {word t rest : Text} {c : Char} {cs : Text}
    (hword : word = c :: cs) (hc : isBlank c = false) :
    after? word (trimStart t) = some rest ↔
      ∃ blanks, (∀ d ∈ blanks, isBlank d = true) ∧ t = blanks ++ (word ++ rest) := by
  rw [after?_eq_some_iff]
  constructor
  · intro h
    refine ⟨indentation t, fun d hd => ?_, by rw [← h, indentation_append_trimStart]⟩
    exact List.all_eq_true.mp List.all_takeWhile d hd
  · rintro ⟨blanks, hblanks, rfl⟩
    rw [hword]
    exact (takeWhile_append_cons hblanks hc (cs ++ rest)).2

end BuildBlocks.Text
