import BuildBlocks.Text.Digits

/-!
# Texts in any letter case

A word of lower-case letters of the Latin alphabet is found in any case by folding the
characters of the text.  Two characters outside the alphabet fold into it: the Kelvin sign
to `k` and the long s to `s`.
-/
namespace BuildBlocks.Text

/-- The lower-case Latin letter that a character folds to; any other character stays. -/
def foldCase (c : Char) : Char :=
  if isBetween 'A' 'Z' c then Char.ofNat (c.toNat + 32)
  else if c.toNat = 0x212A then 'k'
  else if c.toNat = 0x17F then 's'
  else c

/-- When the text starts with `lead` in any letter case, `lead` as it is written there and
what follows it.  `lead` itself is written in lower case. -/
def afterFolded? : Text → Text → Option (Text × Text)
  | [], t => some ([], t)
  | _ :: _, [] => none
  | p :: lead, c :: t =>
    if foldCase c = p then
      (afterFolded? lead t).map fun (written, rest) => (c :: written, rest)
    else
      none

theorem afterFolded?_eq_some_iff {lead t written rest : Text} :
    afterFolded? lead t = some (written, rest) ↔
      t = written ++ rest ∧ written.map foldCase = lead := by
  induction lead generalizing t written with
  | nil =>
    simp only [afterFolded?, Option.some.injEq, Prod.mk.injEq, List.map_eq_nil_iff]
    constructor
    · rintro ⟨rfl, rfl⟩; simp
    · rintro ⟨ht, rfl⟩; exact ⟨rfl, ht⟩
  | cons p lead ih =>
    cases t with
    | nil =>
      simp only [afterFolded?, reduceCtorEq, false_iff, not_and]
      intro ht
      obtain ⟨rfl, _⟩ := List.append_eq_nil_iff.1 ht.symm
      simp
    | cons c t =>
      by_cases h : foldCase c = p
      · simp only [afterFolded?, h, if_true]
        constructor
        · intro hs
          obtain ⟨⟨u, v⟩, hu, he⟩ := Option.map_eq_some_iff.1 hs
          obtain ⟨rfl, rfl⟩ := Prod.mk.inj he
          obtain ⟨ht, hf⟩ := ih.1 hu
          exact ⟨by rw [ht, List.cons_append], by rw [List.map_cons, h, hf]⟩
        · rintro ⟨ht, hf⟩
          cases written with
          | nil => simp at hf
          | cons x written =>
            rw [List.map_cons, List.cons.injEq] at hf
            obtain ⟨rfl, htail⟩ := List.cons.inj ht
            rw [ih.2 ⟨htail, hf.2⟩]
            rfl
      · simp only [afterFolded?, h, if_false, reduceCtorEq, false_iff, not_and]
        intro ht hf
        cases written with
        | nil => simp at hf
        | cons x written =>
          rw [List.map_cons, List.cons.injEq] at hf
          obtain ⟨rfl, _⟩ := List.cons.inj ht
          exact h hf.1

end BuildBlocks.Text
