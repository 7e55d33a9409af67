import BuildBlocks.Text.Basic

/-!
# The order of texts

Texts are ordered like the words of a dictionary, characters by their code points.  The
bytes that texts take in UTF-8 are ordered in the same way.  The order is strict and total:
`isBefore_trans`, `isBefore_irrefl` and `eq_of_not_isBefore`.
-/
namespace BuildBlocks.Text

/-- Whether the first text comes before the second. -/
def isBefore : Text → Text → Bool
  | _, [] => false
  | [], _ :: _ => true
  | c :: t, d :: u => c.toNat < d.toNat || (c == d && isBefore t u)

theorem isBefore_cons {c d : Char} {t u : Text} :
    isBefore (c :: t) (d :: u) = true ↔ c.toNat < d.toNat ∨ c = d ∧ isBefore t u = true := by
  simp [isBefore]

theorem isBefore_irrefl (t : Text) : isBefore t t = false := by
  induction t with
  | nil => rfl
  | cons c t ih => simp [isBefore, ih]

theorem isBefore_trans {t u v : Text} (h : isBefore t u = true) (h' : isBefore u v = true) :
    isBefore t v = true := by
  induction t generalizing u v with
  | nil =>
    cases v with
    | nil => cases u <;> simp [isBefore] at h'
    | cons e v => rfl
  | cons c t ih =>
    cases u with
    | nil => simp [isBefore] at h
    | cons d u =>
      cases v with
      | nil => simp [isBefore] at h'
      | cons e v =>
        rw [isBefore_cons] at h h' ⊢
        rcases h with h | ⟨rfl, h⟩
        · rcases h' with h' | ⟨rfl, _⟩
          · exact .inl (Nat.lt_trans h h')
          · exact .inl h
        · rcases h' with h' | ⟨rfl, h'⟩
          · exact .inl h'
          · exact .inr ⟨rfl, ih h h'⟩

theorem eq_of_not_isBefore {t u : Text} (h : isBefore t u = false) (h' : isBefore u t = false) :
    t = u := by
  induction t generalizing u with
  | nil =>
    cases u with
    | nil => rfl
    | cons d u => simp [isBefore] at h
  | cons c t ih =>
    cases u with
    | nil => simp [isBefore] at h'
    | cons d u =>
      have hle : ¬ c.toNat < d.toNat := fun hlt => by
        rw [isBefore_cons.2 (.inl hlt)] at h
        cases h
      have hge : ¬ d.toNat < c.toNat := fun hlt => by
        rw [isBefore_cons.2 (.inl hlt)] at h'
        cases h'
      have hc : c = d := Char.toNat_inj.1 (by omega)
      subst hc
      have htail : isBefore t u = false := by simpa [isBefore] using h
      have htail' : isBefore u t = false := by simpa [isBefore] using h'
      rw [ih htail htail']

end BuildBlocks.Text
