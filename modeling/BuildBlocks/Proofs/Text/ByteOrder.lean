import BuildBlocks.Text.Order
import Mathlib.Tactic.SplitIfs

/-! # The order of texts is that of their bytes

A character with a smaller code point takes bytes that come first, whatever follows: the first
byte says how many there are and grows with their number, and where there are equally many they
are the digits of the code point.  So texts, which are ordered by their code points, are ordered
as their bytes in UTF-8 are (`isBefore_iff_utf8_lt`).
-/
namespace BuildBlocks.Text

/-- The bytes of a text in UTF-8. -/
def utf8 (t : Text) : List UInt8 :=
  t.flatMap String.utf8EncodeChar

variable {c d : Char} {t u : Text}

theorem utf8_cons (c : Char) (t : Text) : utf8 (c :: t) = String.utf8EncodeChar c ++ utf8 t :=
  List.flatMap_cons

/-- The bytes of a character with a smaller code point come first, whatever follows. -/
theorem utf8EncodeChar_append_lt (h : c.toNat < d.toNat) (x y : List UInt8) :
    String.utf8EncodeChar c ++ x < String.utf8EncodeChar d ++ y := by
  have hd : d.toNat < 0x110000 := d.valid.elim (fun hlt => Nat.lt_trans hlt (by decide)) (·.2)
  unfold String.utf8EncodeChar
  simp only [Char.toNat_val]
  generalize c.toNat = m at h ⊢
  generalize d.toNat = n at h hd ⊢
  -- one case for each pair of lengths; no byte of a character is cut down to eight bits
  split_ifs
  all_goals
    simp only [List.cons_append, List.nil_append, List.cons_lt_cons_iff, UInt8.lt_iff_toNat_lt,
      ← UInt8.toNat_inj, UInt8.toNat_ofNat']
    simp (disch := omega) only [Nat.reducePow, Nat.mod_eq_of_lt]
    omega

theorem utf8_lt_of_isBefore (h : isBefore t u = true) : utf8 t < utf8 u := by
  induction t generalizing u with
  | nil =>
    cases u with
    | nil => cases h
    | cons d u =>
      have hne : String.utf8EncodeChar d ≠ [] := String.utf8EncodeChar_ne_nil
      obtain ⟨b, bytes, hbytes⟩ := List.exists_cons_of_ne_nil hne
      rw [utf8_cons, hbytes]
      exact List.nil_lt_cons b _
  | cons c t ih =>
    cases u with
    | nil => cases h
    | cons d u =>
      rw [utf8_cons, utf8_cons]
      rcases isBefore_cons.mp h with hlt | ⟨rfl, hrest⟩
      · exact utf8EncodeChar_append_lt hlt _ _
      · exact List.append_left_lt (ih hrest)

/-- **Texts are ordered as their bytes in UTF-8 are.** -/
theorem isBefore_iff_utf8_lt : isBefore t u = true ↔ utf8 t < utf8 u := by
  refine ⟨utf8_lt_of_isBefore, fun h => ?_⟩
  cases hforth : isBefore t u with
  | true => rfl
  | false =>
    cases hback : isBefore u t with
    | true => exact absurd (utf8_lt_of_isBefore hback) (List.lt_asymm h)
    | false =>
      rw [eq_of_not_isBefore hforth hback] at h
      exact absurd h (List.lt_irrefl _)

end BuildBlocks.Text
