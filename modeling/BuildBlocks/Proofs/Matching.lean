import Mathlib.Data.List.Forall2

/-! # Lists that match one by one

Facts about `List.Forall₂` with which the blocks of a document are matched with lines, cuts
and entries.
-/
namespace List.Forall₂
variable {α β γ : Type} {R : α → β → Prop} {l : List α} {m : List β}

theorem exists_of_mem_right (h : Forall₂ R l m) {b : β} (hb : b ∈ m) : ∃ a ∈ l, R a b := by
  induction h with
  | nil => cases hb
  | cons hab _ ih =>
    rcases mem_cons.mp hb with rfl | hb
    · exact ⟨_, mem_cons_self, hab⟩
    · obtain ⟨a, ha, hab⟩ := ih hb
      exact ⟨a, mem_cons_of_mem _ ha, hab⟩

theorem exists_of_getElem? (h : Forall₂ R l m) {i : ℕ} {a : α} (ha : l[i]? = some a) :
    ∃ b, m[i]? = some b ∧ R a b := by
  obtain ⟨hi, rfl⟩ := getElem?_eq_some_iff.mp ha
  have hi' : i < m.length := h.length_eq ▸ hi
  exact ⟨m[i], getElem?_eq_getElem hi', h.get hi hi'⟩

theorem map_eq_map (h : Forall₂ R l m) {f : α → γ} {g : β → γ} (hfg : ∀ a b, R a b → f a = g b) :
    l.map f = m.map g := by
  rw [← forall₂_eq_eq_eq, forall₂_map_left_iff, forall₂_map_right_iff]
  exact h.imp hfg

/-- The values that a partial function picks from a list belong to the elements at which it
is defined. -/
theorem of_map_eq_filterMap {f : α → Option γ} {g : β → γ} (h : m.map g = l.filterMap f) :
    Forall₂ (fun a b => f a = some (g b)) (l.filter fun a => (f a).isSome) m := by
  induction l generalizing m with
  | nil =>
    rw [filterMap_nil, map_eq_nil_iff] at h
    rw [h]
    exact .nil
  | cons a l ih =>
    cases ha : f a with
    | none =>
      rw [filterMap_cons_none ha] at h
      rw [filter_cons_of_neg (by simp [ha])]
      exact ih h
    | some c =>
      rw [filterMap_cons_some ha, map_eq_cons_iff] at h
      obtain ⟨b, m, rfl, hb, hm⟩ := h
      rw [filter_cons_of_pos (by simp [ha])]
      exact .cons (by rw [ha, hb]) (ih hm)

end List.Forall₂
