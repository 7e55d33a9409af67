import BuildBlocks.Proofs.Text.ByteOrder
import BuildBlocks.SortedMap
import Mathlib.Data.List.Nodup

/-! # What stands first in a map

The keys of a map are different and stand in the order of their bytes.  Hence a walk over the
entries that stops at one with a property stops at the first key of that kind
(`first_iff_exists_append`).
-/
namespace BuildBlocks.SortedMap
open Text
variable {β : Type} {m : SortedMap β} {k : Text} {v : β}

theorem nodup_keys (m : SortedMap β) : m.keys.Nodup := by
  refine List.pairwise_map.mpr (m.ascending.imp fun {a b} hlt heq => ?_)
  rw [heq, isBefore_irrefl] at hlt
  cases hlt

theorem mem_keys_iff : k ∈ m.keys ↔ (m.get? k).isSome = true := by
  rw [keys, List.mem_map, Option.isSome_iff_exists]
  constructor
  · rintro ⟨⟨_, v⟩, hmem, rfl⟩
    exact ⟨v, mem_entries_iff.mp hmem⟩
  · rintro ⟨v, hv⟩
    exact ⟨(k, v), mem_entries_iff.mpr hv, rfl⟩

/-- The key has the value, both have the property, and every other key for which this holds comes
later in the order of the bytes. -/
def First (m : SortedMap β) (p : Text → β → Prop) (k : Text) (v : β) : Prop :=
  m.get? k = some v ∧ p k v ∧
    ∀ other w, m.get? other = some w → p other w → other = k ∨ utf8 k < utf8 other

/-- The first key with a property is that of the first entry with it. -/
theorem first_iff_exists_append {p : Text → β → Prop} :
    m.First p k v ↔ p k v ∧ ∃ before after, m.entries = before ++ (k, v) :: after ∧
      ∀ e ∈ before, ¬ p e.1 e.2 := by
  constructor
  · rintro ⟨hget, hp, hfirst⟩
    obtain ⟨before, after, hentries⟩ := List.append_of_mem (mem_entries_iff.mpr hget)
    refine ⟨hp, before, after, hentries, fun e he hpe => ?_⟩
    -- an entry in front of the key comes before it, and so cannot come later
    have hlt : isBefore e.1 k = true := by
      have hascending := m.ascending
      rw [hentries] at hascending
      exact (List.pairwise_append.mp hascending).2.2 e he _ List.mem_cons_self
    have hmem : e ∈ m.entries := by
      rw [hentries]
      exact List.mem_append_left _ he
    rcases hfirst e.1 e.2 (mem_entries_iff.mp hmem) hpe with heq | hgt
    · rw [heq, isBefore_irrefl] at hlt
      cases hlt
    · exact List.lt_asymm hgt (isBefore_iff_utf8_lt.mp hlt)
  · rintro ⟨hp, before, after, hentries, hbefore⟩
    have hascending := m.ascending
    rw [hentries] at hascending
    have hlater := (List.pairwise_cons.mp (List.pairwise_append.mp hascending).2.1).1
    refine ⟨mem_entries_iff.mp ?_, hp, fun other w hw hpw => ?_⟩
    · rw [hentries]
      exact List.mem_append_right _ List.mem_cons_self
    · have hmem := mem_entries_iff.mpr hw
      rw [hentries, List.mem_append, List.mem_cons] at hmem
      rcases hmem with hmem | heq | hmem
      · exact absurd hpw (hbefore _ hmem)
      · exact .inl (congrArg Prod.fst heq)
      · exact .inr (isBefore_iff_utf8_lt.mp (hlater _ hmem))

end BuildBlocks.SortedMap
