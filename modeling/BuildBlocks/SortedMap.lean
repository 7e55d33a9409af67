import BuildBlocks.Text.Order

/-!
# Maps with ascending keys

A map from texts to values is its list of entries in ascending order of the keys.  There is
one way of changing a map: `alter` gives one key a value made from the one that it had;
`get?_alter` says what every key holds afterwards.
-/
namespace BuildBlocks
open Text

/-- A map from texts to values of type `β`. -/
structure SortedMap (β : Type) where
  /-- The keys with their values, in ascending order of the keys. -/
  entries : List (Text × β)
  ascending : entries.Pairwise fun a b => isBefore a.1 b.1

namespace SortedMap
variable {β : Type}

/-- The map without keys. -/
def empty : SortedMap β :=
  ⟨[], List.Pairwise.nil⟩

instance : Inhabited (SortedMap β) :=
  ⟨empty⟩

theorem ext_entries {m n : SortedMap β} (h : m.entries = n.entries) : m = n := by
  cases m; cases n; cases h; rfl

instance [DecidableEq β] : DecidableEq (SortedMap β) := fun m n =>
  decidable_of_iff (m.entries = n.entries) ⟨ext_entries, fun h => h ▸ rfl⟩

/-- The value of the first entry with key `k`. -/
def lookup (k : Text) : List (Text × β) → Option β
  | [] => none
  | (k', v) :: rest => if k' = k then some v else lookup k rest

/-- The value of a key. -/
def get? (m : SortedMap β) (k : Text) : Option β :=
  lookup k m.entries

/-- The number of keys. -/
def size (m : SortedMap β) : Nat :=
  m.entries.length

/-- The keys in ascending order. -/
def keys (m : SortedMap β) : List Text :=
  m.entries.map Prod.fst

/-- An ascending list of entries in which the value of `k` is made by `f` from the value
that it had, if it had one. -/
def alterEntries (k : Text) (f : Option β → β) : List (Text × β) → List (Text × β)
  | [] => [(k, f none)]
  | (k', v) :: rest =>
    if isBefore k k' then (k, f none) :: (k', v) :: rest
    else if k' = k then (k, f (some v)) :: rest
    else (k', v) :: alterEntries k f rest

theorem key_of_mem_alterEntries {k : Text} {f : Option β → β} {l : List (Text × β)}
    {a : Text × β} (h : a ∈ alterEntries k f l) : a.1 = k ∨ a ∈ l := by
  induction l with
  | nil =>
    rw [alterEntries, List.mem_singleton] at h
    exact .inl (congrArg Prod.fst h)
  | cons e l ih =>
    obtain ⟨k', v⟩ := e
    rw [alterEntries] at h
    split at h
    · rcases List.mem_cons.1 h with h | h
      · exact .inl (congrArg Prod.fst h)
      · exact .inr h
    · split at h
      · rcases List.mem_cons.1 h with h | h
        · exact .inl (congrArg Prod.fst h)
        · exact .inr (List.mem_cons_of_mem _ h)
      · rcases List.mem_cons.1 h with h | h
        · exact .inr (h ▸ List.mem_cons_self)
        · exact (ih h).imp_right (List.mem_cons_of_mem _)

theorem ascending_alterEntries {k : Text} {f : Option β → β} {l : List (Text × β)}
    (h : l.Pairwise fun a b => isBefore a.1 b.1) :
    (alterEntries k f l).Pairwise fun a b => isBefore a.1 b.1 := by
  induction l with
  | nil => exact List.pairwise_singleton _ _
  | cons e l ih =>
    obtain ⟨k', v⟩ := e
    obtain ⟨hhead, htail⟩ := List.pairwise_cons.1 h
    rw [alterEntries]
    split
    · rename_i hlt
      refine List.pairwise_cons.2 ⟨fun a ha => ?_, h⟩
      rcases List.mem_cons.1 ha with rfl | ha
      · exact hlt
      · exact isBefore_trans hlt (hhead a ha)
    · split
      · rename_i _ heq
        subst heq
        exact List.pairwise_cons.2 ⟨hhead, htail⟩
      · rename_i hlt hne
        refine List.pairwise_cons.2 ⟨fun a ha => ?_, ih htail⟩
        rcases key_of_mem_alterEntries ha with hk | ha
        · rw [hk]
          exact Decidable.byContradiction fun hn =>
            hne (eq_of_not_isBefore (Bool.not_eq_true _ ▸ hn) (Bool.not_eq_true _ ▸ hlt))
        · exact hhead a ha

/-- The map in which the value of `k` is made by `f` from the value that it had, if it had
one; every other key keeps its value. -/
def alter (m : SortedMap β) (k : Text) (f : Option β → β) : SortedMap β :=
  ⟨alterEntries k f m.entries, ascending_alterEntries m.ascending⟩

/-- The map in which `k` has the value `v`. -/
def insert (m : SortedMap β) (k : Text) (v : β) : SortedMap β :=
  m.alter k fun _ => v

/-- The map with the given entries; of several for one key the last one counts. -/
def ofList (l : List (Text × β)) : SortedMap β :=
  l.foldl (fun m e => m.insert e.1 e.2) empty

/-- A key in front of all others is none of them. -/
theorem lookup_eq_none_of_forall_isBefore {k : Text} {l : List (Text × β)}
    (h : ∀ e ∈ l, isBefore k e.1 = true) : lookup k l = none := by
  induction l with
  | nil => rfl
  | cons e l ih =>
    have hne : e.1 ≠ k := fun heq => by
      have hlt := h e List.mem_cons_self
      rw [heq, isBefore_irrefl] at hlt
      cases hlt
    rw [lookup, if_neg hne]
    exact ih fun e he => h e (List.mem_cons_of_mem _ he)

theorem lookup_alterEntries_self {k : Text} {f : Option β → β} {l : List (Text × β)}
    (h : l.Pairwise fun a b => isBefore a.1 b.1) :
    lookup k (alterEntries k f l) = some (f (lookup k l)) := by
  induction l with
  | nil => simp [alterEntries, lookup]
  | cons e l ih =>
    obtain ⟨k', v⟩ := e
    obtain ⟨hhead, htail⟩ := List.pairwise_cons.1 h
    rw [alterEntries]
    split
    · rename_i hlt
      have hnone : lookup k ((k', v) :: l) = none :=
        lookup_eq_none_of_forall_isBefore fun a ha => by
          rcases List.mem_cons.1 ha with rfl | ha
          · exact hlt
          · exact isBefore_trans hlt (hhead a ha)
      rw [hnone]
      simp [lookup]
    · split
      · rename_i _ heq
        simp [lookup, heq]
      · rename_i _ hne
        rw [lookup, if_neg hne, lookup, if_neg hne]
        exact ih htail

theorem lookup_alterEntries_of_ne {k k' : Text} (hne : k ≠ k') (f : Option β → β)
    (l : List (Text × β)) : lookup k' (alterEntries k f l) = lookup k' l := by
  induction l with
  | nil => simp [alterEntries, lookup, hne]
  | cons e l ih =>
    obtain ⟨k'', v⟩ := e
    rw [alterEntries]
    split
    · rw [lookup, if_neg hne]
    · split
      · rename_i _ heq
        subst heq
        simp [lookup, hne]
      · by_cases hk : k'' = k' <;> simp [lookup, hk, ih]

/-- After a change of one key every other key holds what it held. -/
theorem get?_alter (m : SortedMap β) (k k' : Text) (f : Option β → β) :
    (m.alter k f).get? k' = if k = k' then some (f (m.get? k)) else m.get? k' := by
  by_cases h : k = k'
  · subst h
    rw [if_pos rfl]
    exact lookup_alterEntries_self m.ascending
  · rw [if_neg h]
    exact lookup_alterEntries_of_ne h f m.entries

theorem mem_iff_lookup {l : List (Text × β)} (h : l.Pairwise fun a b => isBefore a.1 b.1)
    {k : Text} {v : β} : (k, v) ∈ l ↔ lookup k l = some v := by
  induction l with
  | nil => simp [lookup]
  | cons e l ih =>
    obtain ⟨k', w⟩ := e
    obtain ⟨hhead, htail⟩ := List.pairwise_cons.1 h
    rw [List.mem_cons, lookup]
    by_cases hk : k' = k
    · subst hk
      have hnot : (k', v) ∉ l := fun hmem => by
        have hlt := hhead _ hmem
        rw [isBefore_irrefl] at hlt
        cases hlt
      simp [hnot, eq_comm]
    · rw [if_neg hk, ← ih htail]
      simp [Ne.symm hk]

/-- The entries of a map are its keys with their values. -/
theorem mem_entries_iff {m : SortedMap β} {k : Text} {v : β} :
    (k, v) ∈ m.entries ↔ m.get? k = some v :=
  mem_iff_lookup m.ascending

/-- A key behind all others is put at the end. -/
theorem alterEntries_of_forall_isBefore {k : Text} {l : List (Text × β)}
    (h : ∀ e ∈ l, isBefore e.1 k = true) (f : Option β → β) :
    alterEntries k f l = l ++ [(k, f none)] := by
  induction l with
  | nil => rfl
  | cons e l ih =>
    obtain ⟨k', v⟩ := e
    have hlt : isBefore k' k = true := h _ List.mem_cons_self
    have hle : ¬ isBefore k k' = true := fun hgt => by
      have hself := isBefore_trans hlt hgt
      rw [isBefore_irrefl] at hself
      cases hself
    have hne : ¬ k' = k := fun heq => by
      rw [heq, isBefore_irrefl] at hlt
      cases hlt
    rw [alterEntries, if_neg hle, if_neg hne, ih fun e he => h e (List.mem_cons_of_mem _ he)]
    rfl

theorem entries_foldl_insert {l : List (Text × β)} (m : SortedMap β)
    (h : (m.entries ++ l).Pairwise fun a b => isBefore a.1 b.1) :
    (l.foldl (fun m e => m.insert e.1 e.2) m).entries = m.entries ++ l := by
  induction l generalizing m with
  | nil => exact (List.append_nil _).symm
  | cons e l ih =>
    obtain ⟨k, v⟩ := e
    have hbefore : ∀ a ∈ m.entries, isBefore a.1 k = true := fun a ha =>
      (List.pairwise_append.1 h).2.2 a ha (k, v) List.mem_cons_self
    have hentries : (m.insert k v).entries = m.entries ++ [(k, v)] :=
      alterEntries_of_forall_isBefore hbefore _
    rw [List.foldl_cons, ih, hentries, List.append_assoc, List.singleton_append]
    rwa [hentries, List.append_assoc]

/-- A map is made anew from its entries. -/
theorem ofList_entries (m : SortedMap β) : ofList m.entries = m :=
  ext_entries (entries_foldl_insert empty m.ascending)

end SortedMap
end BuildBlocks
