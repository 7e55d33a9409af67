import BuildBlocks.Manifest.Written
import BuildBlocks.Proofs.SortedMap

/-! # The views of a manifest

A manifest is a map of maps, and each of its views goes through these in a way of its own.  They are
compared with the list of all types, targets and entries: look-up, the targets of a type and the
size agree with it for every manifest (`views_agree`).  Only the test for emptiness looks at the
types alone: it differs from the size where types are listed, but none of them with a target
(`isEmpty_iff_size_iff`).  A manifest that is compiled never lists such a type, since a type is
listed together with its first target (`populated_compile`); one that is read may list it.
-/
namespace BuildBlocks
open Text

namespace SortedMap
variable {β γ : Type}

/-- After a change a map has a key. -/
theorem entries_alter_ne_nil (m : SortedMap β) (k : Text) (f : Option β → β) :
    (m.alter k f).entries ≠ [] := by
  have hget := get?_alter m k k f
  rw [if_pos rfl] at hget
  exact List.ne_nil_of_mem (mem_entries_iff.mpr hget)

/-- Only the first entry of a key has this key. -/
theorem flatMap_if_key {l : List (Text × β)} (h : l.Pairwise fun a b => isBefore a.1 b.1)
    (k : Text) (f : β → List γ) :
    (l.flatMap fun a => if a.1 = k then f a.2 else []) = (lookup k l).elim [] f := by
  induction l with
  | nil => rfl
  | cons a l ih =>
    obtain ⟨k', v⟩ := a
    obtain ⟨hhead, htail⟩ := List.pairwise_cons.mp h
    rw [List.flatMap_cons, ih htail, lookup]
    by_cases hk : k' = k
    · subst hk
      rw [if_pos rfl, if_pos rfl, lookup_eq_none_of_forall_isBefore hhead]
      exact List.append_nil _
    · rw [if_neg hk, if_neg hk, List.nil_append]

end SortedMap

namespace Manifest
variable {m : Manifest} {kind target : Text} {e : ManifestEntry}

/-- The order of types and, within a type, of targets by their bytes. -/
def Precedes (a b : Text × Text × ManifestEntry) : Prop :=
  utf8 a.1 < utf8 b.1 ∨ a.1 = b.1 ∧ utf8 a.2.1 < utf8 b.2.1

/-! ## The list -/

theorem mem_toList_iff : (kind, target, e) ∈ m.toList ↔ m.get? kind target = some e := by
  rw [toList, List.mem_flatMap, get?, targets?, Option.bind_eq_some_iff]
  constructor
  · rintro ⟨⟨kind', targets⟩, htargets, hmem⟩
    obtain ⟨⟨target', e'⟩, hentry, heq⟩ := List.mem_map.mp hmem
    obtain ⟨rfl, rfl, rfl⟩ : kind' = kind ∧ target' = target ∧ e' = e := by simpa using heq
    exact ⟨targets, SortedMap.mem_entries_iff.mp htargets, SortedMap.mem_entries_iff.mp hentry⟩
  · rintro ⟨targets, htargets, hentry⟩
    exact ⟨(kind, targets), SortedMap.mem_entries_iff.mpr htargets,
      List.mem_map.mpr ⟨(target, e), SortedMap.mem_entries_iff.mpr hentry, rfl⟩⟩

theorem pairwise_toList (m : Manifest) : m.toList.Pairwise Precedes := by
  rw [toList, List.pairwise_flatMap]
  constructor
  · rintro ⟨kind, targets⟩ _
    rw [List.pairwise_map]
    exact targets.ascending.imp fun hlt => .inr ⟨rfl, isBefore_iff_utf8_lt.mp hlt⟩
  · refine m.types.ascending.imp fun {a b} hlt x hx y hy => ?_
    obtain ⟨_, _, rfl⟩ := List.mem_map.mp hx
    obtain ⟨_, _, rfl⟩ := List.mem_map.mp hy
    exact .inl (isBefore_iff_utf8_lt.mp hlt)

/-- The part of the list that belongs to a type is made of its targets. -/
theorem filter_toList (m : Manifest) (kind : Text) :
    (m.toList.filter fun a => a.1 = kind).map Prod.snd =
      (m.targets? kind).elim [] SortedMap.entries := by
  have hpart : ∀ a : Text × SortedMap ManifestEntry,
      ((a.2.entries.map fun b => (a.1, b.1, b.2)).filter fun b => b.1 = kind).map Prod.snd =
        if a.1 = kind then a.2.entries else [] := by
    rintro ⟨kind', targets⟩
    by_cases hkind : kind' = kind <;> simp [List.filter_map, Function.comp_def, hkind]
  rw [toList, List.filter_flatMap, List.map_flatMap]
  exact (List.flatMap_congr fun a _ => hpart a).trans
    (SortedMap.flatMap_if_key m.types.ascending kind SortedMap.entries)

theorem size_eq_length_toList (m : Manifest) : m.size = m.toList.length := by
  rw [size, toList]
  induction m.types.entries with
  | nil => rfl
  | cons a l ih =>
    rw [List.foldr_cons, ih, List.flatMap_cons, List.length_append, List.length_map]
    rfl

/-! ## Emptiness -/

/-- Types are listed, but none of them has a target. -/
def Hollow (m : Manifest) : Prop :=
  (∃ kind, (m.targets? kind).isSome = true) ∧
    ∀ kind targets, m.targets? kind = some targets → targets.entries = []

theorem isEmpty_iff : m.isEmpty = true ↔ ∀ kind, m.targets? kind = none := by
  rw [isEmpty, List.isEmpty_iff]
  constructor
  · intro h kind
    rw [targets?, SortedMap.get?, h, SortedMap.lookup]
  · intro h
    rw [List.eq_nil_iff_forall_not_mem]
    rintro ⟨kind, targets⟩ hmem
    have hget : m.targets? kind = some targets := SortedMap.mem_entries_iff.mp hmem
    rw [h kind] at hget
    cases hget

theorem size_eq_zero_iff :
    m.size = 0 ↔ ∀ kind targets, m.targets? kind = some targets → targets.entries = [] := by
  rw [size_eq_length_toList, List.length_eq_zero_iff, toList, List.flatMap_eq_nil_iff]
  constructor
  · intro h kind targets htargets
    exact List.map_eq_nil_iff.mp (h (kind, targets) (SortedMap.mem_entries_iff.mpr htargets))
  · rintro h ⟨kind, targets⟩ hmem
    exact List.map_eq_nil_iff.mpr (h kind targets (SortedMap.mem_entries_iff.mp hmem))

/-- What counts as empty has no entries; without entries it does, unless types are listed. -/
theorem isEmpty_iff_size_iff (m : Manifest) :
    (m.isEmpty = true ↔ m.size = 0) ↔ ¬ m.Hollow := by
  rw [isEmpty_iff, size_eq_zero_iff]
  constructor
  · rintro h ⟨⟨kind, hkind⟩, hnone⟩
    rw [h.mpr hnone kind] at hkind
    cases hkind
  · intro h
    constructor
    · intro hnone kind targets htargets
      rw [hnone kind] at htargets
      cases htargets
    · intro hnone kind
      by_contra hkind
      exact h ⟨⟨kind, Option.isSome_iff_ne_none.mpr hkind⟩, hnone⟩

/-- Every type that is listed has a target. -/
def Populated (m : Manifest) : Prop :=
  ∀ kind targets, m.targets? kind = some targets → targets.entries ≠ []

theorem populated_empty : empty.Populated := by
  intro kind targets htargets
  cases htargets

/-- A block adds a type only with a target. -/
theorem Populated.add (h : m.Populated) (b : Block) : (m.add b).Populated := by
  intro kind targets htargets
  rw [targets?, Manifest.add, SortedMap.get?_alter] at htargets
  split at htargets
  · obtain rfl := Option.some.inj htargets
    exact SortedMap.entries_alter_ne_nil _ _ _
  · exact h kind targets htargets

theorem Populated.foldl_add (h : m.Populated) (blocks : List Block) :
    (blocks.foldl Manifest.add m).Populated := by
  induction blocks generalizing m with
  | nil => exact h
  | cons b blocks ih => exact ih (h.add b)

theorem populated_compile (t : BlockTable) : (compile t).Populated :=
  populated_empty.foldl_add t.terminated

theorem Populated.not_hollow (h : m.Populated) : ¬ m.Hollow := by
  rintro ⟨⟨kind, hkind⟩, hnone⟩
  obtain ⟨targets, htargets⟩ := Option.isSome_iff_exists.mp hkind
  exact h kind targets htargets (hnone kind targets htargets)

/-- **The views of a manifest agree.**  The list ascends strictly by types and then by targets;
what is looked up is what stands in it, the targets of a type are its part of the list, and the size
is its length.  Emptiness and size agree as long as there is a target or no type: always for a
manifest that is compiled, and for any other one unless it lists types without targets only. -/
theorem views_agree (m : Manifest) :
    m.toList.Pairwise Precedes ∧
    (∀ kind target e, m.get? kind target = some e ↔ (kind, target, e) ∈ m.toList) ∧
    (∀ kind, (m.targets? kind).elim [] SortedMap.entries =
      (m.toList.filter fun a => a.1 = kind).map Prod.snd) ∧
    m.size = m.toList.length ∧
    ((m.isEmpty = true ↔ m.size = 0) ↔ ¬ m.Hollow) ∧
    ∀ document, m = compile (BlockTable.extract document) →
      (m.isEmpty = true ↔ m.size = 0) := by
  refine ⟨m.pairwise_toList, fun kind target e => mem_toList_iff.symm,
    fun kind => (m.filter_toList kind).symm, m.size_eq_length_toList, m.isEmpty_iff_size_iff, ?_⟩
  rintro document rfl
  exact (isEmpty_iff_size_iff _).mpr (populated_compile _).not_hollow

/-- A manifest in which a type has no target. -/
def hollowText : Text :=
  "\x7b\"js\": \x7b\x7d\x7d".toList

/-- The manifest of `hollowText`. -/
def hollowManifest : Manifest :=
  ⟨.ofList [("js".toList, .empty)]⟩

/-- Not every manifest that is read counts as empty when it has no entries. -/
theorem not_all_empty_without_entries :
    ¬ ∀ text m, read? text = some m → (m.isEmpty = true ↔ m.size = 0) := by
  intro hall
  have hread : read? hollowText = some hollowManifest := by decide
  have hempty := (hall hollowText hollowManifest hread).mpr (by decide)
  exact absurd hempty (by decide)

end Manifest
end BuildBlocks
