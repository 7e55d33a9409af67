import BuildBlocks.CommandLine.Run
import BuildBlocks.Proofs.Json.Reading

/-! # Manifests read back

The text that a command writes for a manifest is read back as that manifest, and nothing else is
in it: under every type and target stands one object with the assets and, if there are any, the
search paths (`read?_manifestText`).  The way leads over the JSON value that is written; its maps
list their keys in order, so that a map made anew from them is the same map.
-/
namespace BuildBlocks
open Text Json

/-- The value is an object with a member. -/
def Json.Value.HasMember (v : Value) (name : Text) (w : Value) : Prop :=
  ∃ members, v = .object members ∧ (some name, w) ∈ members

/-- Items are read back when each of them is. -/
theorem mapM_map_eq_some {α β : Type} {write : α → β} {read? : β → Option α} {l : List α}
    (h : ∀ a ∈ l, read? (write a) = some a) : (l.map write).mapM read? = some l := by
  induction l with
  | nil => rfl
  | cons a l ih =>
    rw [List.map_cons, List.mapM_cons, h a List.mem_cons_self,
      ih fun b hb => h b (List.mem_cons_of_mem _ hb)]
    rfl

namespace SortedMap
variable {β : Type} {m : SortedMap β} {read? : Value → Option β} {write : β → Value}

theorem ofJson?_toJson (h : ∀ e ∈ m.entries, read? (write e.2) = some e.2) :
    ofJson? read? (m.toJson write) = some m := by
  unfold toJson ofJson?
  refine (congrArg (Option.map ofList) (mapM_map_eq_some (l := m.entries) fun e he => ?_)).trans ?_
  · simp [h e he]
  · rw [Option.map_some, ofList_entries]

theorem textual_toJson (h : ∀ e ∈ m.entries, (write e.2).Textual) :
    (m.toJson write).Textual := by
  refine .object (fun n hn => ?_) fun n hn => ?_
  · obtain ⟨e, _, rfl⟩ := List.mem_map.1 hn
    rfl
  · obtain ⟨e, he, rfl⟩ := List.mem_map.1 hn
    exact h e he

/-- The members of a written map are its keys with their written values. -/
theorem hasMember_toJson_iff {k : Text} {w : Value} :
    (m.toJson write).HasMember k w ↔ ∃ v, m.get? k = some v ∧ w = write v := by
  constructor
  · rintro ⟨members, hmembers, hmem⟩
    obtain rfl := Value.object.inj hmembers
    obtain ⟨⟨k', v⟩, he, heq⟩ := List.mem_map.1 hmem
    obtain ⟨hk, rfl⟩ := Prod.mk.inj heq
    obtain rfl := Option.some.inj hk
    exact ⟨v, mem_entries_iff.1 he, rfl⟩
  · rintro ⟨v, hv, rfl⟩
    exact ⟨_, rfl, List.mem_map.2 ⟨(k, v), mem_entries_iff.2 hv, rfl⟩⟩

end SortedMap

namespace ManifestEntry

/-- What stands in a text for the entry: its assets, and its search paths if it has any. -/
structure WrittenBy (e : ManifestEntry) (w : Value) : Prop where
  assets : ∀ v, w.HasMember assetsName v ↔
    v = .array (e.assets.map fun asset => .string (some asset))
  searchPaths : ∀ v, w.HasMember searchPathsName v ↔
    ∃ paths, e.searchPaths = some paths ∧ v = .string (some paths)

theorem texts?_array (assets : List Text) :
    texts? (.array (assets.map fun asset => .string (some asset))) = some assets := by
  unfold texts?
  exact mapM_map_eq_some fun _ _ => rfl

theorem ofJson?_toJson (e : ManifestEntry) : ofJson? e.toJson = some e := by
  obtain ⟨assets, paths⟩ := e
  have hname : (some assetsName == some searchPathsName) = false := by decide
  have hname' : (some searchPathsName == some assetsName) = false := by decide
  cases paths with
  | none => simp [toJson, ofJson?, named, hname, texts?_array]
  | some paths => simp [toJson, ofJson?, named, hname, hname', texts?_array, searchPaths?]

theorem textual_toJson (e : ManifestEntry) : e.toJson.Textual := by
  have hassets : (Value.array (e.assets.map fun asset => .string (some asset))).Textual := by
    refine .array fun v hv => ?_
    obtain ⟨asset, _, rfl⟩ := List.mem_map.1 hv
    exact .string asset
  unfold toJson
  cases e.searchPaths with
  | none => exact .object (by simp) (by simpa using hassets)
  | some paths => exact .object (by simp) (by simpa using ⟨hassets, .string paths⟩)

theorem writtenBy_toJson (e : ManifestEntry) : e.WrittenBy e.toJson := by
  have hne : assetsName ≠ searchPathsName := by decide
  unfold toJson
  constructor
  · intro v
    cases e.searchPaths <;> simp [Value.HasMember, hne]
  · intro v
    cases e.searchPaths <;> simp [Value.HasMember, Ne.symm hne]

end ManifestEntry

namespace Manifest

theorem ofJson?_toJson (m : Manifest) : ofJson? m.toJson = some m := by
  unfold ofJson? toJson
  rw [SortedMap.ofJson?_toJson fun targets _ =>
    SortedMap.ofJson?_toJson fun e _ => e.2.ofJson?_toJson]
  rfl

theorem textual_toJson (m : Manifest) : m.toJson.Textual :=
  SortedMap.textual_toJson fun _ _ => SortedMap.textual_toJson fun e _ => e.2.textual_toJson

/-- Under a type and a target stands the entry that the manifest has there. -/
theorem hasMember_toJson_iff {m : Manifest} {kind target : Text} {w : Value} :
    (∃ targets, m.toJson.HasMember kind targets ∧ targets.HasMember target w) ↔
      ∃ e, m.get? kind target = some e ∧ w = e.toJson := by
  unfold toJson get? targets?
  constructor
  · rintro ⟨targets, hkind, htarget⟩
    obtain ⟨entries, hentries, rfl⟩ := SortedMap.hasMember_toJson_iff.1 hkind
    obtain ⟨e, he, rfl⟩ := SortedMap.hasMember_toJson_iff.1 htarget
    exact ⟨e, by rw [hentries, Option.bind_some, he], rfl⟩
  · rintro ⟨e, he, rfl⟩
    obtain ⟨entries, hentries, he⟩ := Option.bind_eq_some_iff.1 he
    exact ⟨_, SortedMap.hasMember_toJson_iff.2 ⟨entries, hentries, rfl⟩,
      SortedMap.hasMember_toJson_iff.2 ⟨e, he, rfl⟩⟩

end Manifest

namespace CommandLine

theorem ofText?_manifestText (t : Transformed) :
    Value.ofText? (manifestText t) = some t.manifest.toJson :=
  t.manifest.textual_toJson.ofText?_text ['\n'] rfl

/-- **Written manifests are read back.**  The text that a command writes for a manifest is read as
the same manifest.  It is one JSON value, in which an object stands under a type and a target
exactly when the manifest has an entry there; that object holds the assets of the entry, and it
has search paths exactly when the entry has. -/
theorem read?_manifestText (t : Transformed) :
    Manifest.read? (manifestText t) = some t.manifest ∧
      ∃ v, Value.ofText? (manifestText t) = some v ∧
        (∀ kind target e, t.manifest.get? kind target = some e →
          ∃ targets w, v.HasMember kind targets ∧ targets.HasMember target w) ∧
        ∀ kind target targets w, v.HasMember kind targets → targets.HasMember target w →
          ∃ e, t.manifest.get? kind target = some e ∧ e.WrittenBy w ∧
            ((¬ ∃ paths, w.HasMember ManifestEntry.searchPathsName paths) ↔
              e.searchPaths = none) := by
  refine ⟨?_, t.manifest.toJson, ofText?_manifestText t, ?_, ?_⟩
  · rw [Manifest.read?, ofText?_manifestText, Option.bind_some, Manifest.ofJson?_toJson]
  · intro kind target e he
    obtain ⟨targets, hkind, htarget⟩ := Manifest.hasMember_toJson_iff.2 ⟨e, he, rfl⟩
    exact ⟨targets, e.toJson, hkind, htarget⟩
  · intro kind target targets w hkind htarget
    obtain ⟨e, he, rfl⟩ := Manifest.hasMember_toJson_iff.1 ⟨targets, hkind, htarget⟩
    refine ⟨e, he, e.writtenBy_toJson, ?_⟩
    simp only [e.writtenBy_toJson.searchPaths]
    cases e.searchPaths <;> simp

end CommandLine
end BuildBlocks
