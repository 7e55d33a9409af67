import BuildBlocks.Manifest
import BuildBlocks.Proofs.Document.Lines
import BuildBlocks.Proofs.Text.Search

/-! # The assets of a line

What `Asset.ofLine` collects from a line is described by what stands on it: the value of its
leftmost attribute that names assets (`Asset.Leftmost`), cut at commas.  `lineAssets_ofLine`
ties the two together, `wellFormed_of_mem_ofLine` says what an asset looks like.
-/
namespace BuildBlocks
open Text

namespace Asset

/-- An attribute that names assets, from its name to the quote that closes its value: `href` or
`src`, an equals sign, and between two quotes a value that is not empty and holds no quote. -/
structure Written (markup value : Text) : Prop where
  nonempty : value ≠ []
  unquoted : ∀ c ∈ value, isQuote c = false
  written : ∃ name ∈ ["href".toList, "src".toList], ∃ opening closing,
    isQuote opening = true ∧ isQuote closing = true ∧
      markup = name ++ '=' :: opening :: (value ++ [closing])

/-- An attribute that names assets stands at the start of the text. -/
def AttributeAt (t value : Text) : Prop :=
  ∃ markup, Written markup value ∧ markup <+: t

/-- The leftmost attribute of the line that names assets has the value. -/
def Leftmost (line value : Text) : Prop :=
  ∃ before t, before ++ t = line ∧ AttributeAt t value ∧
    ∀ u v, u ++ v = before → v ≠ [] → ∀ other, ¬ AttributeAt (v ++ t) other

/-- The assets of a line: the pieces of the leftmost attribute's value, or none when no such
attribute stands on the line. -/
inductive LineAssets (line : Text) : List Text → Prop
  | named {value : Text} (h : Leftmost line value) :
      LineAssets line (((splitOn ',' value).map trim).filter fun asset => !asset.isEmpty)
  | unnamed (h : ∀ u v, u ++ v = line → ∀ value, ¬ AttributeAt v value) : LineAssets line []

/-- What an asset looks like. -/
structure WellFormed (asset : Text) : Prop where
  nonempty : asset ≠ []
  trimmed : Trimmed asset
  uncut : ',' ∉ asset

theorem quotedAt?_eq_some_iff {t value : Text} :
    quotedAt? t = some value ↔ value ≠ [] ∧ (∀ c ∈ value, isQuote c = false) ∧
      ∃ opening closing rest, isQuote opening = true ∧ isQuote closing = true ∧
        t = opening :: (value ++ closing :: rest) := by
  constructor
  · intro h
    cases t with
    | nil => cases h
    | cons opening t =>
      rw [quotedAt?] at h
      split at h
      · rename_i hopening
        split at h
        · rename_i v vs closing rest htake hdrop
          obtain rfl := Option.some.inj h
          refine ⟨List.cons_ne_nil v vs, fun c hc => ?_, opening, closing, rest, hopening, ?_, ?_⟩
          · rw [← htake] at hc
            simpa using List.all_eq_true.mp List.all_takeWhile c hc
          · have hhead : (t.dropWhile fun c => !isQuote c).head? = some closing := by
              rw [hdrop]
              rfl
            simpa using head?_dropWhile hhead
          · rw [← htake, ← hdrop, List.takeWhile_append_dropWhile]
        · cases h
      · cases h
  · rintro ⟨hne, hvalue, opening, closing, rest, hopening, hclosing, rfl⟩
    obtain ⟨v, vs, rfl⟩ := List.exists_cons_of_ne_nil hne
    obtain ⟨htake, hdrop⟩ := takeWhile_append_cons (p := fun c => !isQuote c)
      (fun d hd => by simp [hvalue d hd]) (show (!isQuote closing) = false by simp [hclosing]) rest
    rw [quotedAt?, if_pos hopening, htake, hdrop]

theorem attributeAt?_eq_some_iff {t value : Text} :
    attributeAt? t = some value ↔ AttributeAt t value := by
  rw [attributeAt?, Option.bind_eq_some_iff]
  constructor
  · rintro ⟨rest, hrest, hquoted⟩
    obtain ⟨hne, hvalue, opening, closing, tail, hopening, hclosing, rfl⟩ :=
      quotedAt?_eq_some_iff.mp hquoted
    have hnamed : ∃ name ∈ ["href".toList, "src".toList],
        t = name ++ '=' :: opening :: (value ++ closing :: tail) := by
      rcases Option.or_eq_some_iff.mp hrest with h | ⟨_, h⟩
      · exact ⟨"href".toList, List.mem_cons_self, (after?_eq_some_iff.mp h).trans rfl⟩
      · exact ⟨"src".toList, List.mem_cons_of_mem _ List.mem_cons_self,
          (after?_eq_some_iff.mp h).trans rfl⟩
    obtain ⟨name, hname, rfl⟩ := hnamed
    exact ⟨_, ⟨hne, hvalue, name, hname, opening, closing, hopening, hclosing, rfl⟩, tail, by simp⟩
  · rintro ⟨_, ⟨hne, hvalue, name, hname, opening, closing, hopening, hclosing, rfl⟩, tail, rfl⟩
    refine ⟨opening :: (value ++ closing :: tail), ?_, quotedAt?_eq_some_iff.mpr
      ⟨hne, hvalue, opening, closing, tail, hopening, hclosing, rfl⟩⟩
    -- the two names differ in their first letter, so the order of the readers does not matter
    rcases List.mem_cons.mp hname with rfl | hname
    · exact Option.or_eq_some_iff.mpr (.inl (after?_eq_some_iff.mpr (by simp)))
    · obtain rfl := List.mem_singleton.mp hname
      exact Option.or_eq_some_iff.mpr (.inr ⟨rfl, after?_eq_some_iff.mpr (by simp)⟩)

theorem attributeAt?_eq_none_iff {t : Text} :
    attributeAt? t = none ↔ ∀ value, ¬ AttributeAt t value := by
  rw [Option.eq_none_iff_forall_ne_some]
  exact forall_congr' fun value => not_congr attributeAt?_eq_some_iff

/-- What is collected from a line is what its leftmost attribute names. -/
theorem lineAssets_ofLine (line : Text) : LineAssets line (ofLine line) := by
  rw [ofLine]
  split
  · rename_i before value hsearch
    obtain ⟨t, hline, hread, hleft⟩ := search_eq_some_iff.mp hsearch
    exact .named ⟨before, t, hline.symm, attributeAt?_eq_some_iff.mp hread,
      fun u v huv hv => attributeAt?_eq_none_iff.mp (hleft u v huv hv)⟩
  · rename_i hsearch
    exact .unnamed fun u v huv =>
      attributeAt?_eq_none_iff.mp (search_eq_none_iff.mp hsearch u v huv)

/-- An attribute without a value is passed over. -/
example : ofLine "<script href='' src='a.js, b.js'>".toList = ["a.js".toList, "b.js".toList] := by
  decide

/-- An asset is not empty, has no blanks at its ends and holds no comma. -/
theorem wellFormed_of_mem_ofLine {line asset : Text} (h : asset ∈ ofLine line) :
    WellFormed asset := by
  rw [ofLine] at h
  split at h
  · obtain ⟨hmem, hne⟩ := List.mem_filter.mp h
    obtain ⟨piece, hpiece, rfl⟩ := List.mem_map.mp hmem
    refine ⟨by simpa using hne, trimmed_trim piece, fun hc => ?_⟩
    exact not_mem_of_mem_splitOn hpiece (mem_of_mem_trim hc)
  · exact absurd h List.not_mem_nil

end Asset
end BuildBlocks
