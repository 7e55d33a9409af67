import BuildBlocks.Line
import BuildBlocks.Proofs.Text.Mark
import BuildBlocks.Text.Letters

/-! # Texts with a carriage return in front of every line feed

`withReturns` turns one kind of line break into the other.  A reader that starts at no line break
and goes over none finds the same in both texts (`search_withReturns`), and so does every search
for a word or a mark.
-/
namespace BuildBlocks.Text

/-- The text with a carriage return in front of every line feed. -/
def withReturns (t : Text) : Text :=
  t.flatMap fun c => if c = '\n' then LineEnding.crlf.text else [c]

variable {t u lead mark : Text}

@[simp] theorem withReturns_nil : withReturns [] = [] := rfl

@[simp] theorem withReturns_append (t u : Text) :
    withReturns (t ++ u) = withReturns t ++ withReturns u :=
  List.flatMap_append

@[simp] theorem withReturns_lf : withReturns LineEnding.lf.text = LineEnding.crlf.text := rfl

theorem withReturns_lineFeed (t : Text) :
    withReturns ('\n' :: t) = '\r' :: '\n' :: withReturns t := rfl

theorem withReturns_cons {c : Char} (hc : c ≠ '\n') (t : Text) :
    withReturns (c :: t) = c :: withReturns t := by
  rw [withReturns, List.flatMap_cons, if_neg hc]
  rfl

theorem withReturns_of_not_mem (h : '\n' ∉ t) : withReturns t = t := by
  induction t with
  | nil => rfl
  | cons c t ih =>
    obtain ⟨hc, ht⟩ : '\n' ≠ c ∧ '\n' ∉ t := by simpa using h
    rw [withReturns_cons (Ne.symm hc), ih ht]

theorem mem_withReturns_iff : '\n' ∈ withReturns t ↔ '\n' ∈ t := by
  induction t with
  | nil => exact Iff.rfl
  | cons c t ih =>
    by_cases hc : c = '\n'
    · subst hc
      simp [withReturns_lineFeed]
    · rw [withReturns_cons hc, List.mem_cons, List.mem_cons, ih]

/-- Only a text without line feeds stays as it is. -/
theorem withReturns_eq_self_iff : withReturns t = t ↔ '\n' ∉ t := by
  refine ⟨fun h hmem => ?_, withReturns_of_not_mem⟩
  -- what stands behind the text up to its first line feed would have to start with both characters
  obtain ⟨u, v, rfl, hu⟩ := List.eq_append_cons_of_mem hmem
  rw [withReturns_append, withReturns_of_not_mem hu, withReturns_lineFeed] at h
  obtain ⟨hfirst, _⟩ := List.cons.inj (List.append_cancel_left h)
  exact absurd hfirst (by decide)

/-- Lines put together with one line break, and with the other. -/
theorem withReturns_join {lines : List Text} (h : ∀ l ∈ lines, '\n' ∉ l) :
    withReturns (join LineEnding.lf.text lines) = join LineEnding.crlf.text lines := by
  induction lines with
  | nil => rfl
  | cons l lines ih =>
    obtain ⟨hl, hlines⟩ := List.forall_mem_cons.mp h
    cases lines with
    | nil => exact withReturns_of_not_mem hl
    | cons m lines =>
      rw [join, join, withReturns_append, withReturns_append, withReturns_of_not_mem hl, ih hlines]
      rfl

/-! ## Readers -/

theorem after?_withReturns (hfeed : '\n' ∉ lead) (hreturn : '\r' ∉ lead) (t : Text) :
    after? lead (withReturns t) = (after? lead t).map withReturns := by
  induction lead generalizing t with
  | nil => rfl
  | cons p lead ih =>
    obtain ⟨hpfeed, hfeed⟩ : '\n' ≠ p ∧ '\n' ∉ lead := by simpa using hfeed
    obtain ⟨hpreturn, hreturn⟩ : '\r' ≠ p ∧ '\r' ∉ lead := by simpa using hreturn
    cases t with
    | nil => rfl
    | cons c t =>
      by_cases hc : c = '\n'
      · subst hc
        rw [withReturns_lineFeed, after?, after?, if_neg hpreturn, if_neg hpfeed]
        rfl
      · rw [withReturns_cons hc, after?, after?, ih hfeed hreturn]
        split <;> rfl

theorem afterFolded?_withReturns (hfeed : '\n' ∉ lead) (hreturn : '\r' ∉ lead) (t : Text) :
    afterFolded? lead (withReturns t) =
      (afterFolded? lead t).map fun (written, rest) => (written, withReturns rest) := by
  induction lead generalizing t with
  | nil => rfl
  | cons p lead ih =>
    obtain ⟨hpfeed, hfeed⟩ : '\n' ≠ p ∧ '\n' ∉ lead := by simpa using hfeed
    obtain ⟨hpreturn, hreturn⟩ : '\r' ≠ p ∧ '\r' ∉ lead := by simpa using hreturn
    cases t with
    | nil => rfl
    | cons c t =>
      by_cases hc : c = '\n'
      · subst hc
        have hfoldReturn : foldCase '\r' = '\r' := rfl
        have hfoldFeed : foldCase '\n' = '\n' := rfl
        rw [withReturns_lineFeed, afterFolded?, afterFolded?, hfoldReturn, hfoldFeed,
          if_neg hpreturn, if_neg hpfeed]
        rfl
      · rw [withReturns_cons hc, afterFolded?, afterFolded?, ih hfeed hreturn]
        split
        · cases afterFolded? lead t <;> rfl
        · rfl

/-! ## Searches -/

/-- A reader that starts at no line break and that carriage returns do not disturb finds the same
place. -/
theorem search_withReturns {α : Type} {read : Text → Option α} {f : α → α}
    (hfeed : ∀ u, read ('\n' :: u) = none) (hreturn : ∀ u, read ('\r' :: u) = none)
    (hread : ∀ u v, u ++ v = t → read (withReturns v) = (read v).map f) :
    search read (withReturns t) =
      (search read t).map fun (before, a) => (withReturns before, f a) := by
  induction t with
  | nil =>
    rw [withReturns_nil, search]
    conv_lhs => rw [show read [] = (read []).map f from hread [] [] rfl]
    cases read [] <;> rfl
  | cons c t ih =>
    have hrest := ih fun u v huv => hread (c :: u) v (by rw [List.cons_append, huv])
    by_cases hc : c = '\n'
    · -- neither character of the line break is a place
      subst hc
      rw [withReturns_lineFeed, search, search, search, hreturn, hfeed, hfeed]
      simp only [hrest]
      cases search read t <;> rfl
    · have hplace := hread [] (c :: t) rfl
      rw [withReturns_cons hc] at hplace ⊢
      rw [search, search, hplace]
      cases read (c :: t) with
      | some a => rfl
      | none =>
        simp only [Option.map_none, hrest]
        cases search read t with
        | none => rfl
        | some place => simp [withReturns_cons hc]

/-- What carriage returns do not change is found in both texts or in neither. -/
theorem isSome_search_withReturns {α : Type} {read : Text → Option α}
    (hfeed : ∀ u, read ('\n' :: u) = none) (hreturn : ∀ u, read ('\r' :: u) = none)
    (hread : ∀ u, read (withReturns u) = read u) (t : Text) :
    (search read (withReturns t)).isSome = (search read t).isSome := by
  have hsearch := search_withReturns (f := id) (t := t) hfeed hreturn
    fun _ v _ => by rw [hread, Option.map_id_fun, id]
  rw [hsearch, Option.isSome_map]

/-- A mark without line breaks cuts both texts at the same place. -/
theorem cut?_withReturns {m : Char} {ms : Text} (hmark : mark = m :: ms) (hfeed : '\n' ∉ mark)
    (hreturn : '\r' ∉ mark) (t : Text) :
    cut? mark (withReturns t) =
      (cut? mark t).map fun (before, rest) => (withReturns before, withReturns rest) := by
  subst hmark
  obtain ⟨hmfeed, _⟩ : '\n' ≠ m ∧ '\n' ∉ ms := by simpa using hfeed
  obtain ⟨hmreturn, _⟩ : '\r' ≠ m ∧ '\r' ∉ ms := by simpa using hreturn
  exact search_withReturns (fun u => if_neg hmfeed) (fun u => if_neg hmreturn)
    fun _ v _ => after?_withReturns hfeed hreturn v

/-- A word without line breaks is found in both texts at the same place. -/
theorem search_afterFolded?_withReturns {p : Char} {ps : Text} (hlead : lead = p :: ps)
    (hfeed : '\n' ∉ lead) (hreturn : '\r' ∉ lead) (t : Text) :
    search (afterFolded? lead) (withReturns t) =
      (search (afterFolded? lead) t).map fun (before, written, rest) =>
        (withReturns before, written, withReturns rest) := by
  subst hlead
  obtain ⟨hpfeed, _⟩ : '\n' ≠ p ∧ '\n' ∉ ps := by simpa using hfeed
  obtain ⟨hpreturn, _⟩ : '\r' ≠ p ∧ '\r' ∉ ps := by simpa using hreturn
  exact search_withReturns (f := fun x : Text × Text => (x.1, withReturns x.2))
    (fun u => if_neg hpfeed) (fun u => if_neg hpreturn)
    fun _ v _ => afterFolded?_withReturns hfeed hreturn v

end BuildBlocks.Text
