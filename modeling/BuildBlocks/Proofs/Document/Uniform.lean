import BuildBlocks.Proofs.Document.Returns

/-! # Documents with line breaks of one kind

A document with line breaks of one kind is the texts between them with this line break between
each two neighbours (`join_betweenBreaks`), and texts that are put together so are read back
(`betweenBreaks_join`).  The texts are those of its lines, and an empty one behind a line break
at its end.
-/
namespace BuildBlocks
open Text

namespace Text

/-- Carriage returns and line feeds stand next to each other in this order, and never alone. -/
inductive Paired : Text → Prop
  | nil : Paired []
  | cons {c : Char} {t : Text} (hreturn : c ≠ '\r') (hfeed : c ≠ '\n') (h : Paired t) :
      Paired (c :: t)
  | pair {t : Text} (h : Paired t) : Paired ('\r' :: '\n' :: t)

/-- All line breaks are of one kind: there is no carriage return at all, or none without a line
feed and no line feed without a carriage return. -/
def Uniform (t : Text) : Prop :=
  '\r' ∉ t ∨ Paired t

theorem paired_withReturns {t : Text} (h : '\r' ∉ t) : Paired (withReturns t) := by
  induction t with
  | nil => exact .nil
  | cons c t ih =>
    obtain ⟨hc, ht⟩ : '\r' ≠ c ∧ '\r' ∉ t := by simpa using h
    by_cases hfeed : c = '\n'
    · rw [hfeed, withReturns_lineFeed]
      exact .pair (ih ht)
    · rw [withReturns_cons hfeed]
      exact .cons (Ne.symm hc) hfeed (ih ht)

/-- The first separator of a text ends its first piece. -/
theorem splitOn_append {separator : Char} {piece : Text} (h : separator ∉ piece) (t : Text) :
    splitOn separator (piece ++ separator :: t) = piece :: splitOn separator t := by
  induction piece with
  | nil => rw [List.nil_append, splitOn, if_pos rfl]
  | cons c piece ih =>
    obtain ⟨hc, hpiece⟩ : separator ≠ c ∧ separator ∉ piece := by simpa using h
    exact splitOn_cons_of_ne (Ne.symm hc) (ih hpiece)

variable {separator : Text}

theorem join_cons {ts : List Text} (h : ts ≠ []) (t : Text) :
    join separator (t :: ts) = t ++ separator ++ join separator ts := by
  obtain ⟨u, rest, rfl⟩ := List.exists_cons_of_ne_nil h
  rfl

/-- With one more separator at the end there is one behind each text. -/
theorem join_append_separator {ts : List Text} (h : ts ≠ []) :
    join separator ts ++ separator = ts.flatMap (· ++ separator) := by
  induction ts with
  | nil => exact absurd rfl h
  | cons t ts ih =>
    by_cases hts : ts = []
    · rw [hts, List.flatMap_singleton]
      rfl
    · rw [join_cons hts, List.append_assoc, ih hts, List.flatMap_cons]

/-- Each text in front of a given one has a separator behind it, and each one behind it has a
separator in front. -/
theorem join_append_cons (ts : List Text) (t : Text) (us : List Text) :
    join separator (ts ++ t :: us) =
      ts.flatMap (· ++ separator) ++ (t ++ us.flatMap (separator ++ ·)) := by
  induction ts with
  | nil =>
    rw [List.nil_append, List.flatMap_nil, List.nil_append]
    induction us generalizing t with
    | nil => exact (List.append_nil t).symm
    | cons u us ih =>
      rw [join_cons (List.cons_ne_nil u us), ih, List.flatMap_cons, List.append_assoc,
        List.append_assoc]
  | cons s ts ih =>
    rw [List.cons_append, join_cons (by simp), ih, List.flatMap_cons, List.append_assoc,
      List.append_assoc, List.append_assoc]

/-- The separator at the end is that in front of an empty text. -/
theorem join_concat_nil (ts : List Text) :
    join separator (ts ++ [[]]) = ts.flatMap (· ++ separator) := by
  rw [join_append_cons, List.flatMap_nil, List.append_nil, List.append_nil]

end Text

namespace Line
variable {document : Text} {ending : LineEnding} {ls ms : List Line} {l : Line}

/-! ## The lines of a uniform document -/

/-- A line without carriage returns, which has the given line break if it has one at all. -/
structure EndsWith (ending : LineEnding) (l : Line) : Prop where
  unreturned : '\r' ∉ l.text
  ending : ∀ e, l.ending = some e → e = ending

theorem not_mem_extend {c : Char} (hc : c ≠ '\r')
    (h : ∀ l ∈ ls, '\r' ∉ l.text ∧ l.ending ≠ some .lf) :
    ∀ l ∈ extend c ls, '\r' ∉ l.text ∧ l.ending ≠ some .lf := by
  cases ls with
  | nil => simpa [extend] using Ne.symm hc
  | cons l rest =>
    obtain ⟨⟨hl, he⟩, hrest⟩ := List.forall_mem_cons.mp h
    rw [extend, if_neg fun hpair => hc hpair.1]
    refine List.forall_mem_cons.mpr ⟨⟨?_, he⟩, hrest⟩
    simpa [Ne.symm hc] using hl

theorem not_mem_of_paired (h : Paired document) :
    ∀ l ∈ lines document, '\r' ∉ l.text ∧ l.ending ≠ some .lf := by
  induction h with
  | nil => exact fun l hl => absurd hl List.not_mem_nil
  | cons hreturn hfeed _ ih =>
    rw [lines, if_neg hfeed]
    exact not_mem_extend hreturn ih
  | @pair t _ ih =>
    have hlines : lines ('\r' :: '\n' :: t) = ⟨[], some .crlf⟩ :: lines t := by
      simp [lines, extend]
    rw [hlines]
    exact List.forall_mem_cons.mpr ⟨by simp, ih⟩

/-- The lines of a uniform document end with the line break that is told from it. -/
theorem endsWith_detect (h : Uniform document) (hl : l ∈ lines document) :
    l.EndsWith (.detect document) := by
  rcases h with h | h
  · refine ⟨fun hmem => h ((infix_of_mem_lines hl).subset hmem), fun e he => ?_⟩
    rw [LineEnding.detect_of_not_mem h]
    cases e with
    | lf => rfl
    | crlf => exact absurd he (ending_ne_crlf h hl)
  · obtain ⟨hreturn, hlf⟩ := not_mem_of_paired h l hl
    refine ⟨hreturn, fun e he => ?_⟩
    cases e with
    | lf => exact absurd he hlf
    | crlf =>
      rw [LineEnding.detect, if_pos]
      exact (holds_crlf_iff document).mpr ⟨l, hl, he⟩

/-! ## A line break at the end -/

/-- What lines lack to end with a line break. -/
def missingBreak (ending : LineEnding) (ls : List Line) : Text :=
  if ls.all (·.ending.isSome) then [] else ending.text

theorem all_isSome_ending (h : ∀ l ∈ ls, l.ending ≠ none) : ls.all (·.ending.isSome) = true :=
  List.all_eq_true.mpr fun l hl => Option.isSome_iff_ne_none.mpr (h l hl)

theorem missingBreak_of_ended (h : ∀ l ∈ ls, l.ending ≠ none) : missingBreak ending ls = [] :=
  if_pos (all_isSome_ending h)

theorem missingBreak_append (h : ∀ l ∈ ls, l.ending ≠ none) :
    missingBreak ending (ls ++ ms) = missingBreak ending ms := by
  rw [missingBreak, List.all_append, all_isSome_ending h, Bool.true_and, missingBreak]

/-- When the last line gets its line break, each text has one behind it. -/
theorem flatMap_source_append_missingBreak (hdivided : Divided ls)
    (hends : ∀ l ∈ ls, l.EndsWith ending) :
    ls.flatMap source ++ missingBreak ending ls = (ls.map text).flatMap (· ++ ending.text) := by
  induction ls with
  | nil => rfl
  | cons l ls ih =>
    obtain ⟨hl, hrest⟩ := List.forall_mem_cons.mp hends
    cases he : l.ending with
    | none =>
      obtain rfl : ls = [] := by
        by_contra hne
        exact hdivided.ended_of_cons hne he
      simp [source, missingBreak, he]
    | some e =>
      obtain rfl := hl.ending e he
      have hmissing : missingBreak e (l :: ls) = missingBreak e ls :=
        missingBreak_append (List.forall_mem_singleton.mpr (by rw [he]; exact Option.some_ne_none e))
      rw [List.flatMap_cons, hmissing, List.append_assoc, ih hdivided.tail hrest, List.map_cons,
        List.flatMap_cons, source, he]
      rfl

/-! ## The texts between line breaks -/

/-- The texts between the line breaks of a document.  There is always one, and the last one is
empty when the document ends with a line break. -/
def betweenBreaks (document : Text) : List Text :=
  let pieces := splitOn '\n' document
  pieces.dropLast.map dropReturn ++ pieces.getLast?.toList

theorem betweenBreaks_of_not_mem {t : Text} (h : '\n' ∉ t) : betweenBreaks t = [t] := by
  rw [betweenBreaks, splitOn_of_not_mem h]
  rfl

theorem betweenBreaks_append {t : Text} (hfeed : '\n' ∉ t) (hreturn : '\r' ∉ t)
    (ending : LineEnding) (rest : Text) :
    betweenBreaks (t ++ ending.text ++ rest) = t :: betweenBreaks rest := by
  -- in front of the line feed stands a piece of which `t` is left
  obtain ⟨piece, hpiece, htext, hdrop⟩ : ∃ piece : Text, '\n' ∉ piece ∧
      t ++ ending.text ++ rest = piece ++ '\n' :: rest ∧ dropReturn piece = t := by
    cases ending with
    | lf =>
      refine ⟨t, hfeed, by simp [LineEnding.text], ?_⟩
      rw [dropReturn, if_neg fun hlast => hreturn (List.mem_of_getLast? hlast)]
    | crlf => exact ⟨t ++ ['\r'], by simp [hfeed], by simp [LineEnding.text], by simp [dropReturn]⟩
  obtain ⟨next, pieces, hrest⟩ := List.exists_cons_of_ne_nil (splitOn_ne_nil '\n' rest)
  rw [htext, betweenBreaks, splitOn_append hpiece, betweenBreaks, hrest, List.dropLast_cons_cons,
    List.map_cons, hdrop, List.getLast?_cons_cons]
  rfl

/-- **Texts without line breaks are read back** from the document that they make with line breaks
between them. -/
theorem betweenBreaks_join {ts : List Text} (hne : ts ≠ [])
    (h : ∀ t ∈ ts, '\n' ∉ t ∧ '\r' ∉ t) (ending : LineEnding) :
    betweenBreaks (join ending.text ts) = ts := by
  induction ts with
  | nil => exact absurd rfl hne
  | cons t ts ih =>
    obtain ⟨⟨hfeed, hreturn⟩, hrest⟩ := List.forall_mem_cons.mp h
    by_cases hts : ts = []
    · rw [hts]
      exact betweenBreaks_of_not_mem hfeed
    · rw [join_cons hts, betweenBreaks_append hfeed hreturn, ih hts hrest]

/-- The empty text behind lines, if all of them have line breaks. -/
def endBlank (ls : List Line) : List Text :=
  if ls.all (·.ending.isSome) then [[]] else []

/-- Between line breaks stand the texts of the lines, and the empty one behind them. -/
theorem betweenBreaks_eq (document : Text) :
    betweenBreaks document = (lines document).map text ++ endBlank (lines document) := by
  rw [map_text_lines, texts, betweenBreaks, lines_eq_ofPieces, ofPieces, List.append_assoc]
  congr 1
  obtain ⟨last, hlast⟩ := Option.ne_none_iff_exists'.mp
    (mt List.getLast?_eq_none_iff.mp (splitOn_ne_nil '\n' document))
  have hended : ((splitOn '\n' document).dropLast.map ofPiece).all (·.ending.isSome) = true :=
    List.all_eq_true.mpr fun l hl => by
      obtain ⟨piece, _, rfl⟩ := List.mem_map.mp hl
      rfl
  rw [endBlank, List.all_append, hended, hlast]
  cases last <;> simp

theorem not_mem_of_mem_betweenBreaks (h : Uniform document) {t : Text}
    (ht : t ∈ betweenBreaks document) : '\n' ∉ t ∧ '\r' ∉ t := by
  rw [betweenBreaks_eq] at ht
  rcases List.mem_append.mp ht with ht | ht
  · obtain ⟨l, hl, rfl⟩ := List.mem_map.mp ht
    exact ⟨((divided_lines document).whole l hl).unbroken, (endsWith_detect h hl).unreturned⟩
  · rw [endBlank] at ht
    split at ht
    · rw [List.mem_singleton.mp ht]
      exact ⟨List.not_mem_nil, List.not_mem_nil⟩
    · exact absurd ht List.not_mem_nil

/-- A text is put together from the texts that its lines leave, and from the empty one at its end
if all of them are ended. -/
theorem eq_join_of_append_missingBreak {t : Text} {ts : List Text}
    (h : t ++ missingBreak ending ls = ts.flatMap (· ++ ending.text)) :
    ts ++ endBlank ls ≠ [] ∧ t = join ending.text (ts ++ endBlank ls) := by
  rw [missingBreak] at h
  rw [endBlank]
  split at h
  · rename_i hended
    rw [if_pos hended, join_concat_nil, ← h, List.append_nil]
    exact ⟨List.concat_ne_nil _ _, rfl⟩
  · rename_i hended
    have hne : ts ≠ [] := by
      rintro rfl
      cases ending <;> simp [LineEnding.text] at h
    rw [← join_append_separator hne] at h
    rw [if_neg hended, List.append_nil]
    exact ⟨hne, List.append_cancel_right h⟩

/-- A uniform document is the texts between its line breaks with line breaks between them. -/
theorem join_betweenBreaks (h : Uniform document) :
    document = join (LineEnding.detect document).text (betweenBreaks document) := by
  have hsource := flatMap_source_append_missingBreak (divided_lines document)
    fun l hl => endsWith_detect h hl
  rw [flatMap_source_lines] at hsource
  rw [betweenBreaks_eq]
  exact (eq_join_of_append_missingBreak hsource).2

end Line
end BuildBlocks
