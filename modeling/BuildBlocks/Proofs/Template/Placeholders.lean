import BuildBlocks.Proofs.Text.Mark
import BuildBlocks.Template

/-! # Which names in braces a template reads

A template is read from brace to brace: an opening brace is put together with the next closing
one, whatever stands between them, and reading goes on behind the pair.  So a name in braces is
seen exactly when no opening brace in front of it is still waiting for a closing one (`Seen`); in
`a { b: {target} }` the outer brace hides the placeholder.  Of what is seen everything is put to
use: an unknown name is an error, and any other is a placeholder (`parse_placeholders`).
-/
namespace BuildBlocks
open Text

namespace Placeholder

theorem ofName?_eq_some_iff {t : Text} {p : Placeholder} : ofName? t = some p ↔ p.name = t := by
  constructor
  · intro h
    simpa using List.find?_some h
  · rintro rfl
    cases p <;> decide

theorem ofName?_eq_none_iff {t : Text} : ofName? t = none ↔ ∀ p : Placeholder, p.name ≠ t := by
  rw [Option.eq_none_iff_forall_ne_some]
  exact forall_congr' fun p => not_congr ofName?_eq_some_iff

theorem name_injective {p q : Placeholder} (h : p.name = q.name) : p = q :=
  Option.some.inj ((ofName?_eq_some_iff.mpr h).symm.trans (ofName?_eq_some_iff.mpr rfl))

theorem isName_name (p : Placeholder) : BlockType.isName p.name = true := by
  cases p <;> decide

end Placeholder

namespace Template

/-- Every opening brace of the text has a closing one behind it. -/
def Settled (t : Text) : Prop :=
  ∀ u v, t = u ++ '{' :: v → '}' ∈ v

/-- A name in braces stands in the text, in front of `after` and behind a text in which no brace
is left open. -/
structure Seen (t before name after : Text) : Prop where
  source : t = before ++ '{' :: (name ++ '}' :: after)
  isName : BlockType.isName name = true
  settled : Settled before

/-- The name is none of a placeholder. -/
def Unknown (name : Text) : Prop :=
  ∀ p : Placeholder, p.name ≠ name

/-- The leftmost unknown name that is seen. -/
structure FirstUnknown (t before name after : Text) : Prop extends Seen t before name after where
  unknown : Unknown name
  leftmost : ∀ before' name' after', Seen t before' name' after' → Unknown name' →
    before.length ≤ before'.length

/-- The placeholder is one of the pieces, with `before` written in front of it and `after` behind
it. -/
def PlacedAt (pieces : List Piece) (before : Text) (p : Placeholder) (after : Text) : Prop :=
  ∃ front back, pieces = front ++ .placeholder p :: back ∧
    front.flatMap Piece.source = before ∧ back.flatMap Piece.source = after

variable {t first inside found rest before name after later : Text} {pieces : List Piece}
  {p : Placeholder}

/-! ## From one pair of braces to the next -/

theorem settled_of_not_mem (h : '{' ∉ t) : Settled t := by
  rintro u v rfl
  exact absurd (List.mem_append_right u List.mem_cons_self) h

/-- Up to a closing brace all is settled. -/
theorem settled_append_iff (u : Text) : Settled (u ++ '}' :: later) ↔ Settled later := by
  constructor
  · rintro h x v rfl
    exact h (u ++ '}' :: x) v (by simp)
  · intro h x v hsplit
    rcases List.append_eq_append_iff.mp hsplit with ⟨gap, rfl, hgap⟩ | ⟨gap, rfl, hgap⟩
    · cases gap with
      | nil => cases hgap
      | cons c gap =>
        obtain ⟨rfl, rfl⟩ := List.cons.inj hgap
        exact h gap v rfl
    · cases gap with
      | nil => cases hgap
      | cons c gap =>
        obtain ⟨rfl, rfl⟩ := List.cons.inj hgap
        exact List.mem_append_right gap List.mem_cons_self

theorem not_mem_of_isName (h : BlockType.isName name = true) : '}' ∉ name := by
  intro hmem
  have hall := (Bool.and_eq_true _ _ ▸ h : _ ∧ _).2
  exact absurd (List.all_eq_true.mp hall _ hmem) (by decide)

/-- What is seen in a text is what stands in the first pair of braces, if it is a name, and what is
seen behind that pair. -/
theorem seen_iff_of_cut? (hopen : cut? ['{'] t = some (first, inside))
    (hclose : cut? ['}'] inside = some (found, rest)) :
    Seen t before name after ↔
      (BlockType.isName name = true ∧ before = first ∧ name = found ∧ after = rest) ∨
        ∃ later, before = first ++ '{' :: (found ++ '}' :: later) ∧ Seen rest later name after := by
  obtain ⟨hsource, hfirst⟩ := cut?_singleton_eq_some_iff.mp hopen
  obtain ⟨hinside, _⟩ := cut?_singleton_eq_some_iff.mp hclose
  constructor
  · rintro ⟨ht, hname, hsettled⟩
    rw [ht] at hopen
    rcases of_cut?_singleton_append hopen with ⟨rfl, rfl⟩ | ⟨gap, rfl, rfl⟩
    · rw [cut?_singleton_eq_some_iff.mpr ⟨rfl, not_mem_of_isName hname⟩] at hclose
      obtain ⟨rfl, rfl⟩ := Prod.mk.inj (Option.some.inj hclose)
      exact .inl ⟨hname, rfl, rfl, rfl⟩
    · -- the first opening brace stands in front of the name, and is closed in front of it
      obtain ⟨w, later, rfl, hw⟩ := List.eq_append_cons_of_mem (hsettled first gap rfl)
      rw [List.append_assoc, List.cons_append,
        cut?_singleton_eq_some_iff.mpr ⟨rfl, hw⟩] at hclose
      obtain ⟨rfl, rfl⟩ := Prod.mk.inj (Option.some.inj hclose)
      refine .inr ⟨later, rfl, rfl, hname, ?_⟩
      rwa [← List.cons_append, ← List.append_assoc, settled_append_iff] at hsettled
  · rintro (⟨hname, rfl, rfl, rfl⟩ | ⟨later, rfl, rfl, hname, hsettled⟩)
    · exact ⟨by rw [hsource, hinside], hname, settled_of_not_mem hfirst⟩
    · refine ⟨by rw [hsource, hinside]; simp, hname, ?_⟩
      rwa [← List.cons_append, ← List.append_assoc, settled_append_iff]

/-- Nothing is seen in a text without a pair of braces. -/
theorem not_seen_of_cut? (h : ∀ first inside, cut? ['{'] t = some (first, inside) → '}' ∉ inside) :
    ¬ Seen t before name after := by
  rintro ⟨rfl, _, _⟩
  cases hopen : cut? ['{'] (before ++ '{' :: (name ++ '}' :: after)) with
  | none =>
    exact cut?_singleton_eq_none_iff.mp hopen (List.mem_append_right before List.mem_cons_self)
  | some cut =>
    refine h cut.1 cut.2 hopen ?_
    rcases of_cut?_singleton_append hopen with ⟨_, hinside⟩ | ⟨gap, _, hinside⟩
    · simp [hinside]
    · simp [hinside]

/-! ## What is read -/

theorem placedAt_nil : ¬ PlacedAt [] before p after := by
  rintro ⟨front, back, hpieces, _⟩
  cases front <;> cases hpieces

/-- A placeholder is the first piece or stands behind it. -/
theorem placedAt_cons_iff {piece : Piece} :
    PlacedAt (piece :: pieces) before p after ↔
      (piece = .placeholder p ∧ before = [] ∧ pieces.flatMap Piece.source = after) ∨
        ∃ later, before = piece.source ++ later ∧ PlacedAt pieces later p after := by
  constructor
  · rintro ⟨front, back, hpieces, rfl, rfl⟩
    cases front with
    | nil =>
      obtain ⟨rfl, rfl⟩ := List.cons.inj hpieces
      exact .inl ⟨rfl, rfl, rfl⟩
    | cons q front =>
      obtain ⟨rfl, rfl⟩ := List.cons.inj hpieces
      exact .inr ⟨front.flatMap Piece.source, rfl, front, back, rfl, rfl, rfl⟩
  · rintro (⟨rfl, rfl, rfl⟩ | ⟨later, rfl, front, back, rfl, rfl, rfl⟩)
    · exact ⟨[], pieces, rfl, rfl, rfl⟩
    · exact ⟨piece :: front, back, rfl, rfl, rfl⟩

theorem placedAt_literal_cons_iff {x : Text} :
    PlacedAt (.literal x :: pieces) before p after ↔
      ∃ later, before = x ++ later ∧ PlacedAt pieces later p after := by
  rw [placedAt_cons_iff, or_iff_right fun h => by cases h.1]
  rfl

/-- What reading a text comes to: the first unknown name that is seen, or pieces that write the
text and whose placeholders are the names that are seen. -/
def Reads (t : Text) : Except Text (List Piece) → Prop
  | .error name => ∃ before after, FirstUnknown t before name after
  | .ok pieces => pieces.flatMap Piece.source = t ∧ ∀ before name after,
      Seen t before name after ↔ ∃ p : Placeholder, p.name = name ∧ PlacedAt pieces before p after

theorem reads_literal (h : ∀ before name after, ¬ Seen t before name after) :
    Reads t (.ok [.literal t]) := by
  refine ⟨by simp [Piece.source], fun before name after => iff_of_false (h _ _ _) ?_⟩
  rintro ⟨p, _, hplaced⟩
  obtain ⟨_, _, hplaced⟩ := placedAt_literal_cons_iff.mp hplaced
  exact placedAt_nil hplaced

/-- Reading goes on behind a pair of braces when what they hold is no unknown name. -/
theorem Reads.map {r : Except Text (List Piece)} {f : List Piece → List Piece} (h : Reads rest r)
    (hopen : cut? ['{'] t = some (first, inside)) (hclose : cut? ['}'] inside = some (found, rest))
    (hfound : BlockType.isName found = true → ∃ p : Placeholder, p.name = found)
    (hsource : ∀ pieces, (f pieces).flatMap Piece.source =
      first ++ '{' :: (found ++ '}' :: pieces.flatMap Piece.source))
    (hplaced : ∀ pieces before p after, PlacedAt (f pieces) before p after ↔
      (p.name = found ∧ before = first ∧ pieces.flatMap Piece.source = after) ∨
        ∃ later, before = first ++ '{' :: (found ++ '}' :: later) ∧
          PlacedAt pieces later p after) :
    Reads t (r.map f) := by
  cases r with
  | error name =>
    obtain ⟨before, after, hfirst⟩ := h
    refine ⟨first ++ '{' :: (found ++ '}' :: before), after,
      (seen_iff_of_cut? hopen hclose).mpr (.inr ⟨before, rfl, hfirst.toSeen⟩), hfirst.unknown,
      fun before' name' after' hseen hunknown => ?_⟩
    rcases (seen_iff_of_cut? hopen hclose).mp hseen with ⟨hname, _, rfl, _⟩ | ⟨later, rfl, hlater⟩
    · obtain ⟨p, hp⟩ := hfound hname
      exact absurd hp (hunknown p)
    · have hle := hfirst.leftmost _ _ _ hlater hunknown
      simp only [List.length_append, List.length_cons]
      omega
  | ok pieces =>
    obtain ⟨hwritten, hseen⟩ := h
    have ht : t = first ++ '{' :: (found ++ '}' :: rest) := by
      rw [(cut?_singleton_eq_some_iff.mp hopen).1, (cut?_singleton_eq_some_iff.mp hclose).1]
    refine ⟨by rw [hsource, hwritten, ht], fun before name after => ?_⟩
    rw [seen_iff_of_cut? hopen hclose]
    constructor
    · rintro (⟨hname, rfl, rfl, rfl⟩ | ⟨later, rfl, hlater⟩)
      · obtain ⟨p, hp⟩ := hfound hname
        exact ⟨p, hp, (hplaced ..).mpr (.inl ⟨hp, rfl, hwritten⟩)⟩
      · obtain ⟨p, hp, hlater⟩ := (hseen ..).mp hlater
        exact ⟨p, hp, (hplaced ..).mpr (.inr ⟨later, rfl, hlater⟩)⟩
    · rintro ⟨p, rfl, hp⟩
      rcases (hplaced ..).mp hp with ⟨hname, rfl, rfl⟩ | ⟨later, rfl, hlater⟩
      · exact .inl ⟨p.isName_name, rfl, hname, hwritten⟩
      · exact .inr ⟨later, rfl, (hseen ..).mpr ⟨p, rfl, hlater⟩⟩

theorem reads_read (t : Text) : Reads t (read t) := by
  fun_induction read t with
  | case1 t hopen =>
    refine reads_literal fun _ _ _ => not_seen_of_cut? fun first inside hcut => ?_
    rw [hopen] at hcut
    cases hcut
  | case2 t first inside hopen hclose =>
    refine reads_literal fun _ _ _ => not_seen_of_cut? fun first' inside' hcut => ?_
    rw [hopen] at hcut
    obtain ⟨rfl, rfl⟩ := Prod.mk.inj (Option.some.inj hcut)
    exact cut?_singleton_eq_none_iff.mp hclose
  | case3 t first inside hopen found rest hclose p hp ih =>
    -- the braces hold the name of a placeholder
    rw [Placeholder.ofName?_eq_some_iff] at hp
    refine ih.map hopen hclose (fun _ => ⟨p, hp⟩) (fun pieces => ?_) fun pieces before q after => ?_
    · simp [Piece.source, hp]
    · rw [placedAt_literal_cons_iff]
      simp only [placedAt_cons_iff, Piece.source, hp, Piece.placeholder.injEq]
      constructor
      · rintro ⟨_, rfl, ⟨rfl, rfl, hafter⟩ | ⟨later, rfl, hlater⟩⟩
        · exact .inl ⟨hp, List.append_nil first, hafter⟩
        · exact .inr ⟨later, by simp, hlater⟩
      · rintro (⟨hq, rfl, hafter⟩ | ⟨later, rfl, hlater⟩)
        · exact ⟨[], (List.append_nil before).symm,
            .inl ⟨Placeholder.name_injective (hp.trans hq.symm), rfl, hafter⟩⟩
        · exact ⟨'{' :: (found ++ '}' :: later), rfl, .inr ⟨later, by simp, hlater⟩⟩
  | case4 t first inside hopen found rest hclose hunknown hname =>
    refine ⟨first, rest, (seen_iff_of_cut? hopen hclose).mpr (.inl ⟨hname, rfl, rfl, rfl⟩),
      Placeholder.ofName?_eq_none_iff.mp hunknown, fun before' name' after' hseen _ => ?_⟩
    rcases (seen_iff_of_cut? hopen hclose).mp hseen with ⟨_, rfl, _⟩ | ⟨later, rfl, _⟩
    · exact Nat.le_refl _
    · simp
  | case5 t first inside hopen found rest hclose _ hname ih =>
    -- the braces hold no name
    refine ih.map hopen hclose (fun h => absurd h hname) (fun pieces => ?_)
      fun pieces before q after => ?_
    · simp [Piece.source]
    · have hq : q.name ≠ found := fun h => hname (h ▸ q.isName_name)
      simp only [placedAt_literal_cons_iff, hq, false_and, false_or, List.append_assoc,
        List.cons_append, List.nil_append]

/-- The leftmost unknown name that is seen is one name. -/
theorem FirstUnknown.name_eq {before' name' after' : Text} (h : FirstUnknown t before name after)
    (h' : FirstUnknown t before' name' after') : name = name' := by
  have hlength : before.length = before'.length :=
    Nat.le_antisymm (h.leftmost _ _ _ h'.toSeen h'.unknown) (h'.leftmost _ _ _ h.toSeen h.unknown)
  obtain ⟨_, hbraces⟩ := List.append_inj (h.source.symm.trans h'.source) hlength
  have hcut : cut? ['}'] (name ++ '}' :: after) = some (name', after') :=
    cut?_singleton_eq_some_iff.mpr ⟨(List.cons.inj hbraces).2, not_mem_of_isName h'.isName⟩
  rw [cut?_singleton_eq_some_iff.mpr ⟨rfl, not_mem_of_isName h.isName⟩] at hcut
  exact (Prod.mk.inj (Option.some.inj hcut)).1

theorem parse_eq_error_iff {kind : Text} {e : HandlerError} :
    parse kind t = .error e ↔
      ∃ before name after, FirstUnknown t before name after ∧
        e = .unknownPlaceholder kind name := by
  have hreads := reads_read t
  rw [parse]
  cases hread : read t with
  | error name =>
    rw [hread] at hreads
    obtain ⟨before, after, hfirst⟩ := hreads
    simp only [Except.error.injEq]
    constructor
    · rintro rfl
      exact ⟨before, name, after, hfirst, rfl⟩
    · rintro ⟨before', name', after', hfirst', rfl⟩
      rw [hfirst.name_eq hfirst']
  | ok pieces =>
    rw [hread] at hreads
    simp only [reduceCtorEq, false_iff]
    rintro ⟨before, name, after, hfirst, _⟩
    obtain ⟨p, hp, _⟩ := (hreads.2 _ _ _).mp hfirst.toSeen
    exact hfirst.unknown p hp

theorem reads_of_parse {kind : Text} {template : Template} (h : parse kind t = .ok template) :
    Reads t (.ok template.pieces) := by
  have hreads := reads_read t
  rw [parse] at h
  cases hread : read t with
  | error name => simp [hread] at h
  | ok pieces =>
    rw [hread] at h hreads
    obtain rfl := Except.ok.inj h
    exact hreads

/-- Where a placeholder is among the pieces its value is put. -/
theorem render_append (front back : List Piece) (context : BlockContext) :
    render ⟨front ++ .placeholder p :: back⟩ context = front.flatMap (Piece.render context) ++
      (p.value context ++ back.flatMap (Piece.render context)) := by
  rw [render, List.flatMap_append, List.flatMap_cons]
  rfl

/-- **Which names in braces a template reads.**  A template is refused exactly when an unknown name
in braces stands in it with no brace left open in front of it, and then because of the leftmost
one.  Otherwise its pieces write the text, and of the placeholders that stand in it just those are
rendered as their values in front of which no brace is left open. -/
theorem parse_placeholders (kind t : Text) :
    ((∃ e, parse kind t = .error e) ↔
      ∃ before name after, Seen t before name after ∧ Unknown name) ∧
    (∀ e, parse kind t = .error e ↔ ∃ before name after, FirstUnknown t before name after ∧
      e = .unknownPlaceholder kind name) ∧
    ∀ template, parse kind t = .ok template → template.pieces.flatMap Piece.source = t ∧
      ∀ before p after, t = before ++ ((Piece.placeholder p).source ++ after) →
        (Settled before ↔ ∃ front back, template.pieces = front ++ .placeholder p :: back ∧
          front.flatMap Piece.source = before ∧ back.flatMap Piece.source = after ∧
          ∀ context, template.render context = front.flatMap (Piece.render context) ++
            (p.value context ++ back.flatMap (Piece.render context))) := by
  refine ⟨?_, fun e => parse_eq_error_iff, fun template htemplate => ?_⟩
  · constructor
    · rintro ⟨e, he⟩
      obtain ⟨before, name, after, hfirst, _⟩ := parse_eq_error_iff.mp he
      exact ⟨before, name, after, hfirst.toSeen, hfirst.unknown⟩
    · rintro ⟨before, name, after, hseen, hunknown⟩
      cases hparse : parse kind t with
      | error e => exact ⟨e, rfl⟩
      | ok template =>
        obtain ⟨p, hp, _⟩ := ((reads_of_parse hparse).2 _ _ _).mp hseen
        exact absurd hp (hunknown p)
  · obtain ⟨hwritten, hseen⟩ := reads_of_parse htemplate
    refine ⟨hwritten, fun before p after hsource => ?_⟩
    constructor
    · intro hsettled
      obtain ⟨q, hq, front, back, hpieces, hfront, hback⟩ := (hseen before p.name after).mp
        ⟨by rw [hsource]; simp [Piece.source], p.isName_name, hsettled⟩
      obtain rfl := Placeholder.name_injective hq
      refine ⟨front, back, hpieces, hfront, hback, fun context => ?_⟩
      rw [← render_append, ← hpieces]
    · rintro ⟨front, back, hpieces, hfront, hback, _⟩
      exact ((hseen before p.name after).mpr ⟨p, rfl, front, back, hpieces, hfront, hback⟩).settled

/-! ## What is hidden -/

/-- A brace in front of the only pair hides the name in it. -/
theorem not_seen_of_isName_eq_false (hopen : cut? ['{'] t = some (first, inside))
    (hclose : cut? ['}'] inside = some (found, rest)) (hfound : BlockType.isName found = false)
    (hrest : '{' ∉ rest) : ¬ Seen t before name after := by
  rw [seen_iff_of_cut? hopen hclose]
  rintro (⟨hname, _, rfl, _⟩ | ⟨later, _, hlater⟩)
  · rw [hfound] at hname
    cases hname
  · refine not_seen_of_cut? (fun x y hcut => ?_) hlater
    rw [cut?_singleton_eq_none_iff.mpr hrest] at hcut
    cases hcut

/-- A style rule that asks for the target. -/
def ruleWithTarget : Text :=
  "a \x7b background: url(\x7btarget\x7d) \x7d".toList

/-- A style rule that asks for a value which does not exist. -/
def ruleWithUnknown : Text :=
  "a \x7b background: url(\x7bhref\x7d) \x7d".toList

theorem not_seen_ruleWithTarget : ¬ Seen ruleWithTarget before name after :=
  not_seen_of_isName_eq_false
    (show cut? ['{'] _ = some ("a ".toList, " background: url(\x7btarget\x7d) \x7d".toList) by
      decide)
    (show cut? ['}'] _ = some (" background: url(\x7btarget".toList, ") \x7d".toList) by decide)
    (by decide) (by decide)

theorem not_seen_ruleWithUnknown : ¬ Seen ruleWithUnknown before name after :=
  not_seen_of_isName_eq_false
    (show cut? ['{'] _ = some ("a ".toList, " background: url(\x7bhref\x7d) \x7d".toList) by decide)
    (show cut? ['}'] _ = some (" background: url(\x7bhref".toList, ") \x7d".toList) by decide)
    (by decide) (by decide)

/-- Not every unknown name in braces is an error, and not every placeholder is rendered. -/
theorem not_all_names_seen :
    (¬ ∀ kind t : Text, (∃ e, parse kind t = .error e) ↔ ∃ before name after,
      t = before ++ '{' :: (name ++ '}' :: after) ∧ BlockType.isName name = true ∧
        Unknown name) ∧
    ¬ ∀ (kind t : Text) (template : Template), parse kind t = .ok template →
      ∀ before p after, t = before ++ ((Piece.placeholder p).source ++ after) →
        ∃ front back, template.pieces = front ++ .placeholder p :: back ∧
          front.flatMap Piece.source = before ∧ back.flatMap Piece.source = after := by
  constructor
  · intro hall
    obtain ⟨e, he⟩ := (hall [] ruleWithUnknown).mpr ⟨"a \x7b background: url(".toList,
      "href".toList, ") \x7d".toList, by decide, by decide, fun p => by cases p <;> decide⟩
    obtain ⟨_, _, _, hfirst, _⟩ := parse_eq_error_iff.mp he
    exact not_seen_ruleWithUnknown hfirst.toSeen
  · intro hall
    cases hparse : parse [] ruleWithTarget with
    | error e =>
      obtain ⟨_, _, _, hfirst, _⟩ := parse_eq_error_iff.mp hparse
      exact not_seen_ruleWithTarget hfirst.toSeen
    | ok template =>
      obtain ⟨front, back, hplaced⟩ := hall [] ruleWithTarget template hparse
        "a \x7b background: url(".toList .target ") \x7d".toList (by decide)
      exact not_seen_ruleWithTarget
        (((reads_of_parse hparse).2 _ _ _).mpr ⟨.target, rfl, front, back, hplaced⟩)

end Template
end BuildBlocks
