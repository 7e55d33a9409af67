/-!
# Texts and searches in them

A text is a list of characters.  The two ways of looking into one are reading at its
start (`after?`) and looking for the leftmost place where a reader succeeds (`search`);
every search of the library is an instance of the second.  Positions that leave the
library count UTF-8 bytes (`byteLength`, `splitAtByte?`).
-/
namespace BuildBlocks

/-- A text: its characters in order. -/
abbrev Text := List Char

namespace Text

/-- What follows the text `lead` when the text starts with it. -/
def after? : Text → Text → Option Text
  | [], t => some t
  | _ :: _, [] => none
  | p :: lead, c :: t => if c = p then after? lead t else none

theorem after?_eq_some_iff {lead t rest : Text} :
    after? lead t = some rest ↔ t = lead ++ rest := by
  induction lead generalizing t with
  | nil => simp [after?, eq_comm]
  | cons p lead ih =>
    cases t with
    | nil => simp [after?]
    | cons c t => by_cases h : c = p <;> simp [after?, h, ih]

@[simp] theorem after?_append (lead t : Text) : after? lead (lead ++ t) = some t :=
  after?_eq_some_iff.2 rfl

/-- The leftmost place at which `read` succeeds: the text before it, and what is read there. -/
def search {α : Type} (read : Text → Option α) : Text → Option (Text × α)
  | [] => (read []).map fun a => ([], a)
  | c :: t =>
    match read (c :: t) with
    | some a => some ([], a)
    | none => (search read t).map fun (before, a) => (c :: before, a)

/-- A search succeeds exactly at the leftmost place: what it reads stands there, and
nothing can be read further left. -/
theorem search_eq_some_iff {α : Type} {read : Text → Option α} {t before : Text} {a : α} :
    search read t = some (before, a) ↔
      ∃ rest, t = before ++ rest ∧ read rest = some a ∧
        ∀ u v, u ++ v = before → v ≠ [] → read (v ++ rest) = none := by
  induction t generalizing before with
  | nil =>
    constructor
    · intro h
      obtain ⟨b, hb, he⟩ := Option.map_eq_some_iff.1 h
      obtain ⟨rfl, rfl⟩ := Prod.mk.inj he
      exact ⟨[], rfl, hb, fun u v huv hv => absurd (List.append_eq_nil_iff.1 huv).2 hv⟩
    · rintro ⟨rest, ht, hr, _⟩
      obtain ⟨rfl, rfl⟩ := List.append_eq_nil_iff.1 ht.symm
      simp [search, hr]
  | cons c t ih =>
    cases hc : read (c :: t) with
    | some b =>
      simp only [search, hc, Option.some.injEq, Prod.mk.injEq]
      constructor
      · rintro ⟨rfl, rfl⟩
        exact ⟨c :: t, rfl, hc, fun u v huv hv => absurd (List.append_eq_nil_iff.1 huv).2 hv⟩
      · rintro ⟨rest, ht, hr, hleft⟩
        cases before with
        | nil =>
          rw [List.nil_append] at ht
          rw [← ht, hc] at hr
          exact ⟨rfl, Option.some.inj hr⟩
        | cons x before =>
          have := hleft [] (x :: before) rfl (by simp)
          rw [← ht, hc] at this
          cases this
    | none =>
      simp only [search, hc]
      constructor
      · intro h
        obtain ⟨⟨b, a'⟩, hb, he⟩ := Option.map_eq_some_iff.1 h
        obtain ⟨rfl, rfl⟩ := Prod.mk.inj he
        obtain ⟨rest, ht, hr, hleft⟩ := ih.1 hb
        refine ⟨rest, by rw [ht, List.cons_append], hr, fun u v huv hv => ?_⟩
        cases u with
        | nil =>
          rw [List.nil_append] at huv
          rw [huv, List.cons_append, ← ht]
          exact hc
        | cons y u =>
          rw [List.cons_append] at huv
          exact hleft u v (List.cons.inj huv).2 hv
      · rintro ⟨rest, ht, hr, hleft⟩
        cases before with
        | nil =>
          rw [List.nil_append] at ht
          rw [← ht, hc] at hr
          cases hr
        | cons x before =>
          rw [List.cons_append] at ht
          obtain ⟨rfl, htail⟩ := List.cons.inj ht
          have hb : search read t = some (before, a) :=
            ih.2 ⟨rest, htail, hr, fun u v huv hv =>
              hleft (c :: u) v (by rw [List.cons_append, huv]) hv⟩
          rw [hb]
          rfl

/-- The text cut at the first occurrence of `mark`: what stands before it and what follows. -/
def cut? (mark t : Text) : Option (Text × Text) :=
  search (after? mark) t

theorem eq_append_of_cut? {mark t before rest : Text} (h : cut? mark t = some (before, rest)) :
    t = before ++ (mark ++ rest) := by
  obtain ⟨tail, rfl, hr, _⟩ := search_eq_some_iff.1 h
  rw [after?_eq_some_iff.1 hr]

/-- The text cut at the last occurrence of `mark`: what stands before it and what follows. -/
def cutLast? (mark : Text) : Text → Option (Text × Text)
  | [] => (after? mark []).map fun rest => ([], rest)
  | c :: t =>
    match cutLast? mark t with
    | some (before, rest) => some (c :: before, rest)
    | none => (after? mark (c :: t)).map fun rest => ([], rest)

/-- Whether `mark` occurs in the text. -/
def holds (mark t : Text) : Bool :=
  (cut? mark t).isSome

/-- The pieces of a text between the occurrences of a character; there is always one. -/
def splitOn (separator : Char) : Text → List Text
  | [] => [[]]
  | c :: t =>
    if c = separator then
      [] :: splitOn separator t
    else
      match splitOn separator t with
      | [] => [[c]]
      | piece :: pieces => (c :: piece) :: pieces

/-- The texts of a list with `separator` between each two neighbours. -/
def join (separator : Text) : List Text → Text
  | [] => []
  | [t] => t
  | t :: u :: rest => t ++ separator ++ join separator (u :: rest)

/-- The number of bytes that the text takes in UTF-8. -/
def byteLength : Text → Nat
  | [] => 0
  | c :: t => c.utf8Size + byteLength t

@[simp] theorem byteLength_nil : byteLength [] = 0 := rfl

@[simp] theorem byteLength_cons (c : Char) (t : Text) :
    byteLength (c :: t) = c.utf8Size + byteLength t := rfl

@[simp] theorem byteLength_append (t u : Text) :
    byteLength (t ++ u) = byteLength t + byteLength u := by
  induction t with
  | nil => simp
  | cons c t ih => simp [ih, Nat.add_assoc]

/-- The first `n` bytes of a text and the rest.  There is no such cut when the text is
shorter or when it would fall inside a character. -/
def splitAtByte? : Nat → Text → Option (Text × Text)
  | 0, t => some ([], t)
  | _ + 1, [] => none
  | n + 1, c :: t =>
    if c.utf8Size ≤ n + 1 then
      (splitAtByte? (n + 1 - c.utf8Size) t).map fun (first, rest) => (c :: first, rest)
    else
      none

/-- A cut at a byte loses nothing, and its first part has the asked number of bytes. -/
theorem splitAtByte?_eq_some_iff {n : Nat} {t first rest : Text} :
    splitAtByte? n t = some (first, rest) ↔ t = first ++ rest ∧ byteLength first = n := by
  induction t generalizing n first with
  | nil =>
    cases n with
    | zero =>
      simp only [splitAtByte?, Option.some.injEq, Prod.mk.injEq]
      constructor
      · rintro ⟨rfl, rfl⟩; simp
      · rintro ⟨ht, _⟩
        obtain ⟨rfl, rfl⟩ := List.append_eq_nil_iff.1 ht.symm
        simp
    | succ n =>
      simp only [splitAtByte?, reduceCtorEq, false_iff, not_and]
      intro ht
      obtain ⟨rfl, rfl⟩ := List.append_eq_nil_iff.1 ht.symm
      simp
  | cons c t ih =>
    have hpos := c.utf8Size_pos
    cases n with
    | zero =>
      simp only [splitAtByte?, Option.some.injEq, Prod.mk.injEq]
      constructor
      · rintro ⟨rfl, rfl⟩; simp
      · rintro ⟨ht, hb⟩
        cases first with
        | nil => exact ⟨rfl, ht⟩
        | cons x first =>
          have := x.utf8Size_pos
          rw [byteLength_cons] at hb
          omega
    | succ n =>
      unfold splitAtByte?
      split
      · rename_i hle
        constructor
        · intro h
          obtain ⟨⟨u, v⟩, hu, he⟩ := Option.map_eq_some_iff.1 h
          obtain ⟨rfl, rfl⟩ := Prod.mk.inj he
          obtain ⟨ht, hb⟩ := ih.1 hu
          exact ⟨by rw [ht, List.cons_append], by rw [byteLength_cons, hb]; omega⟩
        · rintro ⟨ht, hb⟩
          cases first with
          | nil => simp at hb
          | cons x first =>
            obtain ⟨rfl, htail⟩ := List.cons.inj ht
            rw [byteLength_cons] at hb
            rw [ih.2 ⟨htail, by omega⟩]
            rfl
      · rename_i hlt
        constructor
        · intro h; cases h
        · rintro ⟨ht, hb⟩
          cases first with
          | nil => simp at hb
          | cons x first =>
            obtain ⟨rfl, _⟩ := List.cons.inj ht
            rw [byteLength_cons] at hb
            omega

end Text
end BuildBlocks
