import BuildBlocks.Json.Printer
import BuildBlocks.Json.Reader

/-! # Reading written JSON

What is written is read back (`ofText?_text`).  A reader of one piece is shown to take that piece
and to leave whatever follows it, so the pieces of a value can be read one after the other.  The
depth and the number of items that a reader may take are bounded by the length of the text; a
piece is always shorter than the value that it stands in.
-/
namespace BuildBlocks
open Text

namespace Json

/-- The value is made without numerals, and all its strings and names are texts. -/
inductive Value.Textual : Value → Prop
  | null : Textual .null
  | boolean (b : Bool) : Textual (.boolean b)
  | string (t : Text) : Textual (.string (some t))
  | array {items : List Value} (h : ∀ v ∈ items, Textual v) : Textual (.array items)
  | object {members : List (Literal × Value)} (hnames : ∀ m ∈ members, m.1.isSome = true)
      (h : ∀ m ∈ members, Textual m.2) : Textual (.object members)

/-! ## String literals -/

theorem numberOf?_hexDigit : ∀ n < 32,
    numberOf? 16 ['0', '0', hexDigit (n / 16), hexDigit (n % 16)] = some n := by
  decide

/-- A character is written after a backslash by a letter of its own or, below the blank, by its
number, or else as it is. -/
theorem escape_cases (c : Char) :
    (∃ e, escape c = ['\\', e] ∧ e ≠ 'u' ∧ simpleEscape? e = some c) ∨
      (c.toNat < 32 ∧
        escape c = ['\\', 'u', '0', '0', hexDigit (c.toNat / 16), hexDigit (c.toNat % 16)]) ∨
      (escape c = [c] ∧ c ≠ '"' ∧ c ≠ '\\' ∧ ¬ c.toNat < 32) := by
  have hletter : ∀ {d e : Char}, c.toNat = d.toNat → e ≠ 'u' → simpleEscape? e = some d →
      e ≠ 'u' ∧ simpleEscape? e = some c := by
    intro d e hd he hsimple
    exact ⟨he, Char.toNat_inj.1 hd ▸ hsimple⟩
  unfold escape
  split
  · rename_i h
    exact .inl ⟨_, rfl, hletter (congrArg Char.toNat h) (by decide) rfl⟩
  split
  · rename_i h
    exact .inl ⟨_, rfl, hletter (congrArg Char.toNat h) (by decide) rfl⟩
  split
  · rename_i h
    exact .inl ⟨_, rfl, hletter (d := Char.ofNat 8) h (by decide) rfl⟩
  split
  · rename_i h
    exact .inl ⟨_, rfl, hletter (d := '\t') h (by decide) rfl⟩
  split
  · rename_i h
    exact .inl ⟨_, rfl, hletter (d := '\n') h (by decide) rfl⟩
  split
  · rename_i h
    exact .inl ⟨_, rfl, hletter (d := Char.ofNat 12) h (by decide) rfl⟩
  split
  · rename_i h
    exact .inl ⟨_, rfl, hletter (d := '\r') h (by decide) rfl⟩
  split
  · rename_i h
    exact .inr (.inl ⟨h, rfl⟩)
  · rename_i hquote hslash _ _ _ _ _ hlow
    exact .inr (.inr ⟨rfl, hquote, hslash, hlow⟩)

/-- What is written for a character is read as that character. -/
theorem readUnits_escape (c : Char) (t : Text) :
    readUnits (escape c ++ t) =
      (readUnits t).map fun (units, rest) => (.character c :: units, rest) := by
  rcases escape_cases c with ⟨e, he, hu, hsimple⟩ | ⟨hlow, hc⟩ | ⟨hc, hquote, hslash, hlow⟩
  · simp only [he, List.cons_append, List.nil_append]
    rw [readUnits]
    · simp only [hsimple]
    · intro _ _ _ _ _ h _
      exact hu h
  · have hunit : StringUnit.ofNumber c.toNat = .character c := by
      unfold StringUnit.ofNumber
      rw [if_neg (by omega), Char.ofNat_toNat]
    simp only [hc, List.cons_append, List.nil_append]
    rw [readUnits]
    simp only [numberOf?_hexDigit c.toNat hlow, hunit]
  · rw [hc, List.singleton_append, readUnits]
    · rw [if_neg (not_or.2 ⟨hslash, hlow⟩)]
    · exact hquote
    · intro _ _ _ _ _ h _
      exact hslash h
    · intro _ _ h _
      exact hslash h

theorem readUnits_flatMap_escape (t rest : Text) :
    readUnits (t.flatMap escape ++ '"' :: rest) = some (t.map .character, rest) := by
  induction t with
  | nil => simp [readUnits]
  | cons c t ih => rw [List.flatMap_cons, List.append_assoc, readUnits_escape, ih]; rfl

theorem literalOfUnits_map_character (t : Text) : literalOfUnits (t.map .character) = some t := by
  induction t with
  | nil => rfl
  | cons c t ih => rw [List.map_cons, literalOfUnits, ih]; rfl

/-- A string literal is read up to its closing quote. -/
theorem readLiteral_flatMap_escape (t rest : Text) :
    readLiteral (t.flatMap escape ++ '"' :: rest) = some (some t, rest) := by
  unfold readLiteral
  rw [readUnits_flatMap_escape, ← literalOfUnits_map_character t]
  rfl

theorem quote_append (t rest : Text) :
    quote t ++ rest = '"' :: (t.flatMap escape ++ '"' :: rest) := by
  simp [quote]

/-! ## Blanks -/

/-- The character may stand between tokens. -/
def IsBlank (c : Char) : Prop :=
  c = ' ' ∨ c = '\t' ∨ c = '\n' ∨ c = '\r'

instance : DecidablePred IsBlank := fun c =>
  inferInstanceAs (Decidable (c = ' ' ∨ c = '\t' ∨ c = '\n' ∨ c = '\r'))

theorem skipBlanks_cons_of_not_isBlank {c : Char} (h : ¬ IsBlank c) (t : Text) :
    skipBlanks (c :: t) = c :: t := by
  unfold IsBlank at h
  simp_all [skipBlanks]

theorem skipBlanks_space (t : Text) : skipBlanks (' ' :: t) = skipBlanks t := by
  simp [skipBlanks]

theorem skipBlanks_newLine (level : Nat) (t : Text) :
    skipBlanks (newLine level ++ t) = skipBlanks t := by
  have hspaces : ∀ n, skipBlanks (List.replicate n ' ' ++ t) = skipBlanks t := by
    intro n
    induction n with
    | zero => rfl
    | succ n ih => rw [List.replicate_succ, List.cons_append, skipBlanks_space, ih]
  rw [newLine, List.cons_append, ← hspaces (2 * level)]
  simp [skipBlanks]

theorem readValue_congr {t u : Text} (h : skipBlanks t = skipBlanks u) (depth : Nat) :
    readValue depth t = readValue depth u := by
  cases depth with
  | zero => rfl
  | succ depth => rw [readValue, readValue, h]

theorem readMember_congr {read : Text → Option (Value × Text)} {t u : Text}
    (h : skipBlanks t = skipBlanks u) : readMember read t = readMember read u := by
  rw [readMember, readMember, h]

/-! ## Lists -/

/-- One or more items, each on a line of its own, with commas between them, and what follows. -/
def rows {α : Type} (write : α → Text) (level : Nat) (x : α) (xs : List α) (rest : Text) : Text :=
  newLine level ++ (write x ++ (xs.flatMap (fun y => ',' :: (newLine level ++ write y)) ++ rest))

section Lists
variable {α : Type} {read : Text → Option (α × Text)} {write : α → Text} {close : Char}
  {x y : α} {xs : List α} {level : Nat}

theorem rows_cons (rest : Text) : rows write level x (y :: xs) rest =
    newLine level ++ (write x ++ ',' :: rows write level y xs rest) := by
  simp [rows]

theorem length_le_length_flatMap (write : α → Text) (level : Nat) (xs : List α) :
    xs.length ≤ (xs.flatMap fun y => ',' :: (newLine level ++ write y)).length := by
  induction xs with
  | nil => simp
  | cons y xs ih =>
    simp only [List.flatMap_cons, List.length_append, List.length_cons] at ih ⊢
    omega

/-- An item is shorter than the list that it stands in. -/
theorem length_lt_length_rows (hy : y ∈ x :: xs) (rest : Text) :
    (write y).length < (rows write level x xs rest).length := by
  have hline : 0 < (newLine level).length := by simp [newLine]
  unfold rows
  rcases List.mem_cons.1 hy with rfl | hy
  · simp only [List.length_append]
    omega
  · obtain ⟨before, after, rfl⟩ := List.append_of_mem hy
    simp only [List.flatMap_append, List.flatMap_cons, List.length_cons, List.length_append]
    omega

/-- The items are read up to the closing character. -/
theorem readItems_rows (hclose : ¬ IsBlank close) (hcomma : close ≠ ',') {count : Nat}
    (hread : ∀ y ∈ x :: xs, ∀ rest, read (newLine level ++ (write y ++ rest)) = some (y, rest))
    (hcount : xs.length < count) (outer : Nat) (rest : Text) :
    readItems read close count (rows write level x xs (newLine outer ++ close :: rest)) =
      some (x :: xs, rest) := by
  induction xs generalizing x count with
  | nil =>
    obtain ⟨count, rfl⟩ := Nat.exists_eq_succ_of_ne_zero (Nat.ne_of_gt hcount)
    rw [readItems, rows, hread x List.mem_cons_self]
    simp [skipBlanks_newLine, skipBlanks_cons_of_not_isBlank hclose]
  | cons y ys ih =>
    obtain ⟨count, rfl⟩ := Nat.exists_eq_succ_of_ne_zero (Nat.ne_of_gt (Nat.zero_lt_of_lt hcount))
    have hrest := ih (x := y)
      (fun z hz => hread z (List.mem_cons_of_mem _ hz)) (Nat.lt_of_succ_lt_succ hcount)
    rw [readItems, rows_cons, hread x List.mem_cons_self]
    simp only [skipBlanks_cons_of_not_isBlank (show ¬ IsBlank ',' by decide),
      if_neg hcomma.symm, if_true, hrest, Option.map_some]

/-- A list that is not empty is read when its first item starts with a character that is neither
a blank nor the closing one. -/
theorem readList_rows (hclose : ¬ IsBlank close) (hcomma : close ≠ ',')
    (hread : ∀ y ∈ x :: xs, ∀ rest, read (newLine level ++ (write y ++ rest)) = some (y, rest))
    {c : Char} {tail : Text} (hwrite : write x = c :: tail) (hblank : ¬ IsBlank c)
    (hne : c ≠ close) (outer : Nat) (rest : Text) :
    readList read close (rows write level x xs (newLine outer ++ close :: rest)) =
      some (x :: xs, rest) := by
  have hskip : skipBlanks (rows write level x xs (newLine outer ++ close :: rest)) =
      c :: (tail ++ (xs.flatMap (fun y => ',' :: (newLine level ++ write y)) ++
        (newLine outer ++ close :: rest))) := by
    rw [rows, skipBlanks_newLine, hwrite, List.cons_append, skipBlanks_cons_of_not_isBlank hblank]
  unfold readList
  rw [hskip]
  simp only [if_neg hne]
  refine readItems_rows hclose hcomma hread ?_ outer rest
  have hlength := length_le_length_flatMap write level xs
  simp only [List.length_append]
  omega

end Lists

/-- A member as it stands on its line. -/
def memberText (level : Nat) (m : Literal × Value) : Text :=
  quote (m.1.getD []) ++ (": ".toList ++ render level m.2)

theorem renderItems_eq_flatMap (level : Nat) (items : List Value) :
    renderItems level items = items.flatMap fun v => ',' :: (newLine level ++ render level v) := by
  induction items with
  | nil => rw [renderItems]; rfl
  | cons v items ih => rw [renderItems, ih, List.flatMap_cons]; simp

theorem renderMembers_eq_flatMap (level : Nat) (members : List (Literal × Value)) :
    renderMembers level members =
      members.flatMap fun m => ',' :: (newLine level ++ memberText level m) := by
  induction members with
  | nil => rw [renderMembers]; rfl
  | cons m members ih => rw [renderMembers, ih, List.flatMap_cons]; simp [memberText]

theorem render_array_append (level : Nat) (v : Value) (items : List Value) (rest : Text) :
    render level (.array (v :: items)) ++ rest =
      '[' :: rows (render (level + 1)) (level + 1) v items (newLine level ++ ']' :: rest) := by
  rw [render, renderItems_eq_flatMap]
  simp [rows]

theorem render_object_append (level : Nat) (m : Literal × Value)
    (members : List (Literal × Value)) (rest : Text) :
    render level (.object (m :: members)) ++ rest =
      '{' :: rows (memberText (level + 1)) (level + 1) m members
        (newLine level ++ '}' :: rest) := by
  rw [render, renderMembers_eq_flatMap]
  simp [rows, memberText]

/-! ## Values -/

/-- A written value starts with a character that is neither a blank nor a closing bracket. -/
theorem Value.Textual.exists_render_eq_cons {v : Value} (h : v.Textual) (level : Nat) :
    ∃ c t, render level v = c :: t ∧ ¬ IsBlank c ∧ c ≠ ']' := by
  cases h with
  | null => exact ⟨_, _, rfl, by decide, by decide⟩
  | boolean b => cases b <;> exact ⟨_, _, rfl, by decide, by decide⟩
  | string t => exact ⟨_, _, rfl, by decide, by decide⟩
  | @array items h =>
    cases items <;> exact ⟨_, _, rfl, by decide, by decide⟩
  | @object members hnames h =>
    cases members <;> exact ⟨_, _, rfl, by decide, by decide⟩

/-- A member is read when its value is. -/
theorem readMember_memberText {read : Text → Option (Value × Text)} {name : Text} {v : Value}
    {level : Nat} {rest : Text}
    (hread : read (' ' :: (render level v ++ rest)) = some (v, rest)) :
    readMember read (newLine level ++ (memberText level (some name, v) ++ rest)) =
      some ((some name, v), rest) := by
  have htext : memberText level (some name, v) ++ rest =
      '"' :: (name.flatMap escape ++ '"' :: (':' :: ' ' :: (render level v ++ rest))) := by
    simp [memberText, quote]
  rw [readMember_congr (skipBlanks_newLine level _), htext, readMember,
    skipBlanks_cons_of_not_isBlank (by decide)]
  simp only [readLiteral_flatMap_escape]
  rw [skipBlanks_cons_of_not_isBlank (by decide)]
  simp only [hread, Option.map_some]

/-- An array is read when its items are. -/
theorem readValue_render_array {items : List Value} (h : ∀ v ∈ items, v.Textual) {level depth : Nat}
    (hread : ∀ v ∈ items, ∀ rest,
      readValue depth (render (level + 1) v ++ rest) = some (v, rest)) (rest : Text) :
    readValue (depth + 1) (render level (.array items) ++ rest) = some (.array items, rest) := by
  cases items with
  | nil => simp [render, readValue, skipBlanks, readList]
  | cons v items =>
    obtain ⟨c, t, hcons, hblank, hne⟩ := (h v List.mem_cons_self).exists_render_eq_cons (level + 1)
    have hitem : ∀ w ∈ v :: items, ∀ rest,
        readValue depth (newLine (level + 1) ++ (render (level + 1) w ++ rest)) = some (w, rest) :=
      fun w hw rest => (readValue_congr (skipBlanks_newLine _ _) depth).trans (hread w hw rest)
    have hlist := readList_rows (show ¬ IsBlank ']' by decide) (by decide) hitem hcons hblank hne
      level rest
    rw [render_array_append, readValue, skipBlanks_cons_of_not_isBlank (by decide)]
    simp only [hlist, Option.map_some]

/-- An object is read when the values of its members are and their names are texts. -/
theorem readValue_render_object {members : List (Literal × Value)}
    (hnames : ∀ m ∈ members, m.1.isSome = true) {level depth : Nat}
    (hread : ∀ m ∈ members, ∀ rest,
      readValue depth (render (level + 1) m.2 ++ rest) = some (m.2, rest)) (rest : Text) :
    readValue (depth + 1) (render level (.object members) ++ rest) =
      some (.object members, rest) := by
  have hmember : ∀ m ∈ members, ∀ rest, readMember (readValue depth)
      (newLine (level + 1) ++ (memberText (level + 1) m ++ rest)) = some (m, rest) := by
    rintro ⟨name, v⟩ hm rest
    obtain ⟨name, rfl⟩ := Option.isSome_iff_exists.1 (hnames _ hm)
    exact readMember_memberText
      ((readValue_congr (skipBlanks_space _) depth).trans (hread _ hm rest))
  cases members with
  | nil => simp [render, readValue, skipBlanks, readList]
  | cons m members =>
    have hcons : memberText (level + 1) m =
        '"' :: ((m.1.getD []).flatMap escape ++ '"' :: (": ".toList ++ render (level + 1) m.2)) := by
      rw [memberText, quote_append]
    have hlist := readList_rows (show ¬ IsBlank '}' by decide) (by decide) hmember hcons
      (by decide) (by decide) level rest
    rw [render_object_append, readValue, skipBlanks_cons_of_not_isBlank (by decide)]
    simp only [hlist, Option.map_some]

/-- The items of an array are written shorter than the array. -/
theorem length_render_lt_of_mem_array {items : List Value} {v : Value} (hv : v ∈ items)
    (level : Nat) : (render (level + 1) v).length < (render level (.array items)).length := by
  cases items with
  | nil => cases hv
  | cons w items =>
    rw [← List.append_nil (render level _), render_array_append, List.length_cons]
    exact Nat.lt_succ_of_lt (length_lt_length_rows hv _)

/-- The members of an object are written shorter than the object. -/
theorem length_render_lt_of_mem_object {members : List (Literal × Value)} {m : Literal × Value}
    (hm : m ∈ members) (level : Nat) :
    (render (level + 1) m.2).length < (render level (.object members)).length := by
  have hvalue : (render (level + 1) m.2).length ≤ (memberText (level + 1) m).length := by
    simp only [memberText, List.length_append]
    omega
  cases members with
  | nil => cases hm
  | cons n members =>
    rw [← List.append_nil (render level _), render_object_append, List.length_cons]
    exact Nat.lt_succ_of_lt (Nat.lt_of_le_of_lt hvalue (length_lt_length_rows hm _))

/-- A written value is read, and what follows it is left. -/
theorem Value.Textual.readValue_render {v : Value} (h : v.Textual) :
    ∀ (level depth : Nat) (rest : Text), (render level v).length < depth →
      readValue depth (render level v ++ rest) = some (v, rest) := by
  induction h with
  | null =>
    intro level depth rest hdepth
    obtain ⟨depth, rfl⟩ := Nat.exists_eq_succ_of_ne_zero (Nat.ne_zero_of_lt hdepth)
    simp [render, readValue, skipBlanks, after?]
  | boolean b =>
    intro level depth rest hdepth
    obtain ⟨depth, rfl⟩ := Nat.exists_eq_succ_of_ne_zero (Nat.ne_zero_of_lt hdepth)
    cases b <;> simp [render, readValue, skipBlanks, after?]
  | string t =>
    intro level depth rest hdepth
    obtain ⟨depth, rfl⟩ := Nat.exists_eq_succ_of_ne_zero (Nat.ne_zero_of_lt hdepth)
    rw [render, Option.getD_some, quote_append, readValue,
      skipBlanks_cons_of_not_isBlank (by decide)]
    simp only [readLiteral_flatMap_escape, Option.map_some]
  | array h ih =>
    intro level depth rest hdepth
    obtain ⟨depth, rfl⟩ := Nat.exists_eq_succ_of_ne_zero (Nat.ne_zero_of_lt hdepth)
    refine readValue_render_array h (fun v hv rest => ih v hv _ _ _ ?_) rest
    have hshort := length_render_lt_of_mem_array hv level
    omega
  | object hnames h ih =>
    intro level depth rest hdepth
    obtain ⟨depth, rfl⟩ := Nat.exists_eq_succ_of_ne_zero (Nat.ne_zero_of_lt hdepth)
    refine readValue_render_object hnames (fun m hm rest => ih m hm _ _ _ ?_) rest
    have hshort := length_render_lt_of_mem_object hm level
    omega

/-- **Written JSON is read back.**  Blanks may follow the text. -/
theorem Value.Textual.ofText?_text {v : Value} (h : v.Textual) (blanks : Text)
    (hblanks : skipBlanks blanks = []) : Value.ofText? (v.text ++ blanks) = some v := by
  unfold Value.ofText? Value.text
  rw [h.readValue_render 0 _ _ (by rw [List.length_append]; omega)]
  simp [hblanks]

end Json
end BuildBlocks
