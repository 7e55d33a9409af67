import BuildBlocks.Proofs.Document.Uniform
import BuildBlocks.Proofs.Files.Writing

/-! # Places and their paths

A directory of a tree stands below directories only, under names that stand for entries.  The path
of an entry in it leads back to the entry, from wherever it is followed, unless it is too long
(`IsDirectory.resolve_pathOf`).  The limit on the length of a path is apart from where the path
leads (`destination`): an entry that is there is not found under a path above the limit
(`pathExists_iff`).
-/
namespace BuildBlocks
open Text

namespace Text

/-- Texts without the separator are the pieces of what they make with separators between them. -/
theorem splitOn_join {separator : Char} {ts : List Text} (hne : ts ≠ [])
    (h : ∀ t ∈ ts, separator ∉ t) : splitOn separator (join [separator] ts) = ts := by
  induction ts with
  | nil => exact absurd rfl hne
  | cons t ts ih =>
    obtain ⟨ht, hrest⟩ := List.forall_mem_cons.mp h
    by_cases hts : ts = []
    · rw [hts]
      exact splitOn_of_not_mem ht
    · rw [join_cons hts, List.append_assoc, List.singleton_append, splitOn_append ht,
        ih hts hrest]

theorem byteLength_replicate (n : Nat) (c : Char) :
    byteLength (List.replicate n c) = n * c.utf8Size := by
  induction n with
  | zero => rw [List.replicate_zero, byteLength_nil, Nat.zero_mul]
  | succ n ih => rw [List.replicate_succ, byteLength_cons, ih, Nat.succ_mul, Nat.add_comm]

theorem byteLength_flatten_replicate (n : Nat) (t : Text) :
    byteLength (List.replicate n t).flatten = n * byteLength t := by
  induction n with
  | zero => rw [List.replicate_zero, List.flatten_nil, byteLength_nil, Nat.zero_mul]
  | succ n ih =>
    rw [List.replicate_succ, List.flatten_cons, byteLength_append, ih, Nat.succ_mul, Nat.add_comm]

end Text

namespace FileTree
variable {tree : FileTree} {cwd place other start : Place} {name path : Text} {names : List Text}

/-- The name is that of an entry: it is neither empty nor a path, and leads neither nowhere nor
up. -/
structure IsEntryName (name : Text) : Prop where
  nonempty : name ≠ []
  unsplit : '/' ∉ name
  ne_self : name ≠ ['.']
  ne_above : name ≠ ['.', '.']

/-- The place is that of a directory, below directories only. -/
structure IsDirectory (tree : FileTree) (place : Place) : Prop where
  names : ∀ name ∈ place, IsEntryName name
  directory : ∀ above, above <+: place → tree.at? above = some .directory

theorem IsDirectory.of_prefix (h : tree.IsDirectory place) (hother : other <+: place) :
    tree.IsDirectory other where
  names := fun name hname => h.names name (hother.subset hname)
  directory := fun above habove => h.directory above (habove.trans hother)

theorem IsEntryName.follow_eq (h : IsEntryName name) (place : Place) :
    follow place name = place ++ [name] := by
  rw [follow, if_neg (not_or.mpr ⟨h.nonempty, h.ne_self⟩), if_neg h.ne_above]

/-! ## Paths from the root -/

/-- Names of entries lead down, as long as there are directories. -/
theorem walk_append (hnames : ∀ name ∈ names, IsEntryName name)
    (hdirectory : ∀ above, above <+: names → above ≠ names →
      tree.at? (start ++ above) = some .directory) :
    tree.walk start names = .ok (start ++ names) := by
  induction names generalizing start with
  | nil => rw [walk, List.append_nil]
  | cons name names ih =>
    obtain ⟨hname, hrest⟩ := List.forall_mem_cons.mp hnames
    have hstart : tree.at? start = some .directory := by
      have hnil := hdirectory [] List.nil_prefix (List.cons_ne_nil name names).symm
      rwa [List.append_nil] at hnil
    simp only [walk, hstart, hname.follow_eq]
    rw [ih hrest, List.append_assoc, List.singleton_append]
    intro above habove hne
    have hcons := hdirectory (name :: above) (List.cons_prefix_cons.mpr ⟨rfl, habove⟩)
      (fun heq => hne (List.cons.inj heq).2)
    rwa [List.append_assoc, List.singleton_append]

/-- A path that starts with a slash is followed from the root. -/
theorem resolve_rooted (tree : FileTree) (cwd : Place) (rest : Text) :
    tree.resolve cwd ('/' :: rest) =
      if pathLimit < byteLength ('/' :: rest) then .error .nameTooLong
      else tree.walk [] (splitOn '/' rest) := rfl

/-- The path of an entry in a directory leads to it, unless it is too long. -/
theorem IsDirectory.resolve_pathOf (h : tree.IsDirectory place) (hname : IsEntryName name)
    (cwd : Place) :
    tree.resolve cwd (pathOf (place ++ [name])) =
      if pathLimit < byteLength (pathOf (place ++ [name])) then .error .nameTooLong
      else .ok (place ++ [name]) := by
  have hnames : ∀ other ∈ place ++ [name], IsEntryName other :=
    List.forall_mem_append.mpr ⟨h.names, fun other hother => List.mem_singleton.mp hother ▸ hname⟩
  have hwalk : tree.walk [] (place ++ [name]) = .ok (place ++ [name]) := by
    refine walk_append hnames fun above habove hne => ?_
    rcases List.prefix_concat_iff.mp habove with heq | habove
    · exact absurd heq hne
    · exact h.directory above habove
  have hsplit : splitOn '/' (join ['/'] (place ++ [name])) = place ++ [name] :=
    splitOn_join (by simp) fun other hother => (hnames other hother).unsplit
  rw [pathOf, resolve_rooted, hsplit, hwalk]

/-- Whether an entry stands in a directory, said by its path. -/
theorem IsDirectory.pathExists_pathOf (h : tree.IsDirectory place) (hname : IsEntryName name)
    (cwd : Place) :
    tree.pathExists cwd (pathOf (place ++ [name])) = true ↔
      (tree.at? (place ++ [name])).isSome = true ∧
        byteLength (pathOf (place ++ [name])) ≤ pathLimit := by
  rw [pathExists, h.resolve_pathOf hname]
  by_cases hlong : pathLimit < byteLength (pathOf (place ++ [name]))
  · rw [if_pos hlong]
    simp [hlong]
  · rw [if_neg hlong]
    simp [Nat.not_lt.mp hlong]

/-! ## The limit on paths -/

/-- Where a path leads, were there no limit on its length. -/
def destination (tree : FileTree) (cwd : Place) (path : Text) : Except FileError Place :=
  if path = [] then .error .notFound
  else if path.head? = some '/' then tree.walk [] (splitOn '/' path.tail)
  else tree.walk cwd (splitOn '/' path)

theorem resolve_of_limit_lt (h : pathLimit < byteLength path) :
    tree.resolve cwd path = .error .nameTooLong := by
  unfold resolve
  exact if_pos h

theorem resolve_of_le_limit (h : byteLength path ≤ pathLimit) :
    tree.resolve cwd path = tree.destination cwd path := by
  unfold resolve
  rw [if_neg (Nat.not_lt.mpr h)]
  split
  · rfl
  · rfl
  · rename_i hne hrooted
    have hhead : path.head? ≠ some '/' := fun hhead =>
      hrooted _ (List.cons_head?_tail hhead).symm
    rw [destination, if_neg hne, if_neg hhead]

/-- The path leads to an entry, and the system takes a path of its length. -/
structure Reaches (tree : FileTree) (cwd : Place) (path : Text) (place : Place) : Prop where
  leads : tree.destination cwd path = .ok place
  isSome : (tree.at? place).isSome = true
  length : byteLength path ≤ pathLimit

theorem Reaches.resolve_eq (h : tree.Reaches cwd path place) :
    tree.resolve cwd path = .ok place := by
  rw [resolve_of_le_limit h.length, h.leads]

/-- What stands at the end of a path exists for the system if the path is not too long. -/
theorem pathExists_iff :
    tree.pathExists cwd path = true ↔ ∃ place, tree.Reaches cwd path place := by
  constructor
  · intro h
    rw [pathExists] at h
    by_cases hlong : pathLimit < byteLength path
    · rw [resolve_of_limit_lt hlong] at h
      cases h
    · have hlength : byteLength path ≤ pathLimit := Nat.not_lt.mp hlong
      rw [resolve_of_le_limit hlength] at h
      cases hleads : tree.destination cwd path with
      | error e =>
        rw [hleads] at h
        cases h
      | ok place =>
        rw [hleads] at h
        exact ⟨place, hleads, h, hlength⟩
  · rintro ⟨place, h⟩
    rw [pathExists, h.resolve_eq]
    exact h.isSome

/-- Where a path leads, it still leads behind any number of detours through the directory that it
starts in. -/
theorem walk_detours (h : tree.at? start = some .directory) (n : Nat) (rest : Text) :
    tree.walk start (splitOn '/' ((List.replicate n ['.', '/']).flatten ++ rest)) =
      tree.walk start (splitOn '/' rest) := by
  induction n with
  | zero => rfl
  | succ n ih =>
    have hdot : '/' ∉ ['.'] := by decide
    have hsplit : splitOn '/' ((List.replicate (n + 1) ['.', '/']).flatten ++ rest) =
        ['.'] :: splitOn '/' ((List.replicate n ['.', '/']).flatten ++ rest) :=
      splitOn_append hdot _
    rw [hsplit, walk, h]
    exact ih

/-! ## Directories and those above them -/

theorem mem_ancestors_iff : other ∈ ancestors place ↔ other <+: place := by
  rw [ancestors, List.mem_map]
  constructor
  · rintro ⟨n, _, rfl⟩
    exact List.take_prefix _ _
  · intro h
    have hle : other.length ≤ place.length := h.length_le
    refine ⟨place.length - other.length, List.mem_range.mpr (by omega), ?_⟩
    rw [Nat.sub_sub_self hle]
    exact (List.prefix_iff_eq_take.mp h).symm

/-- Nearer places come first. -/
theorem pairwise_ancestors (place : Place) : (ancestors place).Pairwise fun a b => b <+: a := by
  rw [ancestors, List.pairwise_map]
  exact List.pairwise_lt_range.imp fun hlt =>
    List.take_prefix_take_left (Nat.sub_le_sub_left (Nat.le_of_lt hlt) _)

/-- The first place with a property on the way up is the one that all others are above. -/
theorem of_find?_ancestors {p : Place → Bool} (h : (ancestors place).find? p = some other) :
    other <+: place ∧ p other = true ∧ ∀ d, d <+: place → p d = true → d <+: other := by
  obtain ⟨hp, before, after, hsplit, hbefore⟩ := List.find?_eq_some_iff_append.mp h
  refine ⟨mem_ancestors_iff.mp (List.mem_of_find?_eq_some h), hp, fun d hd hpd => ?_⟩
  have hmem := mem_ancestors_iff.mpr hd
  have hpairwise := pairwise_ancestors place
  rw [hsplit] at hmem hpairwise
  rcases List.mem_append.mp hmem with hmem | hmem
  · exact absurd hpd (by simpa using hbefore d hmem)
  · rcases List.mem_cons.mp hmem with rfl | hmem
    · exact List.prefix_rfl
    · exact (List.pairwise_cons.mp (List.pairwise_append.mp hpairwise).2.1).1 d hmem

theorem find?_ancestors_eq_none_iff {p : Place → Bool} :
    (ancestors place).find? p = none ↔ ∀ d, d <+: place → ¬ p d = true := by
  rw [List.find?_eq_none]
  simp only [mem_ancestors_iff]

end FileTree
end BuildBlocks
