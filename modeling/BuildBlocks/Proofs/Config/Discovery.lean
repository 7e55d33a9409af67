import BuildBlocks.Proofs.Config.Loading
import BuildBlocks.Proofs.Files.Paths

/-! # Which file decides

Without a path that was asked for, the search on the way up from the working directory ends in the
nearest directory in which it sees an entry of the usual name, and in none only when it sees none
(`nearest_of_nearest?` and `nearest?_eq_none_iff`).  It looks under paths from the root, so an entry
whose path is above the system's limit is not seen (`Holds`), and the search goes on as if it were
not there (`not_all_entries_decide`).  The entry at the chosen path decides alone: whatever is wrong
with it is the answer (`decides_inFile`).  Both make up `load_decides`.
-/
namespace BuildBlocks
open Text FileTree

namespace Config
variable {tree : FileTree} {cwd d place : Place} {path : Text} {node : FileNode}
  {preview : Option Bool}

/-- Where a directory has its configuration. -/
def placeIn (directory : Place) : Place :=
  directory ++ [fileName]

/-- The search sees an entry in the directory: one of the usual name, of whatever kind, whose path
from the root has no more bytes than the system takes. -/
structure Holds (tree : FileTree) (directory : Place) : Prop where
  isSome : (tree.at? (placeIn directory)).isSome = true
  length : byteLength (pathOf (placeIn directory)) ≤ pathLimit

/-- The nearest of a directory and those above it in which the search sees an entry. -/
structure Nearest (tree : FileTree) (cwd directory : Place) : Prop where
  above : directory <+: cwd
  holds : Holds tree directory
  nearest : ∀ d, d <+: cwd → Holds tree d → d <+: directory

/-- What the entry at a path makes of the configuration, with the preview of the caller: an error
or the templates of the file. -/
inductive Decides (preview : Option Bool) (path : Text) :
    FileNode → Except ConfigError Config → Prop
  | directory : Decides preview path .directory (.error (.unreadable .isDirectory))
  | unreadable : Decides preview path (.file none) (.error (.unreadable .notText))
  | malformed {t : Text} (h : ofDocument? t = none) :
      Decides preview path (.file (some t)) (.error .malformed)
  | invalid {t : Text} {c : Config} {e : ConfigError} (h : ofDocument? t = some c)
      (hfault : c.fault? = some e) : Decides preview path (.file (some t)) (.error e)
  | valid {t : Text} {c : Config} (h : ofDocument? t = some c) (hfault : c.fault? = none) :
      Decides preview path (.file (some t)) (.ok ⟨preview.getD c.preview, c.templates, some path⟩)

/-! ## The chosen file -/

/-- The entry at a path decides. -/
theorem decides_inFile (hplace : tree.resolve cwd path = .ok place)
    (hnode : tree.at? place = some node) (preview : Option Bool) :
    Decides preview path node ((inFile tree cwd path).map (·.withPreview? preview)) := by
  unfold inFile FileTree.read
  simp only [hplace, hnode]
  cases node with
  | directory => exact .directory
  | file text =>
    cases text with
    | none => exact .unreadable
    | some t =>
      simp only [ofText]
      cases hdocument : ofDocument? t with
      | none => exact .malformed hdocument
      | some c =>
        cases hfault : c.fault? with
        | some e =>
          simp only [hfault]
          exact .invalid hdocument hfault
        | none =>
          simp only [hfault]
          exact .valid (c := c) hdocument hfault

/-- What a path reaches decides. -/
theorem exists_decides (h : tree.Reaches cwd path place) (preview : Option Bool) :
    ∃ node, tree.at? place = some node ∧
      Decides preview path node ((chosen tree cwd (some path)).map (·.withPreview? preview)) := by
  obtain ⟨node, hnode⟩ := Option.isSome_iff_exists.mp h.isSome
  rw [chosen, if_pos (pathExists_iff.mpr ⟨place, h⟩)]
  exact ⟨node, hnode, decides_inFile h.resolve_eq hnode preview⟩

/-- A path that reaches nothing is an error. -/
theorem chosen_of_not_reaches (h : ∀ place, ¬ tree.Reaches cwd path place) :
    chosen tree cwd (some path) = .error (.notFound path) := by
  rw [chosen, if_neg fun hexists => ?_]
  obtain ⟨place, hreaches⟩ := pathExists_iff.mp hexists
  exact h place hreaches

/-! ## The way up -/

theorem isEntryName_fileName : IsEntryName fileName where
  nonempty := by decide
  unsplit := by decide
  ne_self := by decide
  ne_above := by decide

/-- The path of an entry, with what stands in front of its name. -/
theorem pathOf_concat (place : Place) (name : Text) :
    pathOf (place ++ [name]) = '/' :: (place.flatMap (· ++ ['/']) ++ name) := by
  rw [pathOf, join_append_cons, List.flatMap_nil, List.append_nil]

/-- The configuration in a directory stands under the path that is looked at. -/
theorem pathIn_pathOf (h : ∀ name ∈ d, IsEntryName name) :
    pathIn (pathOf d) = pathOf (placeIn d) := by
  rcases List.eq_nil_or_concat d with rfl | ⟨above, name, rfl⟩
  · rfl
  · have hname : IsEntryName name := h name (by simp)
    have hlast : (pathOf (above ++ [name])).getLast? ≠ some '/' := by
      rw [pathOf_concat, ← List.cons_append, List.getLast?_append_of_ne_nil _ hname.nonempty]
      exact fun hlast => hname.unsplit (List.mem_of_getLast? hlast)
    rw [List.concat_eq_append, pathIn, if_neg hlast, placeIn, pathOf_concat, pathOf_concat]
    simp

/-- Looking at a path tells whether the directory has an entry of the usual name. -/
theorem pathExists_pathIn_iff (h : tree.IsDirectory d) (cwd : Place) :
    tree.pathExists cwd (pathIn (pathOf d)) = true ↔ Holds tree d := by
  rw [pathIn_pathOf h.names, placeIn, h.pathExists_pathOf isEntryName_fileName]
  exact ⟨fun ⟨hsome, hlength⟩ => ⟨hsome, hlength⟩, fun ⟨hsome, hlength⟩ => ⟨hsome, hlength⟩⟩

/-- The nearest directory with an entry of the usual name, as the search finds it. -/
def nearest? (tree : FileTree) (cwd : Place) : Option Place :=
  (ancestors cwd).find? fun d => tree.pathExists cwd (pathIn (pathOf d))

theorem chosen_none (tree : FileTree) (cwd : Place) :
    chosen tree cwd none = match nearest? tree cwd with
      | some d => inFile tree cwd (pathIn (pathOf d))
      | none => .ok default := by
  have hfind : (((ancestors cwd).map pathOf).map pathIn).find? (tree.pathExists cwd) =
      (nearest? tree cwd).map fun d => pathIn (pathOf d) := by
    rw [List.map_map, List.find?_map]
    rfl
  rw [chosen, hfind]
  cases nearest? tree cwd <;> rfl

theorem nearest_of_nearest? (hcwd : tree.IsDirectory cwd) (h : nearest? tree cwd = some d) :
    Nearest tree cwd d := by
  obtain ⟨habove, hlooked, hnearest⟩ := of_find?_ancestors h
  refine ⟨habove, (pathExists_pathIn_iff (hcwd.of_prefix habove) cwd).mp hlooked, ?_⟩
  intro other hother hholds
  exact hnearest other hother ((pathExists_pathIn_iff (hcwd.of_prefix hother) cwd).mpr hholds)

theorem nearest?_eq_none_iff (hcwd : tree.IsDirectory cwd) :
    nearest? tree cwd = none ↔ ∀ d, d <+: cwd → ¬ Holds tree d := by
  rw [nearest?, find?_ancestors_eq_none_iff]
  exact forall₂_congr fun d hd => not_congr (pathExists_pathIn_iff (hcwd.of_prefix hd) cwd)

/-- Paths to entries above are shorter. -/
theorem holds_iff_isSome (h : byteLength (pathOf (placeIn cwd)) ≤ pathLimit) (hd : d <+: cwd) :
    Holds tree d ↔ (tree.at? (placeIn d)).isSome = true := by
  refine ⟨fun hholds => hholds.isSome, fun hsome => ⟨hsome, Nat.le_trans ?_ h⟩⟩
  obtain ⟨below, rfl⟩ := hd
  rw [placeIn, placeIn, pathOf_concat, pathOf_concat, List.flatMap_append]
  simp only [byteLength_cons, byteLength_append]
  omega

/-- Without a path that was asked for, the nearest directory decides, or else there is the
default. -/
theorem nearest_or_default (hcwd : tree.IsDirectory cwd) (preview : Option Bool) :
    let result := (chosen tree cwd none).map (·.withPreview? preview)
    (∃ d node, Nearest tree cwd d ∧ tree.at? (placeIn d) = some node ∧
        Decides preview (pathOf (placeIn d)) node result) ∨
      (∀ d, d <+: cwd → ¬ Holds tree d) ∧ result = .ok ⟨preview.getD false, .empty, none⟩ := by
  intro result
  cases hfind : nearest? tree cwd with
  | none =>
    have hchosen : chosen tree cwd none = .ok default := by rw [chosen_none, hfind]
    exact .inr ⟨(nearest?_eq_none_iff hcwd).mp hfind,
      congrArg (Except.map (·.withPreview? preview)) hchosen⟩
  | some d =>
    have hnearest : Nearest tree cwd d := nearest_of_nearest? hcwd hfind
    have hdirectory : tree.IsDirectory d := hcwd.of_prefix hnearest.above
    obtain ⟨node, hnode⟩ := Option.isSome_iff_exists.mp hnearest.holds.isSome
    have hresolve : tree.resolve cwd (pathOf (placeIn d)) = .ok (placeIn d) := by
      rw [placeIn, hdirectory.resolve_pathOf isEntryName_fileName]
      exact if_neg (Nat.not_lt.mpr hnearest.holds.length)
    have hchosen : chosen tree cwd none = inFile tree cwd (pathOf (placeIn d)) := by
      rw [chosen_none, hfind, ← pathIn_pathOf hdirectory.names]
    have hdecides := decides_inFile hresolve hnode preview
    rw [← hchosen] at hdecides
    exact .inl ⟨d, node, hnearest, hnode, hdecides⟩

/-- The default comes from no file. -/
theorem Decides.ne_default {result : Except ConfigError Config}
    (h : Decides preview path node result) (b : Bool) (templates : SortedMap Text) :
    result ≠ .ok ⟨b, templates, none⟩ := by
  cases h <;> simp

end Config

open Config

/-- **The chosen file decides.**  On a tree of files, for a command that runs in one of its
directories, loading leaves the tree as it is.  When no path was asked for and there is an entry of
the usual name in the working directory or in one above it, with a path that the system takes, the
entry in the nearest of these decides, and the default is the answer exactly when none has one.  The
system takes all these paths as long as it takes the one in the working directory.  A path that was
asked for decides without them: when it leads to nothing, or is longer than the system takes, that
is an error, and else what stands there decides.  Whatever is wrong with the deciding entry is the
answer; else the answer has the templates of the file, its path, and the preview of the caller or,
without one, that of the file. -/
theorem load_decides {tree : FileTree} {cwd : Place} (hcwd : tree.IsDirectory cwd)
    (asked : Option Text) (preview : Option Bool) :
    ∃ result, (load (FileTree.host cwd) asked preview).run tree = (result, tree) ∧
      (asked = none →
        (∀ d, d <+: cwd → Holds tree d → ∃ nearest node, Nearest tree cwd nearest ∧
          tree.at? (placeIn nearest) = some node ∧
            Decides preview (pathOf (placeIn nearest)) node result) ∧
        (result = .ok ⟨preview.getD false, .empty, none⟩ ↔ ∀ d, d <+: cwd → ¬ Holds tree d) ∧
        (byteLength (pathOf (placeIn cwd)) ≤ pathLimit → ∀ d, d <+: cwd →
          (Holds tree d ↔ (tree.at? (placeIn d)).isSome = true))) ∧
      ∀ path, asked = some path →
        ((∀ place, ¬ tree.Reaches cwd path place) → result = .error (.notFound path)) ∧
        ∀ place, tree.Reaches cwd path place → ∃ node, tree.at? place = some node ∧
          Decides preview path node result := by
  refine ⟨_, run_load tree cwd asked preview, ?_, ?_⟩
  · rintro rfl
    refine ⟨fun d hd hholds => ?_, ?_, fun hlength d hd => holds_iff_isSome hlength hd⟩
    · rcases nearest_or_default hcwd preview with hnearest | ⟨hnone, _⟩
      · exact hnearest
      · exact absurd hholds (hnone d hd)
    · rcases nearest_or_default hcwd preview with ⟨d, _, hnearest, _, hdecides⟩ | ⟨hnone, hdefault⟩
      · refine iff_of_false (hdecides.ne_default _ _) fun hnone => ?_
        exact hnone d hnearest.above hnearest.holds
      · exact iff_of_true hdefault hnone
  · rintro path rfl
    refine ⟨fun hnone => ?_, fun place hreaches => exists_decides hreaches preview⟩
    rw [chosen_of_not_reaches hnone]
    rfl

/-- A directory with a configuration below one in which the usual name is that of a directory. -/
def nested : FileTree :=
  ⟨[([fileName], .directory), (["site".toList], .directory),
    (["site".toList, fileName], .file (some [])), (["site".toList, "blog".toList], .directory)]⟩

/-- The lowest directory of `nested`. -/
def blog : Place :=
  ["site".toList, "blog".toList]

theorem isDirectory_blog : nested.IsDirectory blog where
  names := List.forall_mem_cons.mpr
    ⟨⟨by decide, by decide, by decide, by decide⟩, List.forall_mem_singleton.mpr
      ⟨by decide, by decide, by decide, by decide⟩⟩
  directory := by
    have hinits : ∀ above ∈ blog.inits, nested.at? above = some .directory := by decide
    exact fun above habove => hinits above ((List.mem_inits above blog).mpr habove)

theorem holds_site : Holds nested ["site".toList] :=
  ⟨by decide, by decide⟩

/-- In the lowest directory of `nested` the configuration above it counts, and not what stands
above that. -/
theorem load_blog :
    nested.IsDirectory blog ∧ ∃ result,
      (load (FileTree.host blog) none none).run nested = (result, nested) ∧
        ∃ nearest node, Nearest nested blog nearest ∧ nested.at? (placeIn nearest) = some node ∧
          Decides none (pathOf (placeIn nearest)) node result := by
  obtain ⟨result, hrun, hnone, _⟩ := load_decides isDirectory_blog none none
  refine ⟨isDirectory_blog, result, hrun, ?_⟩
  exact (hnone rfl).1 ["site".toList] (List.prefix_append _ _) holds_site

/-! ## Entries that are not seen -/

/-- A tree with nothing but the directories down to a place. -/
def directoriesTo (place : Place) : FileTree :=
  ⟨place.inits.map fun above => (above, .directory)⟩

theorem at?_directoriesTo (place d : Place) :
    (directoriesTo place).at? d = if d <+: place then some .directory else none := by
  by_cases hroot : d = []
  · subst hroot
    rw [if_pos List.nil_prefix]
    rfl
  · rw [FileTree.at?, if_neg (by simpa using hroot)]
    cases hfind : (directoriesTo place).nodes.find? fun e => e.1 = d with
    | some e =>
      obtain ⟨above, habove, rfl⟩ := List.mem_map.mp (List.mem_of_find?_eq_some hfind)
      obtain rfl : above = d := by simpa using List.find?_some hfind
      rw [if_pos ((List.mem_inits _ _).mp habove)]
      rfl
    | none =>
      rw [if_neg fun hd => ?_]
      · rfl
      · have hmem := List.mem_map_of_mem (f := fun above => (above, FileNode.directory))
          ((List.mem_inits _ _).mpr hd)
        exact List.find?_eq_none.mp hfind _ hmem (decide_eq_true rfl)

/-- A tree with nothing but the directories down to a place and a configuration in the last. -/
def configuredAt (place : Place) : FileTree :=
  (directoriesTo place).put (placeIn place) (.file (some []))

theorem at?_placeIn_configuredAt (place : Place) :
    (configuredAt place).at? (placeIn place) = some (.file (some [])) :=
  at?_put_self _ (by simp [placeIn]) _

/-- Above the last directory there is no configuration. -/
theorem at?_placeIn_of_ne {place d : Place} (hname : fileName ∉ place) (hne : d ≠ place) :
    (configuredAt place).at? (placeIn d) = none := by
  have hentry : placeIn d ≠ placeIn place := fun h => hne (List.append_cancel_right h)
  have habove : ¬ placeIn d <+: place := fun h => hname (h.subset (by simp [placeIn]))
  rw [configuredAt, at?_put_of_ne _ hentry, at?_directoriesTo, if_neg habove]

theorem isDirectory_configuredAt {place : Place} (hnames : ∀ name ∈ place, IsEntryName name) :
    (configuredAt place).IsDirectory place where
  names := hnames
  directory := fun above habove => by
    have hne : above ≠ placeIn place := by
      rintro rfl
      have hlength := habove.length_le
      rw [placeIn, List.length_append, List.length_singleton] at hlength
      omega
    rw [configuredAt, at?_put_of_ne _ hne, at?_directoriesTo, if_pos habove]

/-- A configuration in the working directory is passed over when its path is too long. -/
theorem load_configuredAt {place : Place} (hnames : ∀ name ∈ place, IsEntryName name)
    (hname : fileName ∉ place) (hlong : pathLimit < byteLength (pathOf (placeIn place))) :
    ((load (FileTree.host place) none none).run (configuredAt place)).1 = .ok Config.default := by
  have hnone : ∀ d, d <+: place → ¬ Holds (configuredAt place) d := by
    intro d _ hholds
    by_cases hd : d = place
    · subst hd
      exact absurd hholds.length (Nat.not_le.mpr hlong)
    · have hsome := hholds.isSome
      rw [at?_placeIn_of_ne hname hd] at hsome
      cases hsome
  rw [run_load]
  rcases nearest_or_default (isDirectory_configuredAt hnames) none with
    ⟨d, _, hnearest, _⟩ | ⟨_, hdefault⟩
  · exact absurd hnearest.holds (hnone d hnearest.above)
  · exact hdefault

/-- A path to the configuration in the working directory, with detours through that directory. -/
def winding (n : Nat) : Text :=
  (List.replicate n ['.', '/']).flatten ++ fileName

theorem byteLength_winding (n : Nat) : byteLength (winding n) = 2 * n + 11 := by
  have hdetour : byteLength ['.', '/'] = 2 := by decide
  have hfile : byteLength fileName = 11 := by decide
  rw [winding, byteLength_append, byteLength_flatten_replicate, hdetour, hfile, Nat.mul_comm]

theorem destination_winding (n : Nat) :
    (configuredAt []).destination [] (winding n) = .ok (placeIn []) := by
  have hhead : (winding n).head? ≠ some '/' := by
    cases n with
    | zero => decide
    | succ n => simp [winding, List.replicate_succ]
  have hne : winding n ≠ [] := List.append_ne_nil_of_right_ne_nil _ (by decide)
  rw [destination, if_neg hne, if_neg hhead, winding, walk_detours rfl]
  rfl

/-- A place so deep that the path of a configuration there is longer than the system takes. -/
def deep : Place :=
  List.replicate 18 (List.replicate 226 'd')

theorem byteLength_pathOf_deep : byteLength (pathOf (placeIn deep)) = 4098 := by
  have hd : Char.utf8Size 'd' = 1 := by decide
  have hslash : Char.utf8Size '/' = 1 := by decide
  have hfile : byteLength fileName = 11 := by decide
  rw [placeIn, pathOf_concat, deep, List.flatMap_replicate, byteLength_cons, byteLength_append,
    byteLength_flatten_replicate, byteLength_append, byteLength_replicate, byteLength_cons,
    byteLength_nil, hd, hslash, hfile]

theorem isEntryName_of_mem_deep {name : Text} (h : name ∈ deep) : IsEntryName name := by
  obtain rfl := List.eq_of_mem_replicate h
  exact ⟨by decide, by decide, by decide, by decide⟩

/-- Not every entry decides that is there: the search passes over the configuration in a working
directory that is too deep, and a path that is too long does not reach the configuration to which it
leads. -/
theorem not_all_entries_decide :
    (¬ ∀ (tree : FileTree) (cwd : Place), tree.IsDirectory cwd →
      (((load (FileTree.host cwd) none none).run tree).1 = .ok Config.default ↔
        ∀ d, d <+: cwd → tree.at? (placeIn d) = none)) ∧
    ¬ ∀ (tree : FileTree) (cwd place : Place) (path : Text), tree.IsDirectory cwd →
      tree.destination cwd path = .ok place → (tree.at? place).isSome = true →
        ((load (FileTree.host cwd) (some path) none).run tree).1 ≠ .error (.notFound path) := by
  constructor
  · intro hall
    have hname : fileName ∉ deep := fun hmem => by
      have heq := List.eq_of_mem_replicate hmem
      revert heq
      decide
    have hlong : pathLimit < byteLength (pathOf (placeIn deep)) := by
      rw [byteLength_pathOf_deep, pathLimit]
      omega
    have hdefault := load_configuredAt (fun name => isEntryName_of_mem_deep) hname hlong
    have hnone := (hall (configuredAt deep) deep
      (isDirectory_configuredAt fun name => isEntryName_of_mem_deep)).mp hdefault deep
        List.prefix_rfl
    rw [at?_placeIn_configuredAt] at hnone
    cases hnone
  · intro hall
    have hlong : pathLimit < byteLength (winding 2043) := by
      rw [byteLength_winding, pathLimit]
      omega
    have hreaches : ∀ place, ¬ (configuredAt []).Reaches [] (winding 2043) place := fun place h =>
      absurd h.length (Nat.not_le.mpr hlong)
    refine hall (configuredAt []) [] (placeIn []) (winding 2043)
      (isDirectory_configuredAt (by simp)) (destination_winding 2043)
      (by rw [at?_placeIn_configuredAt]; rfl) ?_
    rw [run_load, chosen_of_not_reaches hreaches]
    rfl

end BuildBlocks
