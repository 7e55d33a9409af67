import BuildBlocks.FileTree

/-! # Writing into a tree of files

A text that is written to a path stands in the file at one place, and every other place is as it
was (`updated_of_write`).  No directory is made or lost thereby, so a path leads to the same place
before and after (`Updated.resolve_eq_ok_iff`); that is why a file can be read again under the path
it was written to, and under no path to another place is anything new.
-/
namespace BuildBlocks
open Text

namespace FileTree
variable {tree after : FileTree} {cwd place other : Place} {path content : Text}

theorem at?_put_self (tree : FileTree) (h : place ≠ []) (node : FileNode) :
    (tree.put place node).at? place = some node := by
  simp [at?, put, h]

theorem at?_put_of_ne (tree : FileTree) (h : other ≠ place) (node : FileNode) :
    (tree.put place node).at? other = tree.at? other := by
  unfold at? put
  by_cases hroot : other.isEmpty = true
  · rw [if_pos hroot, if_pos hroot]
  · rw [if_neg hroot, if_neg hroot, List.find?_cons_of_neg (by simpa using Ne.symm h),
      List.find?_filter]
    congr 2
    funext e
    by_cases he : e.1 = other <;> simp [he, h]

/-- The tree after it is the tree with a text in the file at a place. -/
structure Updated (tree after : FileTree) (place : Place) (content : Text) : Prop where
  /-- No directory is in the way. -/
  free : tree.at? place ≠ some .directory
  held : after.at? place = some (.file (some content))
  kept : ∀ other, other ≠ place → after.at? other = tree.at? other

theorem updated_put (h : tree.at? place ≠ some .directory) (content : Text) :
    Updated tree (tree.put place (.file (some content))) place content := by
  have hroot : place ≠ [] := by
    rintro rfl
    exact h rfl
  exact ⟨h, tree.at?_put_self hroot _, fun other hne => tree.at?_put_of_ne hne _⟩

/-- A text is written into the file at the place that the path leads to. -/
theorem updated_of_write (h : tree.write cwd path content = .ok after) :
    ∃ place, tree.resolve cwd path = .ok place ∧ Updated tree after place content := by
  unfold write at h
  split at h
  · cases h
  · rename_i place hplace
    split at h
    · cases h
    · rename_i t hnode
      obtain rfl := Except.ok.inj h
      exact ⟨place, hplace, updated_put (by simp [hnode]) content⟩
    · rename_i hnode
      split at h
      · cases h
      · obtain rfl := Except.ok.inj h
        exact ⟨place, hplace, updated_put (by simp [hnode]) content⟩

namespace Updated

theorem directory_iff (h : Updated tree after place content) (other : Place) :
    after.at? other = some .directory ↔ tree.at? other = some .directory := by
  by_cases hother : other = place
  · subst hother
    simp [h.held, h.free]
  · rw [h.kept other hother]

theorem walk_eq_ok_iff (h : Updated tree after place content) (names : List Text)
    (start other : Place) :
    after.walk start names = .ok other ↔ tree.walk start names = .ok other := by
  induction names generalizing start with
  | nil => rfl
  | cons name names ih =>
    have hstep : ∀ t : FileTree, t.walk start (name :: names) = .ok other ↔
        t.at? start = some .directory ∧ t.walk (follow start name) names = .ok other := by
      intro t
      rw [walk]
      split <;> simp_all
    rw [hstep, hstep, h.directory_iff, ih]

/-- A path leads to a place before exactly when it does after. -/
theorem resolve_eq_ok_iff (h : Updated tree after place content) (cwd : Place) (path : Text)
    (other : Place) : after.resolve cwd path = .ok other ↔ tree.resolve cwd path = .ok other := by
  unfold resolve
  split
  · rfl
  · split
    · rfl
    · exact h.walk_eq_ok_iff _ _ _
    · exact h.walk_eq_ok_iff _ _ _

/-- The text is read under every path to its place. -/
theorem read_eq (h : Updated tree after place content)
    (hpath : tree.resolve cwd path = .ok place) : after.read cwd path = .ok content := by
  unfold read
  rw [(h.resolve_eq_ok_iff cwd path place).2 hpath]
  simp only [h.held]

end Updated

/-! ## The host of a tree -/

/-- An action hands on its answer and the tree that it leaves. -/
theorem run_bind_of_run_eq {α β : Type} {x : StateM FileTree α} {a : α}
    (h : x.run tree = (a, after)) (next : α → StateM FileTree β) :
    (x >>= next).run tree = (next a).run after := by
  show (next (x.run tree).1).run (x.run tree).2 = _
  rw [h]

theorem run_pathExists :
    ((host cwd).pathExists path).run tree = (tree.pathExists cwd path, tree) := rfl

theorem run_read : ((host cwd).read path).run tree = (tree.read cwd path, tree) := rfl

theorem run_directories :
    (host cwd).directories.run tree = ((ancestors cwd).map pathOf, tree) := rfl

/-- What cannot be written leaves the tree as it is. -/
theorem run_write : ((host cwd).write path content).run tree =
    match tree.write cwd path content with
    | .ok after => (.ok (), after)
    | .error e => (.error e, tree) := by
  show ((match tree.write cwd path content with
    | .ok after => do
      set after
      return .ok ()
    | .error e => return .error e : StateM FileTree (Except FileError Unit))).run tree = _
  cases tree.write cwd path content <;> rfl

end FileTree
end BuildBlocks
