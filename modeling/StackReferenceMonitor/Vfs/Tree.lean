import StackReferenceMonitor.Vfs.Defs

/-!
# The tree of a file system

What the operations on the tree of names leave at each path, and how a string names an object: its
components are followed from the root, through symbolic links, as the kernel resolves a path.

## Main definitions

* `FileSystem.WellFormed`: the names form a tree.
* `FileSystem.resolve`: the path of the object that a string names.

## Main results

* `lookupTree_pruneTree`, `lookupTree_renameTree_of_not_prefix`: the names that a removal and a
  renaming leave;
* `FileSystem.WellFormed.isObject_of_resolve`: a string names an object that exists and is no
  symbolic link;
* `FileSystem.resolve_of_splitOn`: the path of an object names it.
-/

namespace StackReferenceMonitor

open PathString (slash)

section Lookup

variable {tree : List (Dentry × ℕ)} {dentry oldDentry newDentry q : Dentry}

theorem lookupTree_cons (ino : ℕ) :
    lookupTree ((dentry, ino) :: tree) q = if dentry = q then some ino else lookupTree tree q := by
  by_cases h : dentry = q <;> simp [lookupTree, h]

/-- A path that has a name is one of the tree's. -/
theorem exists_mem_of_lookupTree {ino : ℕ} (h : lookupTree tree q = some ino) :
    (q, ino) ∈ tree := by
  obtain ⟨⟨path, _⟩, hfind, rfl⟩ := Option.map_eq_some_iff.mp h
  have hpath : path = q := by simpa using List.find?_some hfind
  rw [← hpath]
  exact List.mem_of_find?_eq_some hfind

/-- A removal leaves the names that are not at or below the path. -/
theorem lookupTree_pruneTree :
    lookupTree (pruneTree tree dentry) q = if dentry <+: q then none else lookupTree tree q := by
  induction tree with
  | nil => simp [pruneTree, lookupTree]
  | cons e tree ih =>
    obtain ⟨path, ino⟩ := e
    by_cases hpath : dentry <+: path
    · -- this name goes, and if it was the one looked for, so does the result
      have hgone : pruneTree ((path, ino) :: tree) dentry = pruneTree tree dentry := by
        simp [pruneTree, hpath]
      rw [hgone, ih, lookupTree_cons]
      by_cases hq : path = q
      · simp [← hq, hpath]
      · simp [hq]
    · have hkept : pruneTree ((path, ino) :: tree) dentry =
          (path, ino) :: pruneTree tree dentry := by
        simp [pruneTree, hpath]
      rw [hkept, lookupTree_cons, lookupTree_cons, ih]
      by_cases hq : path = q
      · simp [← hq, hpath]
      · simp [hq]

/-- A renaming leaves the names that are not at or below the old or the new path. -/
theorem lookupTree_renameTree_of_not_prefix (hold : ¬oldDentry <+: q) (hnew : ¬newDentry <+: q) :
    lookupTree (renameTree tree oldDentry newDentry) q = lookupTree tree q := by
  have hprune : lookupTree (pruneTree tree newDentry) q = lookupTree tree q := by
    rw [lookupTree_pruneTree, if_neg hnew]
  rw [renameTree, ← hprune]
  -- a name that moves is below the new path after, and was below the old one before
  have hmove : ∀ path, movePath oldDentry newDentry path = q ↔ path = q := by
    intro path
    unfold movePath
    split_ifs with hpath
    · constructor
      · rintro rfl
        exact absurd (List.prefix_append _ _) hnew
      · rintro rfl
        exact absurd hpath hold
    · rfl
  induction pruneTree tree newDentry with
  | nil => rfl
  | cons e tree ih =>
    rw [List.map_cons, lookupTree_cons, lookupTree_cons, ih, if_congr (hmove e.1) rfl rfl]

end Lookup

namespace FileSystem

/-- The names form a tree. -/
structure WellFormed (fs : FileSystem) : Prop where
  /-- The root is a directory. -/
  root : fs.node [] = some .dir
  /-- A name is in a directory. -/
  parent : ∀ dentry name, (fs.lookup (dentry ++ [name])).isSome → fs.node dentry = some .dir
  /-- Every name has its inode. -/
  valid : ∀ dentry ino, fs.lookup dentry = some ino → ino < fs.inodes.length

/-- Following the components of a path from a directory. What to do from a directory with the
components of a symbolic link's target and those behind it is a parameter. -/
def walkPath (fs : FileSystem) (follow : Dentry → List (List UInt8) → Option Dentry) :
    Dentry → List (List UInt8) → Option Dentry
  | dentry, [] => some dentry
  | dentry, component :: rest =>
    if fs.node dentry ≠ some .dir then none
    -- several slashes are one, and `.` is the directory itself
    else if component = [] ∨ component = [46] then walkPath fs follow dentry rest
    else if component = [46, 46] then walkPath fs follow dentry.dParent rest
    else do
      let name ← Name.ofBytes component
      match ← fs.node (dentry ++ [name]) with
      | .symlink target =>
        -- a target that starts with a slash is followed from the root
        let start := if target.head? = some slash then [] else dentry
        follow start (target.splitOn slash ++ rest)
      | _ => walkPath fs follow (dentry ++ [name]) rest

/-- Following the components of a path through at most so many symbolic links. -/
def followPath (fs : FileSystem) : ℕ → Dentry → List (List UInt8) → Option Dentry
  | 0 => fs.walkPath fun _ _ => none
  | links + 1 => fs.walkPath (followPath fs links)

/-- `MAXSYMLINKS`. -/
def maxSymlinks : ℕ := 40

/-- The path of the object that an absolute path names. -/
def resolve (fs : FileSystem) (path : List UInt8) : Option Dentry :=
  if path.head? = some slash then fs.followPath maxSymlinks [] (path.splitOn slash) else none

section Resolve

variable {fs : FileSystem} {follow : Dentry → List (List UInt8) → Option Dentry} {dentry : Dentry}

/-- An object that is no symbolic link. -/
def IsObject (fs : FileSystem) (dentry : Dentry) : Prop :=
  ∃ inode, fs.node dentry = some inode ∧ ∀ target, inode ≠ .symlink target

theorem WellFormed.isObject_root (h : fs.WellFormed) : fs.IsObject [] :=
  ⟨.dir, h.root, by simp⟩

/-- The directory of a name is an object. -/
theorem WellFormed.isObject_dParent (h : fs.WellFormed) (hd : fs.IsObject dentry) :
    fs.IsObject dentry.dParent := by
  rcases List.eq_nil_or_concat' dentry with rfl | ⟨parent, name, rfl⟩
  · exact hd
  · obtain ⟨inode, hnode, -⟩ := hd
    have hlookup : (fs.lookup (parent ++ [name])).isSome := by
      simp only [node, Option.bind_eq_bind, Option.bind_eq_some_iff] at hnode
      obtain ⟨ino, hino, -⟩ := hnode
      simp [hino]
    refine ⟨.dir, ?_, by simp⟩
    rw [Dentry.dParent, List.dropLast_concat]
    exact h.parent parent name hlookup

/-- A walk from an object leads to an object, if the links it follows do. -/
theorem WellFormed.walkPath_isObject (h : fs.WellFormed)
    (hfollow : ∀ start components d, fs.IsObject start → follow start components = some d →
      fs.IsObject d)
    {components : List (List UInt8)} {d : Dentry} (hdentry : fs.IsObject dentry)
    (hwalk : fs.walkPath follow dentry components = some d) : fs.IsObject d := by
  induction components generalizing dentry with
  | nil =>
    simp only [walkPath, Option.some.injEq] at hwalk
    exact hwalk ▸ hdentry
  | cons component rest ih =>
    rw [walkPath] at hwalk
    split_ifs at hwalk with hdir hsame hup
    · exact ih hdentry hwalk
    · exact ih (h.isObject_dParent hdentry) hwalk
    · simp only [Option.bind_eq_bind, Option.bind_eq_some_iff] at hwalk
      obtain ⟨name, -, inode, hnode, hwalk⟩ := hwalk
      split at hwalk
      · -- a link is followed from the root or from the directory it is in
        refine hfollow _ _ _ ?_ hwalk
        split_ifs
        · exact h.isObject_root
        · exact hdentry
      case h_2 hne => exact ih ⟨inode, hnode, fun target ht => hne target ht⟩ hwalk

theorem WellFormed.followPath_isObject (h : fs.WellFormed) (links : ℕ)
    {components : List (List UInt8)} {d : Dentry} (hdentry : fs.IsObject dentry)
    (hwalk : fs.followPath links dentry components = some d) : fs.IsObject d := by
  -- one link fewer is left for the path that a link leads to
  induction links generalizing dentry components d with
  | zero => exact h.walkPath_isObject (by simp) hdentry hwalk
  | succ links ih => exact h.walkPath_isObject (fun _ _ _ hs hf => ih hs hf) hdentry hwalk

/-- A string names an object that exists and is no symbolic link. -/
theorem WellFormed.isObject_of_resolve (h : fs.WellFormed) {path : List UInt8}
    (hres : fs.resolve path = some dentry) : fs.IsObject dentry := by
  unfold resolve at hres
  split_ifs at hres
  exact h.followPath_isObject maxSymlinks h.isObject_root hres

/-- One step of a walk, from a directory to an object in it. -/
theorem walkPath_name {name : Name} (rest : List (List UInt8)) (hdir : fs.node dentry = some .dir)
    (hobj : fs.IsObject (dentry ++ [name])) :
    fs.walkPath follow dentry (name.bytes :: rest) =
      fs.walkPath follow (dentry ++ [name]) rest := by
  obtain ⟨inode, hnode, hlink⟩ := hobj
  have hsame : ¬(name.bytes = [] ∨ name.bytes = [46]) := by simp [name.ne_nil, name.ne_dot]
  rw [walkPath, if_neg (not_not.mpr hdir), if_neg hsame, if_neg name.ne_dotdot]
  cases inode with
  | symlink target => exact absurd rfl (hlink target)
  | file contents => simp [hnode]
  | dir => simp [hnode]

/-- Following the names of a path leads to it, if all but the last are those of directories and
the last is no symbolic link. -/
theorem walkPath_names (names : List Name) (rest : List (List UInt8))
    (hdirs : ∀ above name below, names = above ++ name :: below →
      fs.node (dentry ++ above) = some .dir)
    (hobj : fs.IsObject (dentry ++ names)) :
    fs.walkPath follow dentry (names.map Name.bytes ++ rest) =
      fs.walkPath follow (dentry ++ names) rest := by
  induction names generalizing dentry with
  | nil => simp
  | cons name names ih =>
    have hdir : fs.node dentry = some .dir := by
      simpa using hdirs [] name names rfl
    have hnext : fs.IsObject (dentry ++ [name]) := by
      cases names with
      | nil => exact hobj
      | cons name' names => exact ⟨.dir, hdirs [name] name' names rfl, by simp⟩
    have hstep : fs.walkPath follow (dentry ++ [name]) (names.map Name.bytes ++ rest) =
        fs.walkPath follow (dentry ++ [name] ++ names) rest := by
      refine ih (fun above name' below h => ?_) (by simpa using hobj)
      simpa using hdirs (name :: above) name' below (by rw [h, List.cons_append])
    rw [List.map_cons, List.cons_append, walkPath_name _ hdir hnext, hstep, List.append_assoc,
      List.singleton_append]

/-- Empty components stay at a directory. -/
theorem walkPath_replicate (k : ℕ) :
    fs.walkPath follow dentry (List.replicate k []) =
      if k = 0 ∨ fs.node dentry = some .dir then some dentry else none := by
  induction k with
  | zero => simp [walkPath]
  | succ k ih =>
    rw [List.replicate_succ, walkPath, if_pos (Or.inl rfl), ih]
    by_cases hdir : fs.node dentry = some .dir <;> simp [hdir]

/-- The path of an object, spelled with empty components after it, names the object, unless they
follow something that is no directory. -/
theorem resolve_of_splitOn {path : List UInt8} {k : ℕ} (hhead : path.head? = some slash)
    (hsplit : path.splitOn slash = [] :: (dentry.map Name.bytes ++ List.replicate k []))
    (hroot : fs.node [] = some .dir)
    (hdirs : ∀ above name below, dentry = above ++ name :: below → fs.node above = some .dir)
    (hobj : fs.IsObject dentry) :
    fs.resolve path = if k = 0 ∨ fs.node dentry = some .dir then some dentry else none := by
  have hstart : ∀ components, fs.followPath maxSymlinks [] ([] :: components) =
      fs.walkPath (fs.followPath 39) [] components := by
    intro components
    rw [maxSymlinks, followPath, walkPath, if_neg (not_not.mpr hroot), if_pos (Or.inl rfl)]
  rw [resolve, if_pos hhead, hsplit, hstart, walkPath_names dentry _ hdirs hobj, List.nil_append,
    walkPath_replicate]

end Resolve

end FileSystem

end StackReferenceMonitor
