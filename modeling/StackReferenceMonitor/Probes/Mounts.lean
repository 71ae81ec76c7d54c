import StackReferenceMonitor.Probes.Coverage

/-!
# Full paths and mounts

The administrator enters full paths. A handler asks `dentry_path_raw` for the path of a dentry, and
that is the path from the root of the dentry's own file system: the path that the file system is
mounted at is missing. So an entry is compared with the wrong string on every mount but the root.

A name space is a tree of file systems, each with its own dentries. A file system is mounted at a
dentry of the one above it, and the path it is mounted at is that of the ones above, followed by
that of the dentry.

## Main definitions

* `DentryTree`, `NameSpace`, `NameSpace.File`: the files of a name space, `NameSpace.File.fullPath`.
* `Protects`: an entry is the path of a file or of a directory above it.
* `FoundInside`: the path inside the file system is computed, and an entry starts it.

## Main results

* `fullPath_protected_iff`: a file whose full path is at or below an entry has the verdict `1`
  exactly when its path inside its file system is computed and starts with an entry.
* `FoundInside.of_root`: on the root file system that is so.
-/

namespace StackReferenceMonitor

open LinkedList Blacklist
open PathString (render)

/-! ### Name spaces -/

/-- The dentries of a file system, with the parents of each. -/
structure DentryTree where
  /-- The dentries. -/
  dentries : List Dentry
  /-- The root is one of them. -/
  root_mem : [] ∈ dentries
  /-- So is the parent of each. -/
  dParent_mem : ∀ dentry ∈ dentries, dentry.dParent ∈ dentries

/-- A file system, and the name spaces that are mounted on its dentries. -/
inductive NameSpace where
  /-- The mounts are pairs of a dentry and what is mounted there. -/
  | mk (fs : DentryTree) (mounts : List (Dentry × NameSpace))

/-- The file system that is mounted at the path `mountPath` of the name space has the dentry. -/
inductive NameSpace.Holds : NameSpace → List Name → Dentry → Prop
  /-- The root file system is mounted at the root. -/
  | root {fs : DentryTree} {mounts : List (Dentry × NameSpace)} {dentry : Dentry}
      (h : dentry ∈ fs.dentries) : Holds (.mk fs mounts) [] dentry
  /-- What is mounted at a path of a name space is mounted below the dentry that holds it. -/
  | mounted {fs : DentryTree} {mounts : List (Dentry × NameSpace)} {point dentry : Dentry}
      {ns : NameSpace} {path : List Name} (hmount : (point, ns) ∈ mounts)
      (hpoint : point ∈ fs.dentries) (h : Holds ns path dentry) :
      Holds (.mk fs mounts) (point ++ path) dentry

/-- A file of a name space. -/
structure NameSpace.File (ns : NameSpace) where
  /-- The path that its file system is mounted at. -/
  mountPath : List Name
  /-- Its dentry. -/
  dentry : Dentry
  /-- The file system has that dentry. -/
  holds : ns.Holds mountPath dentry

/-- The mount path, followed by the path inside the file system. -/
def NameSpace.File.fullPath {ns : NameSpace} (file : ns.File) : List Name :=
  file.mountPath ++ file.dentry

/-! ### Entries and verdicts -/

/-- The entry is a canonical path, of the file or of a directory above it. -/
def Protects (entry : CStr) (path : List Name) : Prop :=
  ∃ e, entry.bytes = render e ∧ e <+: path

/-- The path of the dentry in its own file system is computed, and with the byte after it, unless
that is a NUL, it starts with an entry. -/
structure FoundInside (entries : List (ℕ × CStr)) (env : PathEnv) (dentry : Dentry) : Prop where
  /-- The page for the path is allocated. -/
  page : env.page = true
  /-- The path fits. -/
  fits : (render dentry).length < pathMax
  /-- The buffer is allocated, and an entry starts what it holds. -/
  covered : ∃ junk, env.fullPath = some junk ∧ ∃ x ∈ entries,
    Covers x.2 (render dentry ++ CString.chars [junk (render dentry).length])

variable {rf : ReferenceMonitor} {xs : List (ℕ × CStr)} {env : PathEnv} {dentry : Dentry}

/-- A path that could not be computed is not compared with an entry that has characters. -/
theorem isBlacklisted_null_eq_none (hrf : rf.Enforcing) (hxs : rf.blacklist.Counted xs)
    (hne : xs ≠ []) (hentries : ∀ x ∈ xs, x.2.bytes ≠ []) : isBlacklisted rf none = none := by
  rw [isBlacklisted_eq_walk hrf hxs hne]
  obtain ⟨⟨a, v⟩, xs, rfl⟩ := List.exists_cons_of_ne_nil hne
  -- the comparison with the first entry reads a byte through `NULL`
  rw [walk_null hxs.lists, if_neg (hentries _ List.mem_cons_self)]

/-- A canonical path has characters. -/
theorem render_ne_nil (path : List Name) : render path ≠ [] := by
  cases path with
  | nil => simp
  | cons name path => simp [PathString.render_of_ne_nil]

/-- The verdict on a dentry is `1` exactly when it is found under its path inside its file
system. -/
theorem isBlacklisted_getPathFromDentry_iff (hrf : rf.Enforcing) (hxs : rf.blacklist.Counted xs)
    (hne : xs ≠ []) (hentries : ∀ x ∈ xs, ∃ e, x.2.bytes = render e) :
    isBlacklisted rf (getPathFromDentry env dentry) = some 1 ↔ FoundInside xs env dentry := by
  cases hpath : getPathFromDentry env dentry with
  | none =>
    have hchars : ∀ x ∈ xs, x.2.bytes ≠ [] := by
      intro x hx
      obtain ⟨e, he⟩ := hentries x hx
      rw [he]
      exact render_ne_nil e
    rw [isBlacklisted_null_eq_none hrf hxs hne hchars]
    -- neither side holds of a path that was not computed
    refine iff_of_false (by simp) fun h => ?_
    obtain ⟨junk, hjunk, -⟩ := h.covered
    rw [getPathFromDentry_eq h.page hjunk h.fits] at hpath
    exact absurd hpath (by simp)
  | some path =>
    obtain ⟨henv, hlen⟩ := succeeds_of_getPathFromDentry hpath
    obtain ⟨junk, hjunk⟩ := Option.isSome_iff_exists.mp henv.fullPath
    rw [getPathFromDentry_eq henv.page hjunk hlen] at hpath
    obtain rfl := Option.some.inj hpath
    -- the string in the buffer is the path and the byte that was not written
    have hchars : CString.chars (render dentry ++ [junk (render dentry).length, 0]) =
        render dentry ++ CString.chars [junk (render dentry).length] := by
      rw [CString.chars_append (PathString.nul_notMem_render dentry)]
      by_cases hstray : junk (render dentry).length = 0
      · simp [hstray]
      · simp [CString.chars_cons_of_ne hstray]
    rw [isBlacklisted_eq hrf hxs, hchars]
    constructor
    · intro h
      refine ⟨henv.page, hlen, junk, hjunk, ?_⟩
      by_contra hnot
      rw [if_neg hnot] at h
      exact absurd h (by simp)
    · rintro ⟨-, -, junk', hjunk', hcov⟩
      obtain rfl := Option.some.inj (hjunk.symm.trans hjunk')
      rw [if_pos hcov]

/-- A file of the root file system is found under its full path. -/
theorem FoundInside.of_root (henv : env.Succeeds) (hlen : (render dentry).length < pathMax)
    (h : ∃ x ∈ xs, Protects x.2 dentry) : FoundInside xs env dentry := by
  obtain ⟨junk, hjunk⟩ := Option.isSome_iff_exists.mp henv.fullPath
  obtain ⟨x, hx, e, he, hbelow⟩ := h
  refine ⟨henv.page, hlen, junk, hjunk, x, hx, Covers.append ?_ _⟩
  unfold Covers
  rw [he]
  exact (trimSlash_isPrefix _).trans (PathString.render_prefix_render hbelow)

/-- For every name space, every list of canonical paths, in ON or REC_ON, and every file: the
verdict on the file is `1` whenever its full path is at or below an entry, exactly when in that case
its path inside its own file system is computed and starts with an entry. -/
theorem fullPath_protected_iff (hrf : rf.Enforcing) (hxs : rf.blacklist.Counted xs)
    (hentries : ∀ x ∈ xs, ∃ e, x.2.bytes = render e) (ns : NameSpace) (file : ns.File)
    (env : PathEnv) :
    ((∃ x ∈ xs, Protects x.2 file.fullPath) →
        isBlacklisted rf (getPathFromDentry env file.dentry) = some 1) ↔
      ((∃ x ∈ xs, Protects x.2 file.fullPath) → FoundInside xs env file.dentry) := by
  refine imp_congr_right fun h => ?_
  -- the list has an entry, so the handler does not stop at its being empty
  obtain ⟨x, hx, -⟩ := h
  exact isBlacklisted_getPathFromDentry_iff hrf hxs (List.ne_nil_of_mem hx) hentries

/-! ### A file on another mount -/

/-- A file system is mounted at `/a`, and has a file `b`. -/
def mountedSpace : NameSpace :=
  .mk ⟨[[], [nameA]], by decide, by decide⟩
    [([nameA], .mk ⟨[[], [nameB]], by decide, by decide⟩ [])]

/-- The directory `/a` of the root file system. -/
def mountPoint : mountedSpace.File :=
  ⟨[], [nameA], .root (by decide)⟩

/-- The file `/a/b`, which is `/b` in its own file system. -/
def mountedFile : mountedSpace.File :=
  ⟨[nameA] ++ [], [nameB], .mounted List.mem_cons_self (by decide) (.root (by decide))⟩

/-- Both are at or below `/a`. -/
theorem protects_pathA {path : List Name} (h : [nameA] <+: path) : Protects pathA path :=
  ⟨[nameA], rfl, h⟩

/-- The directory is found under its full path. -/
theorem fullPath_protected_iff_mountPoint :
    isBlacklisted (monitorOf pathA) (getPathFromDentry strayEnv.first mountPoint.dentry) =
      some 1 := by
  have hxs : (monitorOf pathA).blacklist.Counted [(0, pathA)] :=
    ⟨listOf_lists pathA, by simp, by decide, by decide⟩
  have hentries : ∀ x ∈ [(0, pathA)], ∃ e, x.2.bytes = render e := by
    intro x hx
    obtain rfl := List.mem_singleton.mp hx
    exact ⟨[nameA], rfl⟩
  have hprotects : ∃ x ∈ [(0, pathA)], Protects x.2 mountPoint.fullPath :=
    ⟨_, List.mem_cons_self, protects_pathA (List.prefix_refl _)⟩
  exact (fullPath_protected_iff (Or.inl rfl) hxs hentries mountedSpace mountPoint
    strayEnv.first).mpr (fun h => .of_root (by decide) (by decide) h) hprotects

/-- With `/a` on the list, the file `/a/b` on the other mount is not found. -/
theorem mountedFile_not_found :
    (monitorOf pathA).Enforcing ∧ Reachable (monitorOf pathA).blacklist ∧
      Protects pathA mountedFile.fullPath ∧
      isBlacklisted (monitorOf pathA) (getPathFromDentry strayEnv.first mountedFile.dentry) =
        some 0 := by
  refine ⟨Or.inl rfl, listOf_reachable (by decide), protects_pathA ⟨[nameB], rfl⟩, ?_⟩
  decide +kernel

end StackReferenceMonitor
