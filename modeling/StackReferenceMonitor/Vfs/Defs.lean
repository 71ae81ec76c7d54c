import StackReferenceMonitor.Probes.Coverage

/-!
# The file system under the monitor

A file system on a single mount, as far as the operations behind the ten probed functions read and
change it: a tree from paths to inodes in which an inode may have several names, the contents of
the inodes, and the open files. These are the kernel's own operations, not code of the monitor:
each is what the kernel does when nothing denies it.

An open file has a dentry, and its path follows the directories above it when they are renamed.
When a name is removed, the open files under it keep their dentry, which no longer is in the tree:
`OpenFile.base` is the part of the path that still is.

## Main definitions

* `FileSystem`, `VfsOp`.
* `FileSystem.perform`: what an operation returns and does.
* `VfsOp.call`: the probed function that an operation calls.

## Main results

* `vfsWrite_cases`, `vfsLlseek_cases`: what a write and a seek can do.
-/

namespace StackReferenceMonitor

/-- What an inode number stands for. -/
inductive Inode where
  /-- A regular file. -/
  | file (contents : List UInt8)
  /-- A directory. -/
  | dir
  /-- A symbolic link. -/
  | symlink (target : List UInt8)
  deriving DecidableEq

/-- An open file. -/
structure OpenFile where
  /-- The names of its dentry that are still in the tree. -/
  base : Dentry
  /-- The names below them, removed since the file was opened. -/
  removed : List Name
  /-- Its inode. -/
  ino : ℕ
  /-- `f_flags`. -/
  flags : UInt32
  /-- `f_pos`. -/
  pos : ℕ
  deriving DecidableEq

/-- `f_path.dentry`. -/
def OpenFile.dentry (f : OpenFile) : Dentry :=
  f.base ++ f.removed

/-- `FMODE_WRITE`, as `OPEN_FMODE` computes it from the flags. -/
def OpenFile.writable (f : OpenFile) : Bool :=
  (f.flags + 1) &&& 2 ≠ 0

/-- A file system on one mount. -/
structure FileSystem where
  /-- The names: the inode number at each path. -/
  tree : List (Dentry × ℕ)
  /-- The inodes, by number. -/
  inodes : List Inode
  /-- The files opened so far. -/
  files : List OpenFile
  deriving DecidableEq

/-- The position a seek starts from. -/
inductive Whence where
  | seekSet
  | seekCur
  | seekEnd
  | seekData
  | seekHole
  deriving DecidableEq

/-- The operations behind the probed functions. -/
inductive VfsOp where
  /-- Opens an existing object. -/
  | openFile (dentry : Dentry) (flags : UInt32)
  /-- Writes through an open file. -/
  | write (fd : ℕ) (data : List UInt8)
  /-- Moves the position of an open file. -/
  | llseek (fd : ℕ) (offset : ℤ) (whence : Whence)
  /-- Removes a name of a file. -/
  | unlink (dentry : Dentry)
  /-- Creates a file. -/
  | create (dentry : Dentry)
  /-- Creates a directory. -/
  | mkdir (dentry : Dentry)
  /-- Removes a directory. -/
  | rmdir (dentry : Dentry)
  /-- Renames an object, over what has the new name. -/
  | rename (oldDentry newDentry : Dentry)
  /-- Gives a file another name. -/
  | link (oldDentry newDentry : Dentry)
  /-- Creates a symbolic link. -/
  | symlink (dentry : Dentry) (target : List UInt8)
  deriving DecidableEq

/-! ### The tree -/

/-- The inode number at a path. -/
def lookupTree (tree : List (Dentry × ℕ)) (dentry : Dentry) : Option ℕ :=
  (tree.find? fun e => e.1 == dentry).map Prod.snd

/-- The names without those at and below a path. -/
def pruneTree (tree : List (Dentry × ℕ)) (dentry : Dentry) : List (Dentry × ℕ) :=
  tree.filter fun e => ¬dentry <+: e.1

/-- A path, with `oldDentry` at its start replaced by `newDentry`. -/
def movePath (oldDentry newDentry path : Dentry) : Dentry :=
  if oldDentry <+: path then newDentry ++ path.drop oldDentry.length else path

/-- The names after a renaming: what was at the new path is gone, and what was at and below the
old path is at and below the new one. -/
def renameTree (tree : List (Dentry × ℕ)) (oldDentry newDentry : Dentry) : List (Dentry × ℕ) :=
  (pruneTree tree newDentry).map fun e => (movePath oldDentry newDentry e.1, e.2)

/-- The dentry of an open file when what is at a path leaves the tree. -/
def OpenFile.detach (dentry : Dentry) (f : OpenFile) : OpenFile :=
  if dentry <+: f.base then
    { f with
      base := dentry.dropLast
      removed := f.base.drop (dentry.length - 1) ++ f.removed }
  else f

/-- The dentry of an open file when a path is renamed. -/
def OpenFile.move (oldDentry newDentry : Dentry) (f : OpenFile) : OpenFile :=
  { f with base := movePath oldDentry newDentry f.base }

namespace FileSystem

/-- The inode number at a path. -/
def lookup (fs : FileSystem) (dentry : Dentry) : Option ℕ :=
  lookupTree fs.tree dentry

/-- The object at a path. -/
def node (fs : FileSystem) (dentry : Dentry) : Option Inode := do
  fs.inodes[← fs.lookup dentry]?

/-- A directory with no name in it. -/
def isEmpty (fs : FileSystem) (dentry : Dentry) : Bool :=
  fs.tree.all fun e => ¬(dentry <+: e.1 ∧ dentry ≠ e.1)

/-- The checks on a path where something is created. -/
def checkNew (fs : FileSystem) (dentry : Dentry) : ℤ :=
  if (fs.lookup dentry).isSome then -EEXIST
  else
    match fs.node dentry.dParent with
    | none => -ENOENT
    | some .dir => 0
    | some _ => -ENOTDIR

/-- The checks on a renaming: an object is not moved below itself, and only an object of its own
kind, if a directory an empty one, is replaced. -/
def checkRename (fs : FileSystem) (oldDentry newDentry : Dentry) : ℤ :=
  match fs.node oldDentry with
  | none => -ENOENT
  | some inode =>
    if oldDentry = [] then -EBUSY
    -- two names of one inode: the call succeeds and does nothing
    else if fs.lookup oldDentry = fs.lookup newDentry then 0
    else if oldDentry <+: newDentry then -EINVAL
    else
      match fs.node newDentry with
      | none => fs.checkNew newDentry
      | some .dir =>
        if inode ≠ .dir then -EISDIR
        else if fs.isEmpty newDentry then 0
        else -ENOTEMPTY
      | some _ => if inode = .dir then -ENOTDIR else 0

/-- The kernel's own checks before an operation that a hook mediates. -/
def check (fs : FileSystem) : VfsOp → ℤ
  | .openFile dentry flags =>
    match fs.node dentry with
    | none => -ENOENT
    | some (.file _) => 0
    | some .dir =>
      -- a directory is opened for reading only
      if (flags + 1) &&& 2 ≠ 0 ∨ flags &&& oCreat ≠ 0 ∨ flags &&& oTrunc ≠ 0 then -EISDIR else 0
    | some (.symlink _) => -ELOOP
  | .unlink dentry =>
    match fs.node dentry with
    | none => -ENOENT
    | some .dir => -EISDIR
    | some _ => 0
  | .create dentry | .mkdir dentry | .symlink dentry _ => fs.checkNew dentry
  | .rmdir dentry =>
    match fs.node dentry with
    | none => -ENOENT
    | some .dir =>
      if dentry = [] then -EBUSY else if fs.isEmpty dentry then 0 else -ENOTEMPTY
    | some _ => -ENOTDIR
  | .rename oldDentry newDentry => fs.checkRename oldDentry newDentry
  | .link oldDentry newDentry =>
    match fs.node oldDentry with
    | none => -ENOENT
    | some .dir => -EPERM
    | some _ => fs.checkNew newDentry
  | .write _ _ | .llseek _ _ _ => 0

/-- What an operation that a hook mediates does once it is admitted. -/
def effect (fs : FileSystem) : VfsOp → FileSystem
  | .openFile dentry flags =>
    match fs.lookup dentry with
    | none => fs
    | some ino =>
      { fs with
        inodes := if flags &&& oTrunc ≠ 0 then fs.inodes.set ino (.file []) else fs.inodes
        files := fs.files ++ [⟨dentry, [], ino, flags, 0⟩] }
  -- the inode stays: it may have other names, or be open
  | .unlink dentry | .rmdir dentry =>
    { fs with
      tree := pruneTree fs.tree dentry
      files := fs.files.map (OpenFile.detach dentry) }
  | .create dentry =>
    { fs with
      tree := (dentry, fs.inodes.length) :: fs.tree
      inodes := fs.inodes ++ [.file []] }
  | .mkdir dentry =>
    { fs with
      tree := (dentry, fs.inodes.length) :: fs.tree
      inodes := fs.inodes ++ [.dir] }
  | .symlink dentry target =>
    { fs with
      tree := (dentry, fs.inodes.length) :: fs.tree
      inodes := fs.inodes ++ [.symlink target] }
  | .rename oldDentry newDentry =>
    -- two names of one inode are left as they are
    if fs.lookup oldDentry = fs.lookup newDentry then fs
    else
      { fs with
        tree := renameTree fs.tree oldDentry newDentry
        files := fs.files.map fun f => (f.detach newDentry).move oldDentry newDentry }
  | .link oldDentry newDentry =>
    match fs.lookup oldDentry with
    | none => fs
    | some ino => { fs with tree := (newDentry, ino) :: fs.tree }
  | .write _ _ | .llseek _ _ _ => fs

/-- The contents of a file after data is stored at a position. What lies between the old end and
the position reads as zeros. -/
def storeAt (contents : List UInt8) (pos : ℕ) (data : List UInt8) : List UInt8 :=
  contents.take pos ++ List.replicate (pos - contents.length) 0 ++ data ++
    contents.drop (pos + data.length)

/-- The body of `vfs_write`: the bytes are stored at the position, or at the end of a file opened
with `O_APPEND`, and the position moves behind them. -/
def vfsWrite (fs : FileSystem) (fd : ℕ) (data : List UInt8) : ℤ × FileSystem :=
  match fs.files[fd]? with
  | none => (-EBADF, fs)
  | some f =>
    if !f.writable then (-EBADF, fs)
    else if data = [] then (0, fs)
    else
      match fs.inodes[f.ino]? with
      | some (.file contents) =>
        let pos := if f.flags &&& oAppend ≠ 0 then contents.length else f.pos
        (data.length, { fs with
          inodes := fs.inodes.set f.ino (.file (storeAt contents pos data))
          files := fs.files.set fd { f with pos := pos + data.length } })
      | _ => (-EINVAL, fs)

/-- The length of an inode's contents. -/
def inodeSize : Option Inode → ℕ
  | some (.file contents) => contents.length
  | _ => 0

/-- The position that a seek asks for. `SEEK_DATA` and `SEEK_HOLE` start within the contents. -/
def seekTarget (size pos : ℕ) (offset : ℤ) : Whence → Option ℤ
  | .seekSet => some offset
  | .seekCur => some (pos + offset)
  | .seekEnd => some (size + offset)
  | .seekData => if 0 ≤ offset ∧ offset < size then some offset else none
  | .seekHole => if 0 ≤ offset ∧ offset < size then some size else none

/-- The body of `vfs_llseek`: the position moves, unless it would be negative or too large. -/
def vfsLlseek (fs : FileSystem) (fd : ℕ) (offset : ℤ) (whence : Whence) : ℤ × FileSystem :=
  match fs.files[fd]? with
  | none => (-EBADF, fs)
  | some f =>
    match seekTarget (inodeSize fs.inodes[f.ino]?) f.pos offset whence with
    | none => (- ENXIO, fs)
    | some target =>
      if 0 ≤ target ∧ target < 2 ^ 63 then
        (target, { fs with files := fs.files.set fd { f with pos := target.toNat } })
      else (-EINVAL, fs)

/-- What an operation returns and does when no hook denies it. -/
def perform (fs : FileSystem) : VfsOp → ℤ × FileSystem
  | .write fd data => fs.vfsWrite fd data
  | .llseek fd offset whence => fs.vfsLlseek fd offset whence
  | op => if fs.check op = 0 then (0, fs.effect op) else (fs.check op, fs)

end FileSystem

/-- The call of a probed function that an operation makes, or `none` when it names no open
file. -/
def VfsOp.call (fs : FileSystem) : VfsOp → Option ProbedCall
  | .openFile dentry flags => some (.securityFileOpen ⟨dentry, flags⟩)
  | .write fd _ => fs.files[fd]?.map fun f => .vfsWrite ⟨f.dentry, f.flags⟩
  | .llseek fd _ _ => fs.files[fd]?.map fun f => .vfsLlseek ⟨f.dentry, f.flags⟩
  | .unlink dentry => some (.securityInodeUnlink dentry)
  | .create dentry => some (.securityInodeCreate dentry)
  | .mkdir dentry => some (.securityInodeMkdir dentry)
  | .rmdir dentry => some (.securityInodeRmdir dentry)
  | .rename oldDentry newDentry => some (.securityInodeRename oldDentry newDentry)
  | .link oldDentry newDentry => some (.securityInodeLink oldDentry newDentry)
  | .symlink dentry _ => some (.securityInodeSymlink dentry)

/-! ### What a write and a seek do -/

section Bodies

variable {fs : FileSystem} {fd : ℕ}

/-- A write does nothing, or it stores its data and moves the position. -/
theorem vfsWrite_cases (data : List UInt8) :
    (fs.vfsWrite fd data).2 = fs ∨
      ∃ f contents pos, fs.files[fd]? = some f ∧ f.writable = true ∧ data ≠ [] ∧
        fs.inodes[f.ino]? = some (.file contents) ∧
        (fs.vfsWrite fd data).2 = { fs with
          inodes := fs.inodes.set f.ino (.file (FileSystem.storeAt contents pos data))
          files := fs.files.set fd { f with pos := pos + data.length } } := by
  cases hf : fs.files[fd]? with
  | none => exact Or.inl (by simp [FileSystem.vfsWrite, hf])
  | some f =>
    by_cases hw : f.writable = true
    · by_cases hdata : data = []
      · exact Or.inl (by simp [FileSystem.vfsWrite, hf, hw, hdata])
      · cases hino : fs.inodes[f.ino]? with
        | none => exact Or.inl (by simp [FileSystem.vfsWrite, hf, hino, hw, hdata])
        | some inode =>
          cases inode with
          | file contents =>
            refine Or.inr ⟨f, contents, if f.flags &&& oAppend ≠ 0 then contents.length else f.pos,
              rfl, hw, hdata, hino, ?_⟩
            simp only [FileSystem.vfsWrite, hf, hw, hdata, hino, Bool.not_true, Bool.false_eq_true,
              if_false]
          | dir => exact Or.inl (by simp [FileSystem.vfsWrite, hf, hino, hw, hdata])
          | symlink target => exact Or.inl (by simp [FileSystem.vfsWrite, hf, hino, hw, hdata])
    · exact Or.inl (by simp [FileSystem.vfsWrite, hf, hw])

/-- A seek does nothing, or it moves the position to a valid target. -/
theorem vfsLlseek_cases (offset : ℤ) (whence : Whence) :
    (fs.vfsLlseek fd offset whence).2 = fs ∨
      ∃ f target, fs.files[fd]? = some f ∧
        FileSystem.seekTarget (FileSystem.inodeSize fs.inodes[f.ino]?) f.pos offset whence =
          some target ∧ 0 ≤ target ∧ target < 2 ^ 63 ∧
        (fs.vfsLlseek fd offset whence).2 =
          { fs with files := fs.files.set fd { f with pos := target.toNat } } := by
  cases hf : fs.files[fd]? with
  | none => exact Or.inl (by simp [FileSystem.vfsLlseek, hf])
  | some f =>
    cases htarget : FileSystem.seekTarget (FileSystem.inodeSize fs.inodes[f.ino]?) f.pos offset
      whence with
    | none => exact Or.inl (by simp [FileSystem.vfsLlseek, hf, htarget])
    | some target =>
      by_cases hvalid : 0 ≤ target ∧ target < 2 ^ 63
      · refine Or.inr ⟨f, target, rfl, htarget, hvalid.1, hvalid.2, ?_⟩
        simp only [FileSystem.vfsLlseek, hf, htarget, if_pos hvalid]
      · exact Or.inl (by simp only [FileSystem.vfsLlseek, hf, htarget, if_neg hvalid])

end Bodies

end StackReferenceMonitor
