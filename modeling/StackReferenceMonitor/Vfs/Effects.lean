import StackReferenceMonitor.Vfs.Tree

/-!
# What an operation can do to the tree

`perform_effect` says once, for all operations, what each can do to the names and to the inodes.
Everything about runs of operations is derived from it.

## Main definitions

* `VfsOp.operands`: the paths of an operation that its handler looks at.
* `VfsOp.Reaches`: the inode whose contents an operation overwrites.
* `TreeEffect`: the kinds of changes.

## Main results

* `perform_effect`: every operation has one of them.
-/

namespace StackReferenceMonitor

/-- The dentries of the call that an operation makes. -/
def VfsOp.operands (fs : FileSystem) (op : VfsOp) : List Dentry :=
  match op.call fs with
  | none => []
  | some call => call.operands

/-- The operation overwrites the contents of the inode: it is a write of at least one byte through
a file that is open for writing, or an `open` that truncates. -/
def VfsOp.Reaches (fs : FileSystem) (ino : ℕ) : VfsOp → Prop
  | .write fd data => ∃ f, fs.files[fd]? = some f ∧ f.writable = true ∧ data ≠ [] ∧ f.ino = ino
  | .openFile dentry flags => flags &&& oTrunc ≠ 0 ∧ fs.lookup dentry = some ino
  | _ => False

/-- The path may be removed, or replaced by another object: there is nothing below it. -/
def FileSystem.Leaf (fs : FileSystem) (dentry : Dentry) : Prop :=
  fs.node dentry ≠ some .dir ∨ fs.isEmpty dentry = true

/-- What an operation can do to the names and the inodes. -/
inductive TreeEffect (fs : FileSystem) (op : VfsOp) : FileSystem → Prop
  /-- Nothing; open files may change. -/
  | kept {fs' : FileSystem} (htree : fs'.tree = fs.tree) (hinodes : fs'.inodes = fs.inodes) :
      TreeEffect fs op fs'
  /-- The contents of a file are overwritten. -/
  | stored {fs' : FileSystem} (ino : ℕ) (old new : List UInt8) (hreach : op.Reaches fs ino)
      (hold : fs.inodes[ino]? = some (.file old)) (htree : fs'.tree = fs.tree)
      (hinodes : fs'.inodes = fs.inodes.set ino (.file new)) : TreeEffect fs op fs'
  /-- A path gets a name that it did not have, for a new or an existing inode. -/
  | named {fs' : FileSystem} (dentry : Dentry) (hop : dentry ∈ op.operands fs)
      (hfree : fs.lookup dentry = none)
      (htree : ∀ q, q ≠ dentry → fs'.lookup q = fs.lookup q)
      (hinodes : fs.inodes <+: fs'.inodes) : TreeEffect fs op fs'
  /-- A path with nothing below it loses its name. -/
  | removed {fs' : FileSystem} (dentry : Dentry) (hop : dentry ∈ op.operands fs)
      (hleaf : fs.Leaf dentry) (htree : ∀ q, ¬dentry <+: q → fs'.lookup q = fs.lookup q)
      (hinodes : fs'.inodes = fs.inodes) : TreeEffect fs op fs'
  /-- What is at and below a path is renamed, over something with nothing below it. -/
  | moved {fs' : FileSystem} (oldDentry newDentry : Dentry)
      (hop : op = .rename oldDentry newDentry)
      (hdiff : fs.lookup oldDentry ≠ fs.lookup newDentry) (hleaf : fs.Leaf newDentry)
      (htree : ∀ q, ¬oldDentry <+: q → ¬newDentry <+: q → fs'.lookup q = fs.lookup q)
      (hinodes : fs'.inodes = fs.inodes) : TreeEffect fs op fs'

section Effects

variable {fs : FileSystem} {dentry : Dentry}

/-- The checks on a path where something is created find it free. -/
theorem lookup_of_checkNew (h : fs.checkNew dentry = 0) : fs.lookup dentry = none := by
  unfold FileSystem.checkNew at h
  split at h
  · exact absurd h (by decide)
  case isFalse hfree => simpa using hfree

/-- A creation, of a name for the inode number `ino`. -/
theorem named_effect {op : VfsOp} {ino : ℕ} {inodes : List Inode} (hop : dentry ∈ op.operands fs)
    (hcheck : fs.checkNew dentry = 0) (hinodes : fs.inodes <+: inodes) :
    TreeEffect fs op { fs with tree := (dentry, ino) :: fs.tree, inodes } := by
  refine .named dentry hop (lookup_of_checkNew hcheck) (fun q hq => ?_) hinodes
  show lookupTree _ q = lookupTree _ q
  rw [lookupTree_cons, if_neg (Ne.symm hq)]

/-- A removal. -/
theorem removed_effect {op : VfsOp} {files : List OpenFile} (hop : dentry ∈ op.operands fs)
    (hleaf : fs.Leaf dentry) :
    TreeEffect fs op { fs with tree := pruneTree fs.tree dentry, files } := by
  refine .removed dentry hop hleaf (fun q hq => ?_) rfl
  show lookupTree _ q = lookupTree _ q
  rw [lookupTree_pruneTree, if_neg hq]

/-- What a renaming may replace has nothing below it. -/
theorem leaf_of_checkRename {oldDentry newDentry : Dentry}
    (hcheck : fs.checkRename oldDentry newDentry = 0)
    (hdiff : fs.lookup oldDentry ≠ fs.lookup newDentry) : fs.Leaf newDentry := by
  by_contra hleaf
  simp only [FileSystem.Leaf, not_or, not_not, Bool.not_eq_true] at hleaf
  obtain ⟨hdir, hempty⟩ := hleaf
  -- a directory that is not empty is not replaced, whatever the other object is
  unfold FileSystem.checkRename at hcheck
  cases hold : fs.node oldDentry with
  | none => simp [hold, ENOENT] at hcheck
  | some inode =>
    simp only [hold, hdiff, hdir, hempty, if_false, Bool.false_eq_true] at hcheck
    split_ifs at hcheck <;> simp [EBUSY, EINVAL, EISDIR, ENOTEMPTY] at hcheck

/-- What an `open` may truncate is a file. -/
theorem file_of_check_openFile {flags : UInt32} (hcheck : fs.check (.openFile dentry flags) = 0)
    (htrunc : flags &&& oTrunc ≠ 0) : ∃ contents, fs.node dentry = some (.file contents) := by
  simp only [FileSystem.check] at hcheck
  cases hnode : fs.node dentry with
  | none => simp [hnode, ENOENT] at hcheck
  | some inode =>
    cases inode with
    | file contents => exact ⟨contents, rfl⟩
    | dir => simp [hnode, htrunc, EISDIR] at hcheck
    | symlink target => simp [hnode, ELOOP] at hcheck

/-- The effect of an operation that a hook mediates, once it is admitted. -/
theorem effect_effect {op : VfsOp} (hcheck : fs.check op = 0) :
    TreeEffect fs op (fs.effect op) := by
  cases op with
  | openFile dentry flags =>
    cases hlookup : fs.lookup dentry with
    | none =>
      exact .kept (by simp [FileSystem.effect, hlookup]) (by simp [FileSystem.effect, hlookup])
    | some ino =>
      by_cases htrunc : flags &&& oTrunc = 0
      · exact .kept (by simp [FileSystem.effect, hlookup])
          (by simp [FileSystem.effect, hlookup, htrunc])
      · -- the file is emptied
        obtain ⟨contents, hnode⟩ := file_of_check_openFile hcheck htrunc
        have hold : fs.inodes[ino]? = some (.file contents) := by
          simpa [FileSystem.node, hlookup] using hnode
        exact .stored ino contents [] ⟨htrunc, hlookup⟩ hold (by simp [FileSystem.effect, hlookup])
          (by simp [FileSystem.effect, hlookup, htrunc])
  | write fd data => exact .kept rfl rfl
  | llseek fd offset whence => exact .kept rfl rfl
  | unlink dentry =>
    refine removed_effect (by simp [VfsOp.operands, VfsOp.call, ProbedCall.operands]) (Or.inl ?_)
    intro hdir
    simp [FileSystem.check, hdir, EISDIR] at hcheck
  | create dentry =>
    exact named_effect (by simp [VfsOp.operands, VfsOp.call, ProbedCall.operands]) hcheck
      (List.prefix_append _ _)
  | mkdir dentry =>
    exact named_effect (by simp [VfsOp.operands, VfsOp.call, ProbedCall.operands]) hcheck
      (List.prefix_append _ _)
  | rmdir dentry =>
    refine removed_effect (by simp [VfsOp.operands, VfsOp.call, ProbedCall.operands]) ?_
    -- a directory with something in it is refused
    by_contra hleaf
    simp only [FileSystem.Leaf, not_or, not_not, Bool.not_eq_true] at hleaf
    simp only [FileSystem.check, hleaf.1, hleaf.2, Bool.false_eq_true, if_false] at hcheck
    split_ifs at hcheck <;> simp [EBUSY, ENOTEMPTY] at hcheck
  | rename oldDentry newDentry =>
    by_cases hsame : fs.lookup oldDentry = fs.lookup newDentry
    · -- two names of one inode: nothing is renamed
      exact .kept (by simp [FileSystem.effect, hsame]) (by simp [FileSystem.effect, hsame])
    · refine .moved oldDentry newDentry rfl hsame (leaf_of_checkRename hcheck hsame) ?_ ?_
      · intro q hold hnew
        simp only [FileSystem.effect, if_neg hsame]
        exact lookupTree_renameTree_of_not_prefix hold hnew
      · simp [FileSystem.effect, hsame]
  | link oldDentry newDentry =>
    cases hlookup : fs.lookup oldDentry with
    | none =>
      exact .kept (by simp [FileSystem.effect, hlookup]) (by simp [FileSystem.effect, hlookup])
    | some ino =>
      have hnew : fs.checkNew newDentry = 0 := by
        simp only [FileSystem.check] at hcheck
        split at hcheck
        · simp [ENOENT] at hcheck
        · simp [EPERM] at hcheck
        · exact hcheck
      have hnamed : TreeEffect fs (.link oldDentry newDentry)
          { fs with tree := (newDentry, ino) :: fs.tree, inodes := fs.inodes } :=
        named_effect (by simp [VfsOp.operands, VfsOp.call, ProbedCall.operands]) hnew
          (List.prefix_refl _)
      simpa [FileSystem.effect, hlookup] using hnamed
  | symlink dentry target =>
    exact named_effect (by simp [VfsOp.operands, VfsOp.call, ProbedCall.operands]) hcheck
      (List.prefix_append _ _)

/-- What any operation does to the names and the inodes. -/
theorem perform_effect (fs : FileSystem) (op : VfsOp) : TreeEffect fs op (fs.perform op).2 := by
  have hhooked : ∀ op, TreeEffect fs op
      (if fs.check op = 0 then ((0 : ℤ), fs.effect op) else (fs.check op, fs)).2 := by
    intro op
    split_ifs with hcheck
    · exact effect_effect hcheck
    · exact .kept rfl rfl
  cases op with
  | write fd data =>
    show TreeEffect fs _ (fs.vfsWrite fd data).2
    rcases vfsWrite_cases data with hself | ⟨f, contents, pos, hf, hw, hdata, hino, hstore⟩
    · rw [hself]
      exact .kept rfl rfl
    · rw [hstore]
      exact .stored f.ino contents _ ⟨f, hf, hw, hdata, rfl⟩ hino rfl rfl
  | llseek fd offset whence =>
    show TreeEffect fs _ (fs.vfsLlseek fd offset whence).2
    rcases vfsLlseek_cases offset whence with hself | ⟨f, target, -, -, -, -, hseek⟩
    · rw [hself]
      exact .kept rfl rfl
    · rw [hseek]
      exact .kept rfl rfl
  | _ => exact hhooked _

end Effects

end StackReferenceMonitor
