import StackReferenceMonitor.Probes.Messages
import StackReferenceMonitor.Vfs.Denial

/-!
# Tasks that only read

A task opens files without any of the flags that `open_entry_handler` looks for, and reads and seeks
through them, while other tasks change the file system and the monitor. Its opens are not looked up,
and there is no probe on `vfs_read`. But the handler of `vfs_llseek` looks the path up whatever the
file was opened for: a reader of a protected file cannot seek in it.

## Main definitions

* `ReaderState`, `ReaderAction`: runs of such a task and its surroundings.
* `ReaderAction.result`: what a call of the task returns.

## Main results

* `isBlacklisted_path_iff`: the verdict on a path, whether or not it can be computed;
* `reader_served_iff`: no call of a run returns `-EACCES`, if and only if no seek of it is made
  while the path is protected.
-/

namespace StackReferenceMonitor

/-! ### The task and its surroundings -/

/-- A monitor that system calls lead to. -/
abbrev ReachableMonitor := { rf : ReferenceMonitor // rf.Reachable }

/-- Flags with none of `O_WRONLY`, `O_RDWR`, `O_CREAT`, `O_APPEND` and `O_TRUNC`. -/
abbrev ReadFlags := { flags : UInt32 // writeFlags flags = false }

/-- `FMODE_READ`, as `OPEN_FMODE` computes it from the flags. -/
def OpenFile.readable (f : OpenFile) : Bool :=
  (f.flags + 1) &&& 1 ≠ 0

/-- `vfs_read`: how many bytes are read, and the file system with the position moved. No probe is
set on it. -/
def FileSystem.vfsRead (fs : FileSystem) (fd count : ℕ) : ℤ × FileSystem :=
  match fs.files[fd]? with
  | none => (-EBADF, fs)
  | some f =>
    if !f.readable then (-EBADF, fs)
    else
      match fs.inodes[f.ino]? with
      | some (.file contents) =>
        let n := min count (contents.length - f.pos)
        (n, { fs with files := fs.files.set fd { f with pos := f.pos + n } })
      | _ => (-EISDIR, fs)

/-- A task that reads, with what is around it. -/
structure ReaderState where
  /-- The monitor. -/
  rf : ReachableMonitor
  /-- The file system. -/
  fs : FileSystem
  /-- The file that the task has open. -/
  fd : Option ℕ

/-- What happens in a run. -/
inductive ReaderAction where
  /-- System calls of others change the state and the list. -/
  | reconfigure (rf : ReachableMonitor)
  /-- Another task performs an operation. -/
  | other (op : VfsOp)
  /-- The task opens a file. -/
  | openFile (env : HandlerEnv) (dentry : Dentry) (flags : ReadFlags)
  /-- The task reads. -/
  | read (count : ℕ)
  /-- The task seeks. -/
  | llseek (env : HandlerEnv) (offset : ℤ) (whence : Whence)

namespace ReaderAction

/-- The call of the task: what it returns, and the file system after it. It is `none` if the action
is not one of the task, or the call does not return. -/
def call (s : ReaderState) : ReaderAction → Option (ℤ × FileSystem)
  | reconfigure _ => none
  | other _ => none
  | openFile env dentry flags => (VfsOp.openFile dentry flags).mediate s.rf env 0 s.fs
  | read count => s.fd.map fun fd => s.fs.vfsRead fd count
  | llseek env offset whence =>
    s.fd.bind fun fd => (VfsOp.llseek fd offset whence).mediate s.rf env 0 s.fs

/-- What the call returns. -/
def result (s : ReaderState) (a : ReaderAction) : Option ℤ :=
  (a.call s).map Prod.fst

end ReaderAction

/-- One action. An open that succeeds gives the task its file. -/
def ReaderState.step (s : ReaderState) (a : ReaderAction) : ReaderState :=
  match a with
  | .reconfigure rf => { s with rf }
  | .other op => { s with fs := (s.fs.perform op).2 }
  | .openFile _ _ _ =>
    match a.call s with
    | none => s
    | some (ret, fs) => { s with fs, fd := if ret = 0 then some s.fs.files.length else s.fd }
  | .read _ | .llseek _ _ _ =>
    match a.call s with
    | none => s
    | some (_, fs) => { s with fs }

/-- Before the task has opened a file. -/
def ReaderState.init (rf : ReachableMonitor) (fs : FileSystem) : ReaderState :=
  ⟨rf, fs, none⟩

/-- The file that the task has open. -/
def ReaderState.file (s : ReaderState) : Option OpenFile :=
  s.fd.bind fun fd => s.fs.files[fd]?

/-! ### The condition -/

/-- The monitor enforces, and an entry covers the string that is computed for the path. When none is
computed, what counts is that the first entry is empty. -/
def Stopped (rf : ReferenceMonitor) (p : PathCall) : Prop :=
  rf.Enforcing ∧
    (p.Returns ∧ rf.blacklist.CoversString p.string ∨
      ¬p.Returns ∧ ∃ x xs, rf.blacklist.Lists (x :: xs) ∧ x.2.bytes = [])

/-- The action is not a seek in a file whose path is stopped. -/
def ReaderAction.Clear (s : ReaderState) : ReaderAction → Prop
  | llseek env _ _ => ∀ f, s.file = some f → ¬Stopped s.rf ⟨env.first, f.dentry⟩
  | _ => True

/-! ### The verdict on a path -/

/-- In a state that enforces, `NULL` is stopped by an empty entry at the head of the list. -/
theorem isBlacklisted_null_iff {rf : ReferenceMonitor} (hrf : rf.Enforcing)
    {xs : List (ℕ × CStr)} (hxs : rf.blacklist.Counted xs) :
    isBlacklisted rf none = some 1 ↔
      ∃ x xs, rf.blacklist.Lists (x :: xs) ∧ x.2.bytes = [] := by
  cases xs with
  | nil =>
    have hhead : rf.blacklist.head = none := hxs.lists
    refine iff_of_false ?_ ?_
    · simp [isBlacklisted, walk, lookupScan, hhead]
    · rintro ⟨x, xs, hlists, -⟩
      exact absurd (hlists.unique hxs.lists) (by simp)
  | cons x xs =>
    rw [isBlacklisted_eq_walk hrf hxs (by simp), walk_null hxs.lists]
    constructor
    · intro h
      split_ifs at h with hempty
      exact ⟨x, xs, hxs.lists, hempty⟩
    · rintro ⟨y, ys, hlists, hempty⟩
      obtain ⟨rfl, -⟩ := List.cons.inj (hlists.unique hxs.lists)
      rw [if_pos hempty]

/-- The verdict on the path of a dentry, whether or not it can be computed. -/
theorem isBlacklisted_path_iff (rf : ReachableMonitor) (p : PathCall) :
    isBlacklisted rf.1 p.path = some 1 ↔ Stopped rf.1 p := by
  have hbl := rf.2.blacklist
  by_cases hrf : rf.1.Enforcing
  · by_cases hreturns : p.Returns
    · obtain ⟨mem, hmem, hchars⟩ := hreturns.path
      rw [hmem, (isBlacklisted_of_reachable hrf hbl mem).1, hchars]
      simp [Stopped, hrf, hreturns, Blacklist.CoversString]
    · obtain ⟨xs, hxs⟩ := hbl.counted
      rw [PathCall.path_eq_none hreturns, isBlacklisted_null_iff hrf hxs]
      simp [Stopped, hrf, hreturns]
  · rw [isBlacklisted_of_not_enforcing rf.2 hrf]
    exact iff_of_false (by simp) fun h => hrf h.1

/-! ### What a call returns -/

section Results

variable (s : ReaderState) (env : HandlerEnv)

/-- A seek does not fail with `-EACCES` by itself. -/
theorem vfsLlseek_ne_eacces (fs : FileSystem) (fd : ℕ) (offset : ℤ) (whence : Whence) :
    (fs.vfsLlseek fd offset whence).1 ≠ -EACCES := by
  have hneg : -EACCES < 0 := by decide
  unfold FileSystem.vfsLlseek
  split
  · exact (by decide : -EBADF ≠ -EACCES)
  · split
    · exact (by decide : - ENXIO ≠ -EACCES)
    · split_ifs with htarget
      · dsimp only
        omega
      · exact (by decide : -EINVAL ≠ -EACCES)

/-- Nor does an open. -/
theorem perform_openFile_ne_eacces (fs : FileSystem) (dentry : Dentry) (flags : UInt32) :
    (fs.perform (.openFile dentry flags)).1 ≠ -EACCES := by
  have hcheck : fs.check (.openFile dentry flags) ≠ -EACCES := by
    simp only [FileSystem.check]
    split
    · decide
    · decide
    · split_ifs <;> decide
    · decide
  simp only [FileSystem.perform]
  split_ifs
  · exact (by decide : (0 : ℤ) ≠ -EACCES)
  · exact hcheck

/-- Nor does a read. -/
theorem vfsRead_ne_eacces (fs : FileSystem) (fd count : ℕ) :
    (fs.vfsRead fd count).1 ≠ -EACCES := by
  have hneg : -EACCES < 0 := by decide
  unfold FileSystem.vfsRead
  split
  · exact (by decide : -EBADF ≠ -EACCES)
  · split_ifs
    · exact (by decide : -EBADF ≠ -EACCES)
    · split
      · dsimp only
        omega
      · exact (by decide : -EISDIR ≠ -EACCES)

/-- An open for reading is let through. -/
theorem result_openFile_ne (dentry : Dentry) (flags : ReadFlags) :
    (ReaderAction.openFile env dentry flags).result s ≠ some (-EACCES) := by
  have hlet : (ProbedCall.securityFileOpen ⟨dentry, flags⟩).entryHandler s.rf.1 env =
      some (1, none) := entryHandler_of_not_mediated flags.2
  have hcall : (ReaderAction.openFile env dentry flags).call s =
      some (s.fs.perform (.openFile dentry flags)) := mediate_of_allowed rfl hlet (by decide)
  rw [ReaderAction.result, hcall, Option.map_some]
  exact fun h => perform_openFile_ne_eacces _ _ _ (Option.some.inj h)

/-- No probe is on the way of a read. -/
theorem result_read_ne (count : ℕ) : (ReaderAction.read count).result s ≠ some (-EACCES) := by
  rw [ReaderAction.result, ReaderAction.call]
  cases s.fd with
  | none => simp
  | some fd => exact fun h => vfsRead_ne_eacces _ _ _ (Option.some.inj h)

/-- A seek returns `-EACCES` exactly when the path of the file is stopped. -/
theorem result_llseek_eq_iff (offset : ℤ) (whence : Whence) :
    (ReaderAction.llseek env offset whence).result s = some (-EACCES) ↔
      ∃ f, s.file = some f ∧ Stopped s.rf ⟨env.first, f.dentry⟩ := by
  rw [ReaderAction.result, ReaderAction.call, ReaderState.file]
  cases s.fd with
  | none => simp
  | some fd =>
    simp only [Option.bind_some]
    cases hf : s.fs.files[fd]? with
    | none => simp [VfsOp.mediate, VfsOp.call, hf]
    | some f =>
      have hcall : (VfsOp.llseek fd offset whence).call s.fs =
          some (.vfsLlseek ⟨f.dentry, f.flags⟩) := by
        rw [VfsOp.call, hf, Option.map_some]
      have hdeny : (∃ data, (ProbedCall.vfsLlseek ⟨f.dentry, f.flags⟩).entryHandler s.rf.1 env =
          some (0, data)) ↔ Stopped s.rf.1 ⟨env.first, f.dentry⟩ :=
        (entryHandler_eq_zero_iff rfl rfl).trans (isBlacklisted_path_iff s.rf ⟨env.first, f.dentry⟩)
      simp only [Option.some.injEq, exists_eq_left', ← hdeny]
      constructor
      · intro h
        cases hentry : (ProbedCall.vfsLlseek ⟨f.dentry, f.flags⟩).entryHandler s.rf.1 env with
        | none =>
          have hfault : ((ProbedCall.vfsLlseek ⟨f.dentry, f.flags⟩).function.kretprobe s.rf.1
              env).entryHandler (ProbedCall.vfsLlseek ⟨f.dentry, f.flags⟩).regs = none := hentry
          simp [VfsOp.mediate, hcall, Kretprobe.call, hfault] at h
        | some verdict =>
          obtain ⟨ret, data⟩ := verdict
          by_cases hret : ret = 0
          · subst hret
            exact ⟨data, rfl⟩
          · rw [mediate_of_allowed hcall hentry hret, Option.map_some] at h
            exact absurd (Option.some.inj h) (vfsLlseek_ne_eacces _ _ _ _)
      · rintro ⟨data, hentry⟩
        rw [mediate_of_denied hcall hentry, Option.map_some]

/-- A call of the task returns `-EACCES` exactly when it is not clear. -/
theorem result_ne_eacces_iff (a : ReaderAction) : a.result s ≠ some (-EACCES) ↔ a.Clear s := by
  cases a with
  | reconfigure rf => exact iff_of_true (by simp [ReaderAction.result, ReaderAction.call]) trivial
  | other op => exact iff_of_true (by simp [ReaderAction.result, ReaderAction.call]) trivial
  | openFile env dentry flags => exact iff_of_true (result_openFile_ne s env dentry flags) trivial
  | read count => exact iff_of_true (result_read_ne s count) trivial
  | llseek env offset whence =>
    rw [ne_eq, result_llseek_eq_iff, ReaderAction.Clear]
    simp only [not_exists, not_and]

end Results

/-- From any reachable monitor and any file system, along every run of a task that opens files
without write flags, reads and seeks, while the monitor and the file system change: no call of the
task returns `-EACCES`, if and only if no seek of it comes while the path of its file is stopped. -/
theorem reader_served_iff (rf : ReachableMonitor) (fs : FileSystem) (as : List ReaderAction) :
    Run.EachStep ReaderState.step (fun s a => a.result s ≠ some (-EACCES)) (.init rf fs) as ↔
      Run.EachStep ReaderState.step (fun s a => a.Clear s) (.init rf fs) as := by
  constructor
  · intro h
    exact h.mono fun s a => (result_ne_eacces_iff s a).mp
  · intro h
    exact h.mono fun s a => (result_ne_eacces_iff s a).mpr

/-- In REC_ON with `/a` on the list, a task opens `/a` for reading and reads, and its seek to the
beginning returns `-EACCES`. -/
theorem reader_seek_denied :
    ¬Run.EachStep ReaderState.step (fun s a => a.result s ≠ some (-EACCES))
      (.init ⟨sampleMonitor, sampleMonitor_reachable⟩ openA)
      [.openFile strayEnv [nameA] ⟨0, by decide⟩, .read 1, .llseek strayEnv 0 .seekSet] := by
  intro h
  have hseek := h [.openFile strayEnv [nameA] ⟨0, by decide⟩, .read 1]
    (.llseek strayEnv 0 .seekSet) (List.prefix_refl _)
  revert hseek
  decide +kernel

end StackReferenceMonitor
