import StackReferenceMonitor.Vfs.Defs

/-!
# What a denial prevents

A return probe runs its return handler after the probed function has returned. For the `security_*`
hooks this is early enough: the body of a hook only gives a verdict, which `ret_handler` overwrites
with `-EACCES`, and the caller of the hook then goes no further. The bodies of `vfs_write` and
`vfs_llseek` are the operations themselves. When `ret_handler` runs, the bytes are stored and the
position has moved.

## Main definitions

* `VfsOp.mediate`: an operation with the probe on the function it calls.
* `DenialPrevents`: if the entry handler denies the call, the caller sees `-EACCES` and nothing has
  changed.

## Main results

* `denial_prevents_iff`: this is so exactly when the operation is not a write or a seek that takes
  effect, on a path that is blacklisted.
-/

namespace StackReferenceMonitor

open Blacklist (pathA)

/-- The operation is mediated by a hook, whose verdict the kernel obeys. -/
def VfsOp.hooked : VfsOp → Bool
  | .write _ _ | .llseek _ _ _ => false
  | _ => true

/-- The body of the probed function: what it returns, and the file system after it. The other
security modules' verdict is `hook`. -/
def VfsOp.body (op : VfsOp) (hook : ℤ) (fs : FileSystem) : PtRegs × FileSystem :=
  let (ret, fs') := if op.hooked then (hook, fs) else fs.perform op
  (⟨ret, .other, .other, .other, .other⟩, fs')

/-- An operation on a kernel whose probed functions all have their probes armed, from the call of
the probed function on. -/
def VfsOp.mediate (rf : ReferenceMonitor) (env : HandlerEnv) (hook : ℤ) (fs : FileSystem)
    (op : VfsOp) : Option (ℤ × FileSystem) := do
  let call ← op.call fs
  -- the body runs in any case, and `ret_handler` after it
  let (regs, fs') ← (call.function.kretprobe rf env).call call.regs (op.body hook) fs
  if op.hooked ∧ regs.ax = 0 then return fs'.perform op
  else return (regs.ax, fs')

/-- If the entry handler denies the operation, its caller sees `-EACCES`, and the file system is
the same as before. -/
def DenialPrevents (rf : ReferenceMonitor) (env : HandlerEnv) (hook : ℤ) (fs : FileSystem)
    (op : VfsOp) : Prop :=
  ∀ call, op.call fs = some call → ∀ data, call.entryHandler rf env = some (0, data) →
    op.mediate rf env hook fs = some (-EACCES, fs)

/-- The path of an open file is blacklisted. -/
def OpenFile.Blacklisted (rf : ReferenceMonitor) (env : HandlerEnv) (f : OpenFile) : Prop :=
  isBlacklisted rf (getPathFromDentry env.first f.dentry) = some 1

/-- The open file that a write or a seek goes through. -/
def VfsOp.file (fs : FileSystem) : VfsOp → Option OpenFile
  | .write fd _ | .llseek fd _ _ => fs.files[fd]?
  | _ => none

/-- The operation is a write that stores at least one byte, or a seek that moves the position. -/
def VfsOp.TakesEffect (fs : FileSystem) : VfsOp → Prop
  | .write fd data => ∃ f contents, fs.files[fd]? = some f ∧ f.writable = true ∧ data ≠ [] ∧
      fs.inodes[f.ino]? = some (.file contents)
  | .llseek fd offset whence => ∃ f target, fs.files[fd]? = some f ∧
      FileSystem.seekTarget (FileSystem.inodeSize fs.inodes[f.ino]?) f.pos offset whence =
        some target ∧ 0 ≤ target ∧ target < 2 ^ 63 ∧ target ≠ f.pos
  | _ => False

section Denial

variable {rf : ReferenceMonitor} {env : HandlerEnv} {fs : FileSystem} {hook : ℤ}

/-- A handler with one operand denies exactly when the operand's path is blacklisted. -/
theorem entryHandler_eq_zero_iff {call : ProbedCall} (hcall : call.mediated = true)
    {dentry : Dentry} (hop : call.operands = [dentry]) :
    (∃ data, call.entryHandler rf env = some (0, data)) ↔
      isBlacklisted rf (getPathFromDentry env.first dentry) = some 1 := by
  have hverdict : (call.entryHandler rf env).map Prod.fst = some 0 ↔
      isBlacklisted rf (getPathFromDentry env.first dentry) = some 1 := by
    have hpaths : call.paths env = [getPathFromDentry env.first dentry] := by
      rw [ProbedCall.paths, hop]
      rfl
    rw [entryHandler_eq hcall, hpaths]
    cases h : isBlacklisted rf (getPathFromDentry env.first dentry) with
    | none => simp [anyBlacklisted, h]
    | some ret => by_cases hret : ret = 1 <;> simp [anyBlacklisted, h, hret, verdict]
  rw [← hverdict]
  simp

/-- A denied operation: the body has run, and the caller gets `-EACCES` in place of its value. -/
theorem mediate_of_denied {op : VfsOp} {call : ProbedCall} (hcall : op.call fs = some call)
    {data : ProbeData} (hdeny : call.entryHandler rf env = some (0, data)) :
    op.mediate rf env hook fs = some (-EACCES, (op.body hook fs).2) := by
  have hrun : (call.function.kretprobe rf env).call call.regs (op.body hook) fs =
      some (retHandler data (op.body hook fs).1, (op.body hook fs).2) :=
    Kretprobe.call_of_zero hdeny (op.body hook) fs
  have hax : (retHandler data (op.body hook fs).1).ax = -EACCES := rfl
  have hne : -EACCES ≠ 0 := by decide
  simp only [VfsOp.mediate, hcall, hrun, Option.bind_eq_bind, Option.bind_some, hax, hne, and_false,
    if_false, Option.pure_def]

/-- An operation that is let through, with no other module against it, goes as it would without a
probe. -/
theorem mediate_of_allowed {op : VfsOp} {call : ProbedCall} (hcall : op.call fs = some call)
    {ret : ℤ} {data : ProbeData} (hlet : call.entryHandler rf env = some (ret, data))
    (hret : ret ≠ 0) : op.mediate rf env 0 fs = some (fs.perform op) := by
  have hrun : (call.function.kretprobe rf env).call call.regs (op.body 0) fs =
      some (op.body 0 fs) :=
    Kretprobe.call_of_ne_zero hlet hret (op.body 0) fs
  simp only [VfsOp.mediate, hcall, hrun, Option.bind_eq_bind, Option.bind_some, Option.pure_def]
  -- a hook's verdict is obeyed, and the other two bodies are the operation
  by_cases hhooked : op.hooked = true
  · simp [VfsOp.body, hhooked]
  · simp [VfsOp.body, hhooked]

/-- So a denial prevents an operation exactly when its body leaves the file system as it is. -/
theorem denialPrevents_iff_body {op : VfsOp} :
    DenialPrevents rf env hook fs op ↔
      ∀ call, op.call fs = some call → (∃ data, call.entryHandler rf env = some (0, data)) →
        (op.body hook fs).2 = fs := by
  constructor
  · rintro h call hcall ⟨data, hdeny⟩
    have hprev := h call hcall data hdeny
    rw [mediate_of_denied hcall hdeny] at hprev
    simpa using hprev
  · intro h call hcall data hdeny
    rw [mediate_of_denied hcall hdeny, h call hcall ⟨data, hdeny⟩]

/-- Overwriting an element with another one changes a list. -/
private theorem set_eq_self_iff {α : Type} {l : List α} {i : ℕ} {x y : α} (h : l[i]? = some x) :
    l.set i y = l ↔ y = x := by
  obtain ⟨hi, rfl⟩ := List.getElem?_eq_some_iff.mp h
  constructor
  · intro hset
    have hget := List.getElem?_set_self (a := y) hi
    rw [hset, h] at hget
    exact (Option.some.inj hget).symm
  · rintro rfl
    exact List.set_getElem_self hi

/-- A write that stores something moves the position, or it makes the file longer. -/
private theorem vfsWrite_ne_self {fd : ℕ} {data : List UInt8}
    (h : (VfsOp.write fd data).TakesEffect fs) : (fs.vfsWrite fd data).2 ≠ fs := by
  obtain ⟨f, contents, hf, hw, hdata, hino⟩ := h
  have hlen : 0 < data.length := List.length_pos_iff.mpr hdata
  intro hself
  simp only [FileSystem.vfsWrite, hf, hw, hdata, hino, Bool.not_true, Bool.false_eq_true,
    if_false] at hself
  have hcontents := (set_eq_self_iff hino).mp (congrArg FileSystem.inodes hself)
  have hpos := (set_eq_self_iff hf).mp (congrArg FileSystem.files hself)
  by_cases happend : f.flags &&& oAppend = 0
  · -- the position moves by the number of bytes
    have hmoved := congrArg OpenFile.pos hpos
    simp only [happend, ne_eq, not_true_eq_false, if_false] at hmoved
    omega
  · -- the bytes come after the end
    simp only [happend, ne_eq, not_false_eq_true, if_true, Inode.file.injEq] at hcontents
    have hlonger := congrArg List.length hcontents
    simp only [FileSystem.storeAt, List.length_append, List.length_take, List.length_replicate,
      List.length_drop] at hlonger
    omega

/-- A write leaves the file system as it is exactly when it stores nothing. -/
private theorem vfsWrite_eq_self_iff {fd : ℕ} {data : List UInt8} :
    (fs.vfsWrite fd data).2 = fs ↔ ¬(VfsOp.write fd data).TakesEffect fs := by
  refine ⟨fun hself heffect => vfsWrite_ne_self heffect hself, fun hno => ?_⟩
  rcases vfsWrite_cases data with hself | ⟨f, contents, -, hf, hw, hdata, hino, -⟩
  · exact hself
  · exact absurd ⟨f, contents, hf, hw, hdata, hino⟩ hno

/-- A seek leaves the file system as it is exactly when it fails or asks for the position where the
file is. -/
private theorem vfsLlseek_eq_self_iff {fd : ℕ} {offset : ℤ} {whence : Whence} :
    (fs.vfsLlseek fd offset whence).2 = fs ↔ ¬(VfsOp.llseek fd offset whence).TakesEffect fs := by
  constructor
  · rintro hself ⟨f, target, hf, htarget, hpos, hlt, hne⟩
    simp only [FileSystem.vfsLlseek, hf, htarget, hpos, hlt, and_self, if_true] at hself
    have hfile := (set_eq_self_iff hf).mp (congrArg FileSystem.files hself)
    have hmoved := congrArg OpenFile.pos hfile
    simp only at hmoved
    omega
  · intro hno
    rcases vfsLlseek_cases offset whence with hself | ⟨f, target, hf, htarget, hpos, hlt, hseek⟩
    · exact hself
    · -- the position asked for is the one where the file is
      have hsame : target = f.pos := by
        by_contra hne
        exact hno ⟨f, target, hf, htarget, hpos, hlt, hne⟩
      have hkeep : fs.files.set fd { f with pos := target.toNat } = fs.files :=
        (set_eq_self_iff hf).mpr (by rw [hsame, Int.toNat_natCast])
      rw [hseek, hkeep]

/-- The body of the probed function leaves the file system as it is exactly when the operation is
not a write or a seek that takes effect. -/
theorem body_eq_self_iff (op : VfsOp) : (op.body hook fs).2 = fs ↔ ¬op.TakesEffect fs := by
  cases op with
  | write fd data => exact vfsWrite_eq_self_iff
  | llseek fd offset whence => exact vfsLlseek_eq_self_iff
  | _ => exact iff_of_true rfl not_false

/-- A write or a seek calls a function whose handler looks at the path of its open file. -/
theorem call_of_file {op : VfsOp} {f : OpenFile} (hf : op.file fs = some f) :
    ∃ call, op.call fs = some call ∧ call.mediated = true ∧ call.operands = [f.dentry] := by
  cases op with
  | write fd data =>
    have hfd : fs.files[fd]? = some f := hf
    exact ⟨.vfsWrite ⟨f.dentry, f.flags⟩, by simp [VfsOp.call, hfd], rfl, rfl⟩
  | llseek fd offset whence =>
    have hfd : fs.files[fd]? = some f := hf
    exact ⟨.vfsLlseek ⟨f.dentry, f.flags⟩, by simp [VfsOp.call, hfd], rfl, rfl⟩
  | _ => simp [VfsOp.file] at hf

theorem VfsOp.TakesEffect.file {op : VfsOp} (h : op.TakesEffect fs) :
    ∃ f, op.file fs = some f := by
  cases op with
  | write fd data =>
    obtain ⟨f, -, hf, -⟩ := h
    exact ⟨f, hf⟩
  | llseek fd offset whence =>
    obtain ⟨f, -, hf, -⟩ := h
    exact ⟨f, hf⟩
  | _ => exact h.elim

end Denial

/-- Whatever the file system, the list and the operation: a denial of the operation gives its
caller `-EACCES` and leaves the file system as it was, if and only if the operation is not a write
that stores something, or a seek that moves the position, through an open file whose path is
blacklisted. -/
theorem denial_prevents_iff (rf : ReferenceMonitor) (env : HandlerEnv) (hook : ℤ)
    (fs : FileSystem) (op : VfsOp) :
    DenialPrevents rf env hook fs op ↔
      ¬(op.TakesEffect fs ∧ ∃ f, op.file fs = some f ∧ f.Blacklisted rf env) := by
  rw [denialPrevents_iff_body]
  constructor
  · rintro h ⟨heffect, f, hf, hlisted⟩
    obtain ⟨call, hcall, hmed, hop⟩ := call_of_file hf
    have hdeny := (entryHandler_eq_zero_iff hmed hop).mpr hlisted
    exact (body_eq_self_iff op).mp (h call hcall hdeny) heffect
  · intro h call hcall hdeny
    rw [body_eq_self_iff]
    intro heffect
    -- the call that is made is the one for the open file
    obtain ⟨f, hf⟩ := heffect.file
    obtain ⟨call', hcall', hmed, hop⟩ := call_of_file hf
    obtain rfl : call' = call := by
      simpa [hcall] using hcall'.symm
    exact h ⟨heffect, f, hf, (entryHandler_eq_zero_iff hmed hop).mp hdeny⟩

/-- A file system with the single file `/a`, empty, open for writing. -/
def openA : FileSystem :=
  { tree := [([], 0), ([nameA], 1)]
    inodes := [.dir, .file []]
    files := [⟨[nameA], [], 1, oWronly, 0⟩] }

/-- With `/a` on the list, a write of one byte through that file is denied, and the byte is in the
file. -/
theorem denied_write_stores :
    ¬DenialPrevents (monitorOf pathA) strayEnv 0 openA (.write 0 [65]) := by
  intro h
  have hlisted : isBlacklisted (monitorOf pathA) (getPathFromDentry strayEnv.first [nameA]) =
      some 1 := by
    decide
  have hdeny : ∃ data, (ProbedCall.vfsWrite ⟨[nameA], oWronly⟩).entryHandler (monitorOf pathA)
      strayEnv = some (0, data) :=
    (entryHandler_eq_zero_iff rfl rfl).mpr hlisted
  have hself := denialPrevents_iff_body.mp h (.vfsWrite ⟨[nameA], oWronly⟩) rfl hdeny
  exact absurd hself (by decide)

end StackReferenceMonitor
