import StackReferenceMonitor.Probes.Dentry
import StackReferenceMonitor.Foundations.Kretprobe

/-!
# The entry handlers and the return handler

The ten entry handlers of `kprobes/kprobes.c` and `ret_handler`. An entry handler takes its
operands from the registers that hold the arguments of the probed function, looks their paths up,
and returns `0`, with a message in the data of the probe, when it denies the call. `ret_handler`
then overwrites the return value with `-EACCES`.

A handler that faults does not return: its result is `none`. `is_blacklisted` faults on the `NULL`
that a failed `get_path_from_dentry` leaves, and no handler tests for it. A message that leaves the
array `error_message` overwrites the stack of the handler, which does not return either.

The entry handlers take the size of that array as a parameter. With its 256 bytes and with the
`write_on_log` of `ret_handler`, they are in `Probes.Denials`. Most of what they do does not depend
on either, and is said of `ProbedCall.entryHandler`, where the array has no end.

## Main definitions

* `openEntryHandler` and the nine others, `retHandler`.
* `ProbedFunction`, `ProbedFunction.kretprobe`: what `kretprobe_init` sets up.
* `ProbedCall`: a call of a probed function, with its arguments.

## Main results

* `entryHandler_eq`, `entryHandler_of_not_mediated`: each of the ten handlers returns `0` exactly
  when one of the paths it computes is blacklisted, and `1` when none is.
-/

namespace StackReferenceMonitor

open CString (text)

/-! ### Arguments -/

/-- `O_WRONLY`. -/
def oWronly : UInt32 := 0x1

/-- `O_RDWR`. -/
def oRdwr : UInt32 := 0x2

/-- `O_CREAT`. -/
def oCreat : UInt32 := 0x40

/-- `O_TRUNC`. -/
def oTrunc : UInt32 := 0x200

/-- `O_APPEND`. -/
def oAppend : UInt32 := 0x400

/-- `struct file`: what the handlers read of it. -/
structure File where
  /-- `f_path.dentry`. -/
  dentry : Dentry
  /-- `f_flags`. -/
  flags : UInt32

/-- What an argument register points to. -/
inductive Arg where
  /-- A `struct dentry`. -/
  | dentry (dentry : Dentry)
  /-- A `struct file`. -/
  | file (file : File)
  /-- Anything else: an inode, a buffer, a number. -/
  | other

/-- An argument used as a `struct dentry *`. -/
def Arg.asDentry : Arg → Option Dentry
  | .dentry d => some d
  | _ => none

/-- An argument used as a `struct file *`. -/
def Arg.asFile : Arg → Option File
  | .file f => some f
  | _ => none

/-- `struct pt_regs`: the return value, and the first four arguments. -/
structure PtRegs where
  /-- The return value. -/
  ax : ℤ
  /-- The first argument. -/
  di : Arg
  /-- The second argument. -/
  si : Arg
  /-- The third argument. -/
  dx : Arg
  /-- The fourth argument. -/
  cx : Arg

/-- What one run of an entry handler meets. -/
structure HandlerEnv where
  /-- The first `get_path_from_dentry`. -/
  first : PathEnv
  /-- The second one. -/
  second : PathEnv
  /-- Whether `kstrdup` succeeds. -/
  kstrdup : Bool

/-- `struct probe_data`: `error_message`, or `NULL`. -/
abbrev ProbeData := Option (List UInt8)

/-- `%s` of a pointer. -/
def printfString : Option (List UInt8) → List UInt8
  | none => text "(null)"
  | some mem => CString.chars mem

/-- `MODNAME`. -/
def modname : String := "STACK REFERENCE MONITOR"

/-- The size of the array `error_message`. -/
def errorMessageSize : ℕ := 256

/-- The text that is formatted into it. -/
def messageText (what : String) (fullPath : Option (List UInt8)) : List UInt8 :=
  text (modname ++ ": [ERROR] " ++ what ++ " ") ++ printfString fullPath ++ text " blocked\n"

/-- `sprintf` into a buffer of `size` bytes. -/
def sprintfWithin (size : ℕ) (s : List UInt8) : Option (List UInt8) :=
  if s.length + 1 ≤ size then some s else none

/-- `sprintf` into an array of which the size is known, or into one without an end. -/
def sprintfInto (size : Option ℕ) (message : List UInt8) : Option (List UInt8) :=
  match size with
  | none => some message
  | some n => sprintfWithin n message

/-- The message of a denied call, duplicated by `kstrdup`. -/
def errorMessage (env : HandlerEnv) (what : String) (fullPath : Option (List UInt8)) :
    ProbeData :=
  if env.kstrdup then some (messageText what fullPath) else none

/-! ### The handlers -/

section Handlers

-- the size of `error_message`
variable (size : Option ℕ)

/-- A handler that looks at the path of one dentry. -/
def pathEntryHandler (what : String) (rf : ReferenceMonitor) (env : HandlerEnv)
    (dentry : Option Dentry) : Option (ℤ × ProbeData) := do
  -- `full_path` may be `NULL`: no handler tests for it
  let fullPath := getPathFromDentry env.first (← dentry)
  if (← isBlacklisted rf fullPath) = 1 then
    let _ ← sprintfInto size (messageText what fullPath)
    return (0, errorMessage env what fullPath)
  return (1, none)

/-- A handler that looks at an old and a new path, both computed before either is looked up. -/
def pathsEntryHandler (whatOld what : String) (rf : ReferenceMonitor) (env : HandlerEnv)
    (oldDentry dentry : Option Dentry) : Option (ℤ × ProbeData) := do
  let fullOldPath := getPathFromDentry env.first (← oldDentry)
  let fullPath := getPathFromDentry env.second (← dentry)
  if (← isBlacklisted rf fullOldPath) = 1 then
    let _ ← sprintfInto size (messageText whatOld fullOldPath)
    return (0, errorMessage env whatOld fullOldPath)
  else if (← isBlacklisted rf fullPath) = 1 then
    let _ ← sprintfInto size (messageText what fullPath)
    return (0, errorMessage env what fullPath)
  return (1, none)

/-- The flags that `open_entry_handler` looks for. -/
def writeFlags (flags : UInt32) : Bool :=
  flags &&& oWronly ≠ 0 ∨ flags &&& oRdwr ≠ 0 ∨ flags &&& oCreat ≠ 0 ∨ flags &&& oAppend ≠ 0 ∨
    flags &&& oTrunc ≠ 0

/-- `open_entry_handler`. -/
def openEntryHandler (rf : ReferenceMonitor) (env : HandlerEnv) (regs : PtRegs) :
    Option (ℤ × ProbeData) := do
  let file ← regs.di.asFile
  -- an `open` without any of the flags is not looked up
  if writeFlags file.flags then
    pathEntryHandler size "vfs open on file" rf env (some file.dentry)
  else
    return (1, none)

/-- `inode_link_entry_handler`. -/
def inodeLinkEntryHandler (rf : ReferenceMonitor) (env : HandlerEnv) (regs : PtRegs) :
    Option (ℤ × ProbeData) :=
  pathsEntryHandler size "Link on dir" "Link on dir" rf env regs.di.asDentry regs.dx.asDentry

/-- `inode_symlink_entry_handler`. Its message is that of `inode_unlink_entry_handler`. -/
def inodeSymlinkEntryHandler (rf : ReferenceMonitor) (env : HandlerEnv) (regs : PtRegs) :
    Option (ℤ × ProbeData) :=
  pathEntryHandler size "Unlink on dir" rf env regs.si.asDentry

/-- `inode_unlink_entry_handler`. -/
def inodeUnlinkEntryHandler (rf : ReferenceMonitor) (env : HandlerEnv) (regs : PtRegs) :
    Option (ℤ × ProbeData) :=
  pathEntryHandler size "Unlink on dir" rf env regs.si.asDentry

/-- `inode_create_entry_handler`. -/
def inodeCreateEntryHandler (rf : ReferenceMonitor) (env : HandlerEnv) (regs : PtRegs) :
    Option (ℤ × ProbeData) :=
  pathEntryHandler size "Create on file" rf env regs.si.asDentry

/-- `inode_mkdir_entry_handler`. It reads `d_parent` and does not use it. -/
def inodeMkdirEntryHandler (rf : ReferenceMonitor) (env : HandlerEnv) (regs : PtRegs) :
    Option (ℤ × ProbeData) :=
  pathEntryHandler size "Mkdir on file" rf env regs.si.asDentry

/-- `inode_rename_entry_handler`. -/
def inodeRenameEntryHandler (rf : ReferenceMonitor) (env : HandlerEnv) (regs : PtRegs) :
    Option (ℤ × ProbeData) :=
  pathsEntryHandler size "Rename on dir" "Link on dir" rf env regs.si.asDentry regs.cx.asDentry

/-- `inode_rmdir_entry_handler`. The parent's path is computed and looked up only when the path
itself is not blacklisted. -/
def inodeRmdirEntryHandler (rf : ReferenceMonitor) (env : HandlerEnv) (regs : PtRegs) :
    Option (ℤ × ProbeData) := do
  let dentry ← regs.si.asDentry
  let fullPath := getPathFromDentry env.first dentry
  if (← isBlacklisted rf fullPath) = 1 then
    let _ ← sprintfInto size (messageText "Rmdir on file" fullPath)
    return (0, errorMessage env "Rmdir on file" fullPath)
  -- the message names the path itself in both cases
  if (← isBlacklisted rf (getPathFromDentry env.second dentry.dParent)) = 1 then
    let _ ← sprintfInto size (messageText "Rmdir on file" fullPath)
    return (0, errorMessage env "Rmdir on file" fullPath)
  return (1, none)

/-- `vfs_write_entry_handler`. -/
def vfsWriteEntryHandler (rf : ReferenceMonitor) (env : HandlerEnv) (regs : PtRegs) :
    Option (ℤ × ProbeData) := do
  let file ← regs.di.asFile
  pathEntryHandler size "Write on file" rf env (some file.dentry)

/-- `vfs_lseek_entry_handler`. -/
def vfsLseekEntryHandler (rf : ReferenceMonitor) (env : HandlerEnv) (regs : PtRegs) :
    Option (ℤ × ProbeData) := do
  let file ← regs.di.asFile
  pathEntryHandler size "Lseek on file" rf env (some file.dentry)

end Handlers

/-- `ret_handler`, of all ten probes: the registers that it leaves. -/
def retHandler (_ : ProbeData) (regs : PtRegs) : PtRegs :=
  { regs with ax := -EACCES }

/-! ### What each probe is set on -/

/-- The functions that `kretprobe_init` sets a probe on. -/
inductive ProbedFunction where
  | securityFileOpen
  | securityInodeUnlink
  | securityInodeLink
  | securityInodeSymlink
  | securityInodeCreate
  | securityInodeMkdir
  | securityInodeRename
  | securityInodeRmdir
  | vfsWrite
  | vfsLlseek
  deriving DecidableEq

/-- The entry handler of the probe on a function. -/
def ProbedFunction.entryHandler (size : Option ℕ) :
    ProbedFunction → ReferenceMonitor → HandlerEnv → PtRegs → Option (ℤ × ProbeData)
  | securityFileOpen => openEntryHandler size
  | securityInodeUnlink => inodeUnlinkEntryHandler size
  | securityInodeLink => inodeLinkEntryHandler size
  | securityInodeSymlink => inodeSymlinkEntryHandler size
  | securityInodeCreate => inodeCreateEntryHandler size
  | securityInodeMkdir => inodeMkdirEntryHandler size
  | securityInodeRename => inodeRenameEntryHandler size
  | securityInodeRmdir => inodeRmdirEntryHandler size
  | vfsWrite => vfsWriteEntryHandler size
  | vfsLlseek => vfsLseekEntryHandler size

/-- The probe on a function, as `set_kretprobe` leaves it, with handlers that nothing but a path
stops. -/
def ProbedFunction.kretprobe (f : ProbedFunction) (rf : ReferenceMonitor) (env : HandlerEnv) :
    Kretprobe PtRegs ProbeData where
  entryHandler := f.entryHandler none rf env
  handler := fun data regs => some (retHandler data regs)

/-- A call of a probed function: those of its arguments that some handler reads. -/
inductive ProbedCall where
  /-- `security_file_open(file)`. -/
  | securityFileOpen (file : File)
  /-- `security_inode_unlink(dir, dentry)`. -/
  | securityInodeUnlink (dentry : Dentry)
  /-- `security_inode_link(old_dentry, dir, new_dentry)`. -/
  | securityInodeLink (oldDentry newDentry : Dentry)
  /-- `security_inode_symlink(dir, dentry, old_name)`. -/
  | securityInodeSymlink (dentry : Dentry)
  /-- `security_inode_create(dir, dentry, mode)`. -/
  | securityInodeCreate (dentry : Dentry)
  /-- `security_inode_mkdir(dir, dentry, mode)`. -/
  | securityInodeMkdir (dentry : Dentry)
  /-- `security_inode_rename(old_dir, old_dentry, new_dir, new_dentry, flags)`. -/
  | securityInodeRename (oldDentry newDentry : Dentry)
  /-- `security_inode_rmdir(dir, dentry)`. -/
  | securityInodeRmdir (dentry : Dentry)
  /-- `vfs_write(file, buf, count, pos)`. -/
  | vfsWrite (file : File)
  /-- `vfs_llseek(file, offset, whence)`. -/
  | vfsLlseek (file : File)

namespace ProbedCall

/-- The function that is called. -/
def function : ProbedCall → ProbedFunction
  | securityFileOpen _ => .securityFileOpen
  | securityInodeUnlink _ => .securityInodeUnlink
  | securityInodeLink _ _ => .securityInodeLink
  | securityInodeSymlink _ => .securityInodeSymlink
  | securityInodeCreate _ => .securityInodeCreate
  | securityInodeMkdir _ => .securityInodeMkdir
  | securityInodeRename _ _ => .securityInodeRename
  | securityInodeRmdir _ => .securityInodeRmdir
  | vfsWrite _ => .vfsWrite
  | vfsLlseek _ => .vfsLlseek

/-- The registers at the entry of the function, by the order of its parameters. -/
def regs : ProbedCall → PtRegs
  | securityFileOpen file => ⟨0, .file file, .other, .other, .other⟩
  | securityInodeUnlink dentry => ⟨0, .other, .dentry dentry, .other, .other⟩
  | securityInodeLink oldDentry newDentry =>
    ⟨0, .dentry oldDentry, .other, .dentry newDentry, .other⟩
  | securityInodeSymlink dentry => ⟨0, .other, .dentry dentry, .other, .other⟩
  | securityInodeCreate dentry => ⟨0, .other, .dentry dentry, .other, .other⟩
  | securityInodeMkdir dentry => ⟨0, .other, .dentry dentry, .other, .other⟩
  | securityInodeRename oldDentry newDentry =>
    ⟨0, .other, .dentry oldDentry, .other, .dentry newDentry⟩
  | securityInodeRmdir dentry => ⟨0, .other, .dentry dentry, .other, .other⟩
  | vfsWrite file => ⟨0, .file file, .other, .other, .other⟩
  | vfsLlseek file => ⟨0, .file file, .other, .other, .other⟩

/-- The entry handler of the probe on the function that is called, as far as its message fits. -/
def entryHandler (call : ProbedCall) (rf : ReferenceMonitor) (env : HandlerEnv) :
    Option (ℤ × ProbeData) :=
  call.function.entryHandler none rf env call.regs

/-- The dentries whose paths the entry handler may compute. -/
def operands : ProbedCall → List Dentry
  | securityFileOpen file => [file.dentry]
  | securityInodeUnlink dentry => [dentry]
  | securityInodeLink oldDentry newDentry => [oldDentry, newDentry]
  | securityInodeSymlink dentry => [dentry]
  | securityInodeCreate dentry => [dentry]
  | securityInodeMkdir dentry => [dentry]
  | securityInodeRename oldDentry newDentry => [oldDentry, newDentry]
  | securityInodeRmdir dentry => [dentry, dentry.dParent]
  | vfsWrite file => [file.dentry]
  | vfsLlseek file => [file.dentry]

/-- An `open` counts only with one of the flags that `open_entry_handler` looks for. -/
def mediated : ProbedCall → Bool
  | securityFileOpen file => writeFlags file.flags
  | _ => true

/-- The paths of the operands, in the order in which they are looked up. -/
def paths (call : ProbedCall) (env : HandlerEnv) : List (Option (List UInt8)) :=
  List.zipWith getPathFromDentry [env.first, env.second] call.operands

end ProbedCall

/-- Paths looked up one after the other, until one is blacklisted. -/
def anyBlacklisted (rf : ReferenceMonitor) : List (Option (List UInt8)) → Option Bool
  | [] => some false
  | path :: paths => do
    if (← isBlacklisted rf path) = 1 then return true
    else anyBlacklisted rf paths

/-- The return value of a handler that denies when it has found something. -/
def verdict (found : Bool) : ℤ :=
  if found then 0 else 1

section Verdict

variable {rf : ReferenceMonitor} {env : HandlerEnv}

private theorem pathEntryHandler_eq (what : String) (dentry : Dentry) :
    (pathEntryHandler none what rf env (some dentry)).map Prod.fst =
      (anyBlacklisted rf [getPathFromDentry env.first dentry]).map verdict := by
  simp only [pathEntryHandler, sprintfInto, anyBlacklisted, Option.bind_eq_bind, Option.bind_some]
  cases isBlacklisted rf (getPathFromDentry env.first dentry) with
  | none => rfl
  | some ret => by_cases h : ret = 1 <;> simp [h, verdict]

/-- Two lookups, the second only when the first finds nothing. -/
private theorem twoLookups_eq (path path' : Option (List UInt8)) (data data' : ProbeData) :
    ((isBlacklisted rf path).bind fun ret =>
      if ret = 1 then some ((0 : ℤ), data)
      else (isBlacklisted rf path').bind fun ret' =>
        if ret' = 1 then some (0, data') else some (1, none)).map Prod.fst =
      (anyBlacklisted rf [path, path']).map verdict := by
  simp only [anyBlacklisted, Option.bind_eq_bind]
  cases isBlacklisted rf path with
  | none => rfl
  | some ret =>
    by_cases hret : ret = 1
    · simp [hret, verdict]
    · cases isBlacklisted rf path' with
      | none => simp [hret]
      | some ret' => by_cases h : ret' = 1 <;> simp [hret, h, verdict]

private theorem pathsEntryHandler_eq (whatOld what : String) (oldDentry dentry : Dentry) :
    (pathsEntryHandler none whatOld what rf env (some oldDentry) (some dentry)).map Prod.fst =
      (anyBlacklisted rf [getPathFromDentry env.first oldDentry,
        getPathFromDentry env.second dentry]).map verdict :=
  twoLookups_eq _ _ _ _

private theorem inodeRmdirEntryHandler_eq (regs : PtRegs) {dentry : Dentry}
    (hsi : regs.si = .dentry dentry) :
    (inodeRmdirEntryHandler none rf env regs).map Prod.fst =
      (anyBlacklisted rf [getPathFromDentry env.first dentry,
        getPathFromDentry env.second dentry.dParent]).map verdict := by
  simp only [inodeRmdirEntryHandler, hsi, Arg.asDentry, Option.bind_eq_bind, Option.bind_some]
  exact twoLookups_eq _ _ _ _

/-- The return value of a mediated call's entry handler: `0` when one of its paths is blacklisted,
`1` when none is. -/
theorem entryHandler_eq {call : ProbedCall} (hcall : call.mediated = true) :
    (call.entryHandler rf env).map Prod.fst =
      (anyBlacklisted rf (call.paths env)).map verdict := by
  cases call with
  | securityFileOpen file =>
    -- the only handler that looks at more than paths
    have hflags : writeFlags file.flags = true := hcall
    simp only [ProbedCall.entryHandler, ProbedCall.function, ProbedFunction.entryHandler,
      ProbedCall.regs, openEntryHandler, Arg.asFile, Option.bind_eq_bind, Option.bind_some, hflags,
      if_true]
    exact pathEntryHandler_eq _ _
  | securityInodeUnlink dentry => exact pathEntryHandler_eq _ _
  | securityInodeLink oldDentry newDentry => exact pathsEntryHandler_eq _ _ _ _
  | securityInodeSymlink dentry => exact pathEntryHandler_eq _ _
  | securityInodeCreate dentry => exact pathEntryHandler_eq _ _
  | securityInodeMkdir dentry => exact pathEntryHandler_eq _ _
  | securityInodeRename oldDentry newDentry => exact pathsEntryHandler_eq _ _ _ _
  | securityInodeRmdir dentry => exact inodeRmdirEntryHandler_eq _ rfl
  | vfsWrite file => exact pathEntryHandler_eq _ _
  | vfsLlseek file => exact pathEntryHandler_eq _ _

/-- An `open` that is not mediated is let through without a lookup. -/
theorem entryHandler_of_not_mediated {call : ProbedCall} (hcall : call.mediated = false) :
    call.entryHandler rf env = some (1, none) := by
  cases call with
  | securityFileOpen file =>
    have hflags : writeFlags file.flags = false := hcall
    simp [ProbedCall.entryHandler, ProbedCall.function, ProbedFunction.entryHandler,
      ProbedCall.regs, openEntryHandler, Arg.asFile, hflags]
  | _ => simp [ProbedCall.mediated] at hcall

end Verdict

/-! ### Looking several paths up -/

section AnyBlacklisted

variable {rf : ReferenceMonitor} {paths : List (Option (List UInt8))}

/-- When no lookup faults, a blacklisted path among them is found. -/
theorem anyBlacklisted_of_mem (hdef : ∀ path ∈ paths, (isBlacklisted rf path).isSome)
    (hex : ∃ path ∈ paths, isBlacklisted rf path = some 1) :
    anyBlacklisted rf paths = some true := by
  induction paths with
  | nil => simp at hex
  | cons path paths ih =>
    obtain ⟨ret, hret⟩ := Option.isSome_iff_exists.mp (hdef path List.mem_cons_self)
    by_cases h : ret = 1
    · simp [anyBlacklisted, hret, h]
    · have hrest : ∃ path ∈ paths, isBlacklisted rf path = some 1 := by
        simpa [hret, h] using hex
      have hrec := ih (fun p hp => hdef p (List.mem_cons_of_mem _ hp)) hrest
      simpa [anyBlacklisted, hret, h] using hrec

/-- Nothing is found only when every path was looked up and is not blacklisted. -/
theorem anyBlacklisted_eq_false (h : anyBlacklisted rf paths = some false) :
    ∀ path ∈ paths, ∃ ret, isBlacklisted rf path = some ret ∧ ret ≠ 1 := by
  induction paths with
  | nil => simp
  | cons path paths ih =>
    simp only [anyBlacklisted, Option.bind_eq_bind, Option.bind_eq_some_iff] at h
    obtain ⟨ret, hret, hrest⟩ := h
    by_cases hone : ret = 1
    · simp [hone] at hrest
    · rw [if_neg hone] at hrest
      intro p hp
      rcases List.mem_cons.mp hp with rfl | hp
      · exact ⟨ret, hret, hone⟩
      · exact ih hrest p hp

end AnyBlacklisted

end StackReferenceMonitor
