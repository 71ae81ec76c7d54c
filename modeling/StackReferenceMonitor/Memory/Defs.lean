import StackReferenceMonitor.Foundations.Allocation
import StackReferenceMonitor.Log.Feedback
import StackReferenceMonitor.Syscalls.PrintBlacklist
import StackReferenceMonitor.Syscalls.Sequential

/-!
# The functions that allocate, with their heap operations

The functions of the kernel modules that allocate or free memory, as they are modelled elsewhere,
with each `kmalloc`, `kstrdup`, `krealloc`, `kfree` and the like at its place in the source. A block
is known by the pointer that its allocation is stored in. Without the heap operations these are the
functions themselves: one `result_` theorem for each.

Two of them free a pointer that did not come from an allocation. `encrypt_password` frees `digest`
before it was set, if there is no memory for the descriptor and the variable happens not to be
`NULL`, and `sys_print_blacklist` frees a string literal, if the list is empty and cannot be copied.

Where the text of `sys_print_blacklist` leaves its buffers is not looked at here, except that there
is no block at all for a count of `0`.

## Main definitions

* `Pointer`: the pointers that allocations are stored in.
* `encryptPasswordHeap`, `passwordCheckHeap`, `getPathFromDentryHeap`: `utils/utils.c`.
* `addToBlacklistHeap`, `removeFromBlacklistHeap`: `utils/blacklist.c`.
* `Syscall.heap`: the system calls.
* `ProbedCall.entryHandlerHeap`, `retHandlerHeap`: the handlers.
* `writeOnLogHeap`, `deferredWorkHeap`, `onefileWriteHeap`: the log.
-/

namespace StackReferenceMonitor

open Traced (emit ofOption)
open MachineInt (signed unsigned)
open CString (text)

/-- The pointers that allocations are stored in. -/
inductive Pointer where
  | hashTfm
  | desc
  | digest
  | result
  | kernelPassword
  /-- The page of `get_path_from_dentry`. -/
  | buffer
  | fullPath
  | kernelRelPath
  | new
  | newPath
  | kernelPath
  | stateString
  | blacklistEntries
  | errorMessage
  | logData
  | exePath
  | defWork
  /-- The copy of `onefile_write`. -/
  | data
  deriving DecidableEq

/-- A computation that operates on the heap. -/
abbrev Allocating (α : Type) := Traced (HeapOp Pointer) α

/-- An allocation that succeeds. -/
def kmalloc (p : Pointer) : Allocating Unit :=
  emit (.alloc p)

/-- `kfree`, or what frees the block. -/
def kfree (p : Pointer) : Allocating Unit :=
  emit (.free p)

/-! ### `utils/utils.c` -/

/-- `encrypt_password`, of a pointer that may be `NULL`. -/
def encryptPasswordHeap (sha256 : List UInt8 → Vector UInt8 32) (env : EncryptEnv)
    (password : Option CStr) : Allocating (Option CStr) :=
  if !env.hashTfm then return none
  else do
    kmalloc .hashTfm
    if !env.desc then
      -- at `out`, `digest` is tested and freed, and it is not set yet
      if env.unset then
        emit .wild
        kfree .hashTfm
        return none
      else
        kfree .hashTfm
        return none
    else
      kmalloc .desc
      if !env.digest then
        kfree .desc
        kfree .hashTfm
        return none
      else
        kmalloc .digest
        let password ← ofOption password
        if env.ret ≠ 0 then
          kfree .digest
          kfree .desc
          kfree .hashTfm
          return none
        else
          match env.result with
          | none =>
            kfree .digest
            kfree .desc
            kfree .hashTfm
            return none
          | some result =>
            kmalloc .result
            kfree .digest
            kfree .desc
            kfree .hashTfm
            return some (CString.ofMem (printDigest (sha256 password.bytes) result.toList))

/-- `password_check`. The digest that is compared is not freed. -/
def passwordCheckHeap (sha256 : List UInt8 → Vector UInt8 32) (env : PasswordEnv) (password : ℕ)
    (rf : ReferenceMonitor) : Allocating ℤ :=
  if env.kernelPassword = none then return -ENOMEM
  else do
    kmalloc .kernelPassword
    if (env.mem.copyFromUser password passwLen).2 ≠ 0 then
      kfree .kernelPassword
      return -EAGAIN
    else
      let digest ← encryptPasswordHeap sha256 env.encrypt (some (env.copied password))
      let digest ← ofOption digest
      let stored ← ofOption rf.password
      if CString.strcmp stored.bytes digest.bytes ≠ 0 then
        kfree .kernelPassword
        return -EACCES
      else
        kfree .kernelPassword
        return 0

/-- `get_path_from_dentry`. The page stays when there is no memory for the path. -/
def getPathFromDentryHeap (env : PathEnv) (dentry : Dentry) : Allocating (Option (List UInt8)) :=
  if !env.page then return none
  else do
    kmalloc .buffer
    match dentryPathRaw dentry pathMax with
    | none =>
      kfree .buffer
      return none
    | some ret =>
      let len := CString.strlen ret
      match env.fullPath with
      | none => return none
      | some memory =>
        kmalloc .fullPath
        let fullPath := (List.range (len + 2)).map memory
        kfree .buffer
        return some ((CString.strncpy fullPath ret len).set (len + 1) 0)

/-! ### `utils/blacklist.c` -/

namespace Blacklist

/-- `add_to_blacklist`. The copy of the path is freed on each way out after the lock, and not when
there is no memory for the node. A node that is not linked is not freed. -/
def addToBlacklistHeap (env : AddEnv) (path : ℕ) (bl : Blacklist) : Allocating (ℤ × Blacklist) :=
  match env.kernelRelPath with
  | none => return (-ENOMEM, bl)
  | some after => do
    kmalloc .kernelRelPath
    let (buffer, ret) := env.mem.copyFromUser path pathMax
    if (ret : ℤ) = -1 then
      kfree .kernelRelPath
      return (-EAGAIN, bl)
    else
      match env.new with
      | none => return (-ENOMEM, bl)
      | some next =>
        kmalloc .new
        if env.newPath then
          kmalloc .newPath
          let answer ← ofOption (addLocked bl ⟨CString.ofMem (buffer ++ after), next⟩)
          kfree .kernelRelPath
          return answer
        else ofOption none

/-- `remove_from_blacklist`. Neither the copy of the path nor the node is freed. -/
def removeFromBlacklistHeap (env : RemoveEnv) (path : ℕ) (bl : Blacklist) :
    Allocating (ℤ × Blacklist) :=
  match env.kernelPath with
  | none => return (-ENOMEM, bl)
  | some after => do
    kmalloc .kernelPath
    let (buffer, ret) := env.mem.copyFromUser path pathMax
    if (ret : ℤ) = -1 then
      kfree .kernelPath
      return (-EAGAIN, bl)
    else ofOption (removeLocked bl (CString.ofMem (buffer ++ after)))

end Blacklist

/-! ### `stack_reference_monitor.c` -/

/-- The loop of `sys_print_blacklist`. A `krealloc` that fails keeps the old block, and the pointer
to it is overwritten. -/
def printScanHeap (env : PrintEnv) (nodes : List BlacklistNode) :
    ℕ → ℕ → ℕ → List UInt8 → Allocating (Option (List UInt8))
  | 0, _, _, _ => ofOption none
  | fuel + 1, n, curr, entries => do
    let node ← ofOption nodes[curr]?
    if !env.krealloc n then return none
    else
      kfree .blacklistEntries
      kmalloc .blacklistEntries
      let entries := entries ++ text "- " ++ node.val.bytes ++ text "\n"
      match node.next with
      | some next => printScanHeap env nodes fuel (n + 1) next entries
      | none => return some entries

/-- `kmalloc` of so many bytes, which succeeds. For none of them it is answered with
`ZERO_SIZE_PTR`, and there is no block. -/
def kmallocBytes (bytes : ℕ) (p : Pointer) : Allocating Unit :=
  if bytes = 0 then return () else kmalloc p

/-- `sys_print_blacklist`. The text is freed only if it cannot be copied. -/
def sysPrintBlacklistHeap (env : PrintEnv) (bl : Blacklist) (blacklistSize : ℤ) :
    Allocating (ℤ × List UInt8) :=
  if blacklistSize ≠ bl.size then return (-1, [])
  else if !env.kmalloc then return (-1, [])
  else do
    kmallocBytes (entriesBytes blacklistSize) .blacklistEntries
    match bl.head with
    | none =>
      -- `blacklist_entries` is now a literal
      if env.copyToUser ≠ 0 then
        emit .wild
        return (-EAGAIN, [])
      else return (0, text "Blacklist is empty\n")
    | some curr =>
      -- without a block the header has no place
      let header ← ofOption
        (sprintfWithin (entriesBytes blacklistSize) (text "Blacklist elements\n"))
      match ← printScanHeap env bl.nodes bl.nodes.length 0 curr header with
      | none => return (-1, [])
      | some entries =>
        if env.copyToUser ≠ 0 then
          kfree .blacklistEntries
          return (-EAGAIN, [])
        else return (0, entries)

section Calls

variable (sha256 : List UInt8 → Vector UInt8 32) (array : KprobeArray) (env : CallEnv) (euid : ℕ)
  (s : Shared)

/-- The checks of a call that changes something, and what comes after them. -/
def checkedHeap (first : ℤ) (password : ℕ) (body : Allocating ℤ) : Allocating ℤ :=
  if first ≠ 0 then return first
  else do
    let ret ← passwordCheckHeap sha256 env.password password s.rf
    if ret ≠ 0 then return ret
    else if euidCheck euid ≠ 0 then return euidCheck euid
    else body

/-- The string for the audit, and the return of the state. -/
def returnStateHeap (state : ℤ) : Allocating ℤ :=
  if env.stateString then do
    kmalloc .stateString
    return state
  else return -ENOMEM

/-- A system call: what it returns. What it leaves of the monitor is in `Syscall.run`. -/
def Syscall.heap : Syscall → Allocating ℤ
  | .switchRfState state password =>
    checkedHeap sha256 env euid s (rfStateCheck state) password do
      let _ ← ofOption (if state = 0 ∨ state = 2 then enableKprobes array env.probe s.probes
        else disableKprobes array env.probe s.probes)
      returnStateHeap env state
  | .getRfState => returnStateHeap env s.rf.state
  | .addToBlacklist path password =>
    checkedHeap sha256 env euid s (isRfRec s.rf) password do
      let answer ← Blacklist.addToBlacklistHeap env.add path s.rf.blacklist
      return answer.1
  | .removeFromBlacklist path password =>
    checkedHeap sha256 env euid s (isRfRec s.rf) password do
      let answer ← Blacklist.removeFromBlacklistHeap env.remove path s.rf.blacklist
      return if answer.1 = -EINVAL then 1 else answer.1
  | .printBlacklist _ blacklistSize => do
    let answer ← sysPrintBlacklistHeap env.print s.rf.blacklist blacklistSize
    return answer.1
  | .getBlacklistSize => return s.rf.blacklist.size

end Calls

/-! ### `kprobes/kprobes.c` -/

/-- `kstrdup` of the message. -/
def kstrdupMessage : ProbeData → Allocating ProbeData
  | none => return none
  | some message => do
    kmalloc .errorMessage
    return some message

/-- The end of a handler that denies: the message is formatted and duplicated. -/
def denyHeap (env : HandlerEnv) (what : String) (fullPath : Option (List UInt8)) :
    Allocating (ℤ × ProbeData) := do
  let _ ← ofOption (sprintfInto (some errorMessageSize) (messageText what fullPath))
  let message ← kstrdupMessage (errorMessage env what fullPath)
  return (0, message)

/-- A handler that looks at the path of one dentry. -/
def pathEntryHandlerHeap (what : String) (rf : ReferenceMonitor) (env : HandlerEnv)
    (dentry : Dentry) : Allocating (ℤ × ProbeData) := do
  let fullPath ← getPathFromDentryHeap env.first dentry
  if (← ofOption (isBlacklisted rf fullPath)) = 1 then denyHeap env what fullPath
  else return (1, none)

/-- A handler that looks at an old and a new path. -/
def pathsEntryHandlerHeap (whatOld what : String) (rf : ReferenceMonitor) (env : HandlerEnv)
    (oldDentry dentry : Dentry) : Allocating (ℤ × ProbeData) := do
  let fullOldPath ← getPathFromDentryHeap env.first oldDentry
  let fullPath ← getPathFromDentryHeap env.second dentry
  if (← ofOption (isBlacklisted rf fullOldPath)) = 1 then denyHeap env whatOld fullOldPath
  else if (← ofOption (isBlacklisted rf fullPath)) = 1 then denyHeap env what fullPath
  else return (1, none)

/-- `inode_rmdir_entry_handler`. The parent's path has no pointer of its own. -/
def inodeRmdirEntryHandlerHeap (rf : ReferenceMonitor) (env : HandlerEnv) (dentry : Dentry) :
    Allocating (ℤ × ProbeData) := do
  let fullPath ← getPathFromDentryHeap env.first dentry
  if (← ofOption (isBlacklisted rf fullPath)) = 1 then denyHeap env "Rmdir on file" fullPath
  else
    let parentPath ← getPathFromDentryHeap env.second dentry.dParent
    if (← ofOption (isBlacklisted rf parentPath)) = 1 then denyHeap env "Rmdir on file" fullPath
    else return (1, none)

/-- The entry handler of the probe on the function that is called. -/
def ProbedCall.entryHandlerHeap (rf : ReferenceMonitor) (env : HandlerEnv) :
    ProbedCall → Allocating (ℤ × ProbeData)
  | securityFileOpen file =>
    if writeFlags file.flags then pathEntryHandlerHeap "vfs open on file" rf env file.dentry
    else return (1, none)
  | securityInodeUnlink dentry => pathEntryHandlerHeap "Unlink on dir" rf env dentry
  | securityInodeLink oldDentry newDentry =>
    pathsEntryHandlerHeap "Link on dir" "Link on dir" rf env oldDentry newDentry
  | securityInodeSymlink dentry => pathEntryHandlerHeap "Unlink on dir" rf env dentry
  | securityInodeCreate dentry => pathEntryHandlerHeap "Create on file" rf env dentry
  | securityInodeMkdir dentry => pathEntryHandlerHeap "Mkdir on file" rf env dentry
  | securityInodeRename oldDentry newDentry =>
    pathsEntryHandlerHeap "Rename on dir" "Link on dir" rf env oldDentry newDentry
  | securityInodeRmdir dentry => inodeRmdirEntryHandlerHeap rf env dentry
  | vfsWrite file => pathEntryHandlerHeap "Write on file" rf env file.dentry
  | vfsLlseek file => pathEntryHandlerHeap "Lseek on file" rf env file.dentry

/-! ### `log/logger.c` -/

/-- `kstrdup` of the program's path. -/
def kstrdupPath (succeeds : Bool) (exePath : Option (List UInt8)) : Allocating (Option CStr) :=
  match exePath with
  | none => return none
  | some path =>
    if succeeds then do
      kmalloc .exePath
      return some (CString.ofMem path)
    else return none

/-- `write_on_log`. The path of the program is duplicated, and only the duplicate is kept. -/
def writeOnLogHeap (env : WriteOnLogEnv) (task : Task) : Allocating (Option LogData) :=
  if !env.logData then return none
  else do
    kmalloc .logData
    let exeDentry ← ofOption task.mm
    let exePath ← getPathFromDentryHeap env.path exeDentry
    let duplicate ← kstrdupPath env.kstrdup exePath
    let logData : LogData :=
      { tid := task.pid
        tgid := task.tgid
        uid := task.uid
        euid := task.euid
        exePath := duplicate }
    if env.defWork then
      kmalloc .defWork
      return some logData
    else return none

/-- `ret_handler`: the record that it has deferred. -/
def retHandlerHeap (env : WriteOnLogEnv) (task : Task) (message : ProbeData) :
    Allocating (Option LogData) := do
  let record ← writeOnLogHeap env task
  if message.isSome then
    kfree .errorMessage
    return record
  -- `kfree` of `NULL` does nothing
  else return record

/-- A call of a probed function, with the return handler if it is denied. -/
def probedCallHeap (rf : ReferenceMonitor) (env : HandlerEnv) (log : WriteOnLogEnv) (task : Task)
    (call : ProbedCall) : Allocating (Option LogData) := do
  let verdict ← call.entryHandlerHeap rf env
  if verdict.1 = 0 then retHandlerHeap log task verdict.2
  else return none

/-- `onefile_write`. -/
def LogFs.onefileWriteHeap (env : WriteEnv) (data : List UInt8) (fs : Fs) : Allocating (ℤ × Fs) :=
  let fileSize := unsigned 64 fs.iSize
  if !env.kmalloc then return (0, fs)
  else do
    kmalloc .data
    if env.copied ≠ data.length then return (0, fs)
    else
      let target := Target.ofSize fileSize data.length
      let block := (unsigned 64 target.blockToWrite).toNat
      match fs.device.read env.sbBread block with
      | none => return (- EIO, fs)
      | some bh =>
        let bh ← ofOption (memcpy bh target.blockOffset data)
        let newSize := unsigned 64 (target.offset + data.length)
        kfree .data
        return (data.length,
          { device := fs.device.write block bh
            iSize := if newSize > fileSize then signed 64 newSize else fs.iSize })

/-- `deferred_work`, for a record: what the worker has deferred itself, and the log file system.
The log file system may not be mounted. -/
def deferredWorkHeap (sha256 : List UInt8 → Vector UInt8 32) (rf : ReferenceMonitor)
    (mounted : Bool) (env : WorkEnv) (logData : LogData) (fs : LogFs.Fs) :
    Allocating (Option LogData × LogFs.Fs) := do
  let hash ← encryptPasswordHeap sha256 env.encrypt logData.exePath
  if !mounted then return (none, fs)
  else
    let verdict ← openLog.entryHandlerHeap rf env.handler
    if verdict.1 = 0 then
      -- the open is denied: the worker runs the return handler, and the work is not freed
      let record ← retHandlerHeap env.log (kworker env.pid) verdict.2
      return (record, fs)
    else
      let answer ← LogFs.onefileWriteHeap env.write (logData.row hash) fs
      kfree .defWork
      return (none, answer.2)

/-! ### Without the heap operations -/

@[simp]
theorem result_kmalloc (p : Pointer) : (kmalloc p).result = some () := rfl

@[simp]
theorem result_kfree (p : Pointer) : (kfree p).result = some () := rfl

theorem result_encryptPasswordHeap (sha256 : List UInt8 → Vector UInt8 32) (env : EncryptEnv)
    (password : Option CStr) :
    (encryptPasswordHeap sha256 env password).result = hashOf sha256 env password := by
  obtain ⟨tfm, desc, digest, ret, result, unset⟩ := env
  cases tfm <;> cases desc <;> cases digest <;> cases unset <;> cases password <;>
    simp [encryptPasswordHeap, hashOf, encryptPassword]
  all_goals by_cases hret : ret = 0 <;> cases result <;> simp [hret]

theorem result_passwordCheckHeap (sha256 : List UInt8 → Vector UInt8 32) (env : PasswordEnv)
    (password : ℕ) (rf : ReferenceMonitor) :
    (passwordCheckHeap sha256 env password rf).result = passwordCheck sha256 env password rf := by
  unfold passwordCheckHeap passwordCheck
  by_cases hnull : env.kernelPassword = none
  · simp [hnull]
  · simp only [if_neg hnull, Traced.result_bind, result_kmalloc, Option.bind_some]
    by_cases hcopy : (env.mem.copyFromUser password passwLen).2 ≠ 0
    · simp [hcopy]
    · simp only [if_neg hcopy, Traced.result_bind, result_encryptPasswordHeap, hashOf,
        Option.bind_some, Traced.result_ofOption, Option.bind_eq_bind]
      congr 1
      funext digest
      congr 1
      funext stored
      split_ifs <;> simp

theorem result_getPathFromDentryHeap (env : PathEnv) (dentry : Dentry) :
    (getPathFromDentryHeap env dentry).result = some (getPathFromDentry env dentry) := by
  obtain ⟨page, fullPath⟩ := env
  cases page with
  | false => rfl
  | true =>
    simp only [getPathFromDentryHeap, getPathFromDentry, Bool.not_true, Bool.false_eq_true,
      if_false, Traced.result_bind, result_kmalloc, Option.bind_some]
    cases dentryPathRaw dentry pathMax with
    | none => simp
    | some ret => cases fullPath <;> simp

namespace Blacklist

theorem result_addToBlacklistHeap (env : AddEnv) (path : ℕ) (bl : Blacklist) :
    (addToBlacklistHeap env path bl).result = addToBlacklist env path bl := by
  unfold addToBlacklistHeap addToBlacklist
  cases env.kernelRelPath with
  | none => rfl
  | some after =>
    simp only [Traced.result_bind, result_kmalloc, Option.bind_some,
      if_neg (UserMem.copyFromUser_ne_neg_one env.mem path pathMax)]
    cases env.new with
    | none => rfl
    | some next =>
      by_cases hpath : env.newPath
      · simp [hpath]
      · simp [hpath]

theorem result_removeFromBlacklistHeap (env : RemoveEnv) (path : ℕ) (bl : Blacklist) :
    (removeFromBlacklistHeap env path bl).result = removeFromBlacklist env path bl := by
  unfold removeFromBlacklistHeap removeFromBlacklist
  cases env.kernelPath with
  | none => rfl
  | some after =>
    simp only [Traced.result_bind, result_kmalloc, Option.bind_some,
      if_neg (UserMem.copyFromUser_ne_neg_one env.mem path pathMax), Traced.result_ofOption]

end Blacklist

theorem result_printScanHeap (env : PrintEnv) (nodes : List BlacklistNode) (fuel n curr : ℕ)
    (entries : List UInt8) :
    (printScanHeap env nodes fuel n curr entries).result =
      printScan env nodes fuel n curr entries := by
  induction fuel generalizing n curr entries with
  | zero => rfl
  | succ fuel ih =>
    simp only [printScanHeap, printScan, Traced.result_bind, Traced.result_ofOption,
      Option.bind_eq_bind]
    congr 1
    funext node
    split_ifs
    · rfl
    · cases node.next <;> simp [ih]

@[simp]
theorem result_kmallocBytes (bytes : ℕ) (p : Pointer) :
    (kmallocBytes bytes p).result = some () := by
  unfold kmallocBytes
  split_ifs <;> rfl

/-- There is a block for the header, if there is a header. -/
def PrintsToBlock (bl : Blacklist) (blacklistSize : ℤ) : Prop :=
  bl.head ≠ none → entriesBytes blacklistSize ≠ 0

/-- A block has room for the header. -/
theorem sprintfWithin_entriesBytes {blacklistSize : ℤ} (h : entriesBytes blacklistSize ≠ 0) :
    sprintfWithin (entriesBytes blacklistSize) (text "Blacklist elements\n") =
      some (text "Blacklist elements\n") := by
  rw [sprintfWithin_header, if_neg]
  intro hdvd
  refine h ?_
  rw [entriesBytes, toInt32, Int.bmod_def, unsigned, pathMax]
  split_ifs <;> omega

theorem result_sysPrintBlacklistHeap (env : PrintEnv) {bl : Blacklist} {blacklistSize : ℤ}
    (h : PrintsToBlock bl blacklistSize) :
    (sysPrintBlacklistHeap env bl blacklistSize).result =
      sysPrintBlacklist env bl blacklistSize := by
  unfold sysPrintBlacklistHeap sysPrintBlacklist
  by_cases hsize : blacklistSize ≠ bl.size
  · simp [hsize]
  by_cases hkmalloc : env.kmalloc = true
  · simp only [if_neg hsize, hkmalloc, Bool.not_true, Bool.false_eq_true, if_false]
    cases hhead : bl.head with
    | none => by_cases hcopy : env.copyToUser = 0 <;> simp [hcopy]
    | some curr =>
      have hblock := h (by rw [hhead]; exact Option.some_ne_none curr)
      simp only [Traced.result_bind, result_kmallocBytes, Option.bind_some, Traced.result_ofOption,
        sprintfWithin_entriesBytes hblock, result_printScanHeap, Option.bind_eq_bind]
      congr 1
      funext entries
      cases entries with
      | none => rfl
      | some entries => by_cases hcopy : env.copyToUser = 0 <;> simp [hcopy]
  · simp [hsize, hkmalloc]

section Calls

variable (sha256 : List UInt8 → Vector UInt8 32) (array : KprobeArray) (env : CallEnv) (euid : ℕ)
  (s : Shared)

theorem result_checkedHeap (first : ℤ) (password : ℕ) {body : Allocating ℤ}
    {body' : Option ℤ × Shared} (hbody : body.result = body'.1) :
    (checkedHeap sha256 env euid s first password body).result =
      (checked sha256 env euid s first password body').1 := by
  unfold checkedHeap checked
  by_cases hfirst : first ≠ 0
  · simp [hfirst]
  · simp only [if_neg hfirst, Traced.result_bind, result_passwordCheckHeap]
    cases passwordCheck sha256 env.password password s.rf with
    | none => rfl
    | some ret =>
      simp only [Option.bind_some]
      split_ifs
      · rfl
      · rfl
      · exact hbody

theorem result_returnStateHeap (state : ℤ) :
    (returnStateHeap env state).result = some (if env.stateString then state else -ENOMEM) := by
  unfold returnStateHeap
  split_ifs <;> rfl

/-- The call prints no header without a block. -/
def Syscall.Prints : Syscall → Prop
  | .printBlacklist _ blacklistSize => PrintsToBlock s.rf.blacklist blacklistSize
  | _ => True

theorem Syscall.result_heap (call : Syscall) (h : call.Prints s) :
    (call.heap sha256 array env euid s).result = (call.run sha256 array env euid s).1 := by
  cases call with
  | switchRfState state password =>
    refine result_checkedHeap sha256 env euid s _ _ ?_
    simp only [Traced.result_bind, Traced.result_ofOption, result_returnStateHeap]
    cases (if state = 0 ∨ state = 2 then enableKprobes array env.probe s.probes
      else disableKprobes array env.probe s.probes) <;> rfl
  | getRfState => exact result_returnStateHeap env s.rf.state
  | addToBlacklist path password =>
    refine result_checkedHeap sha256 env euid s _ _ ?_
    simp only [Traced.result_bind, Blacklist.result_addToBlacklistHeap]
    cases Blacklist.addToBlacklist env.add path s.rf.blacklist <;> rfl
  | removeFromBlacklist path password =>
    refine result_checkedHeap sha256 env euid s _ _ ?_
    simp only [Traced.result_bind, Blacklist.result_removeFromBlacklistHeap]
    cases Blacklist.removeFromBlacklist env.remove path s.rf.blacklist <;> rfl
  | printBlacklist buffer blacklistSize =>
    simp only [Syscall.heap, Syscall.run, Traced.result_bind, result_sysPrintBlacklistHeap _ h]
    cases sysPrintBlacklist env.print s.rf.blacklist blacklistSize <;> rfl
  | getBlacklistSize => rfl

end Calls

theorem result_kstrdupMessage (message : ProbeData) :
    (kstrdupMessage message).result = some message := by
  cases message <;> rfl

section Handlers

variable (rf : ReferenceMonitor) (env : HandlerEnv)

@[simp]
theorem result_denyHeap (what : String) (fullPath : Option (List UInt8)) :
    (denyHeap env what fullPath).result =
      (sprintfInto (some errorMessageSize) (messageText what fullPath)).bind fun _ =>
        some (0, errorMessage env what fullPath) := by
  simp [denyHeap, result_kstrdupMessage]

theorem result_pathEntryHandlerHeap (what : String) (dentry : Dentry) :
    (pathEntryHandlerHeap what rf env dentry).result =
      pathEntryHandler (some errorMessageSize) what rf env (some dentry) := by
  simp only [pathEntryHandlerHeap, pathEntryHandler, Traced.result_bind,
    result_getPathFromDentryHeap, Option.bind_some, Traced.result_ofOption, Option.bind_eq_bind]
  congr 1
  funext ret
  split_ifs <;> simp

theorem result_pathsEntryHandlerHeap (whatOld what : String) (oldDentry dentry : Dentry) :
    (pathsEntryHandlerHeap whatOld what rf env oldDentry dentry).result =
      pathsEntryHandler (some errorMessageSize) whatOld what rf env (some oldDentry)
        (some dentry) := by
  simp only [pathsEntryHandlerHeap, pathsEntryHandler, Traced.result_bind,
    result_getPathFromDentryHeap, Option.bind_some, Traced.result_ofOption, Option.bind_eq_bind]
  congr 1
  funext ret
  split_ifs
  · simp
  · simp only [Traced.result_bind, Traced.result_ofOption]
    congr 1
    funext ret
    split_ifs <;> simp

theorem result_inodeRmdirEntryHandlerHeap {dentry : Dentry} {regs : PtRegs}
    (hsi : regs.si = .dentry dentry) :
    (inodeRmdirEntryHandlerHeap rf env dentry).result =
      inodeRmdirEntryHandler (some errorMessageSize) rf env regs := by
  simp only [inodeRmdirEntryHandlerHeap, inodeRmdirEntryHandler, hsi, Arg.asDentry,
    Traced.result_bind, result_getPathFromDentryHeap, Option.bind_some, Traced.result_ofOption,
    Option.bind_eq_bind]
  congr 1
  funext ret
  split_ifs
  · simp
  · simp only [Traced.result_bind, result_getPathFromDentryHeap, Option.bind_some,
      Traced.result_ofOption]
    congr 1
    funext ret
    split_ifs <;> simp

theorem ProbedCall.result_entryHandlerHeap (call : ProbedCall) :
    (call.entryHandlerHeap rf env).result = call.boundedEntryHandler rf env := by
  cases call with
  | securityFileOpen file =>
    simp only [entryHandlerHeap, ProbedCall.boundedEntryHandler, ProbedCall.function,
      ProbedFunction.entryHandler, ProbedCall.regs, openEntryHandler, Arg.asFile,
      Option.bind_eq_bind, Option.bind_some]
    split_ifs
    · exact result_pathEntryHandlerHeap rf env _ _
    · rfl
  | securityInodeRmdir dentry => exact result_inodeRmdirEntryHandlerHeap rf env rfl
  | securityInodeLink oldDentry newDentry => exact result_pathsEntryHandlerHeap rf env _ _ _ _
  | securityInodeRename oldDentry newDentry => exact result_pathsEntryHandlerHeap rf env _ _ _ _
  | securityInodeUnlink dentry => exact result_pathEntryHandlerHeap rf env _ _
  | securityInodeSymlink dentry => exact result_pathEntryHandlerHeap rf env _ _
  | securityInodeCreate dentry => exact result_pathEntryHandlerHeap rf env _ _
  | securityInodeMkdir dentry => exact result_pathEntryHandlerHeap rf env _ _
  | vfsWrite file => exact result_pathEntryHandlerHeap rf env _ _
  | vfsLlseek file => exact result_pathEntryHandlerHeap rf env _ _

end Handlers

theorem result_kstrdupPath (succeeds : Bool) (exePath : Option (List UInt8)) :
    (kstrdupPath succeeds exePath).result =
      some (if succeeds then exePath.map CString.ofMem else none) := by
  cases exePath <;> cases succeeds <;> rfl

theorem result_writeOnLogHeap (env : WriteOnLogEnv) (task : Task) :
    (writeOnLogHeap env task).result = writeOnLog env task := by
  unfold writeOnLogHeap writeOnLog
  by_cases hdata : env.logData
  · simp only [hdata, Bool.not_true, Bool.false_eq_true, if_false, Traced.result_bind,
      result_kmalloc, Option.bind_some, Traced.result_ofOption, result_getPathFromDentryHeap,
      result_kstrdupPath, Option.bind_eq_bind]
    congr 1
    funext exeDentry
    by_cases hwork : env.defWork <;> simp [hwork]
  · simp [hdata]

theorem LogFs.result_onefileWriteHeap (env : WriteEnv) (data : List UInt8) (fs : Fs) :
    (onefileWriteHeap env data fs).result = onefileWrite env data fs := by
  unfold onefileWriteHeap onefileWrite
  by_cases hkmalloc : env.kmalloc = true
  · by_cases hcopied : env.copied ≠ data.length
    · simp [hkmalloc, hcopied]
    · simp only [hkmalloc, Bool.not_true, Bool.false_eq_true, if_false, Traced.result_bind,
        result_kmalloc, Option.bind_some, if_neg hcopied]
      cases BlockDevice.read fs.device env.sbBread
          (unsigned 64 (Target.ofSize (unsigned 64 fs.iSize) data.length).blockToWrite).toNat with
      | none => rfl
      | some bh => simp
  · simp [hkmalloc]

end StackReferenceMonitor
