import StackReferenceMonitor.Foundations.Locks
import StackReferenceMonitor.Log.Defs
import StackReferenceMonitor.LogFs.Defs
import StackReferenceMonitor.Syscalls.Registration

/-!
# The functions that take locks, with their lock operations

The functions of the kernel modules that take or give back a lock, as they are modelled elsewhere,
with each `spin_lock`, `spin_unlock`, `mutex_lock` and `mutex_unlock` at its place in the source.
Several of them give the lock back inside a loop, or on each of many ways out. Without the lock
operations these are the functions themselves: one `result_` theorem for each.

## Main definitions

* `Lock`: the three locks.
* `addToBlacklistLocks`, `removeFromBlacklistLocks`, `isBlacklistedLocks`,
  `sysSwitchRfStateLocks`, `loadModuleLocks`, `writeOnLogLocks`, `onefilefsReadLocks`,
  `onefileWriteLocks`: the functions.
-/

namespace StackReferenceMonitor

open Traced (emit ofOption)
open MachineInt (signed unsigned)

/-- The locks. -/
inductive Lock where
  /-- `reference_monitor.lock`. -/
  | referenceMonitor
  /-- `def_work_lock`. -/
  | defWork
  /-- `mutex`, of the log file system. -/
  | mutex
  deriving DecidableEq

/-- A computation that operates on the locks. -/
abbrev Locked (α : Type) := Traced (LockOp Lock) α

/-- `spin_lock` or `mutex_lock`. -/
def lock (l : Lock) : Locked Unit :=
  emit (.acquire l)

/-- `spin_unlock` or `mutex_unlock`. -/
def unlock (l : Lock) : Locked Unit :=
  emit (.release l)

/-! ### `utils/blacklist.c` -/

namespace Blacklist

/-- The loop of `add_to_blacklist`, which gives the lock back when it finds the path. -/
def addScanLocks (nodes : List BlacklistNode) (kernelRelPath : CStr) :
    ℕ → ℕ → Locked (Option ℕ)
  | 0, _ => ofOption none
  | fuel + 1, curr => do
    let node ← ofOption nodes[curr]?
    match node.next with
    | some next =>
      if CString.strcmp node.val.bytes kernelRelPath.bytes = 0 then
        unlock .referenceMonitor
        return none
      else addScanLocks nodes kernelRelPath fuel next
    | none =>
      if CString.strcmp node.val.bytes kernelRelPath.bytes = 0 then
        unlock .referenceMonitor
        return none
      else return some curr

/-- `add_to_blacklist` from its `spin_lock` on. -/
def addLockedLocks (bl : Blacklist) (new : BlacklistNode) : Locked (ℤ × Blacklist) := do
  lock .referenceMonitor
  let addr := bl.nodes.length
  let nodes := LinkedList.alloc bl.nodes new
  match bl.head with
  | none =>
    unlock .referenceMonitor
    return (0, { head := some addr, size := toInt32 (bl.size + 1), nodes })
  | some curr =>
    let node ← ofOption nodes[curr]?
    match node.next with
    | none =>
      if CString.strcmp node.val.bytes new.val.bytes = 0 then
        unlock .referenceMonitor
        return (-EEXIST, { bl with nodes })
      else
        unlock .referenceMonitor
        return (0, { bl with
          size := toInt32 (bl.size + 1)
          nodes := LinkedList.setNext nodes curr (some addr) })
    | some _ =>
      match ← addScanLocks nodes new.val nodes.length curr with
      -- the loop has given the lock back
      | none => return (-EEXIST, { bl with nodes })
      | some last =>
        unlock .referenceMonitor
        return (0, { bl with
          size := toInt32 (bl.size + 1)
          nodes := LinkedList.setNext nodes last (some addr) })

/-- `add_to_blacklist`. The lock is taken after all copies and allocations. -/
def addToBlacklistLocks (env : AddEnv) (path : ℕ) (bl : Blacklist) : Locked (ℤ × Blacklist) :=
  match env.kernelRelPath with
  | none => return (-ENOMEM, bl)
  | some after =>
    let (buffer, ret) := env.mem.copyFromUser path pathMax
    if (ret : ℤ) = -1 then return (-EAGAIN, bl)
    else
      match env.new with
      | none => return (-ENOMEM, bl)
      | some next =>
        if env.newPath then addLockedLocks bl ⟨CString.ofMem (buffer ++ after), next⟩
        else ofOption none

/-- `remove_from_blacklist` from its `spin_lock` on. -/
def removeLockedLocks (bl : Blacklist) (kernelPath : CStr) : Locked (ℤ × Blacklist) := do
  lock .referenceMonitor
  match bl.head with
  | none =>
    -- `not_found`
    unlock .referenceMonitor
    return (-EINVAL, bl)
  | some curr =>
    let node ← ofOption bl.nodes[curr]?
    if CString.strcmp node.val.bytes kernelPath.bytes = 0 then
      -- `found`
      unlock .referenceMonitor
      return (0, { bl with head := node.next, size := toInt32 (bl.size - 1) })
    else
      match ← ofOption (removeScan bl.nodes kernelPath (bl.nodes.length + 1) none (some curr)) with
      | (_, none) =>
        unlock .referenceMonitor
        return (-EINVAL, bl)
      | (prev, some found) =>
        let prev ← ofOption prev
        let node ← ofOption bl.nodes[found]?
        unlock .referenceMonitor
        return (0, { bl with nodes := LinkedList.setNext bl.nodes prev node.next })

/-- `remove_from_blacklist`. -/
def removeFromBlacklistLocks (env : RemoveEnv) (path : ℕ) (bl : Blacklist) :
    Locked (ℤ × Blacklist) :=
  match env.kernelPath with
  | none => return (-ENOMEM, bl)
  | some after =>
    let (buffer, ret) := env.mem.copyFromUser path pathMax
    if (ret : ℤ) = -1 then return (-EAGAIN, bl)
    else removeLockedLocks bl (CString.ofMem (buffer ++ after))

end Blacklist

/-! ### `stack_reference_monitor.c` -/

/-- The loop of `is_blacklisted`, which gives the lock back when it finds an entry. -/
def lookupScanLocks (nodes : List BlacklistNode) (path : Option (List UInt8)) :
    ℕ → Option ℕ → Locked ℤ
  | 0, _ => ofOption none
  | _ + 1, none => do
    unlock .referenceMonitor
    return 0
  | fuel + 1, some curr => do
    let node ← ofOption nodes[curr]?
    if ← ofOption (entryTest path node.val) then
      unlock .referenceMonitor
      return 1
    else lookupScanLocks nodes path fuel node.next

/-- `is_blacklisted`. The shortcuts come before the lock. -/
def isBlacklistedLocks (rf : ReferenceMonitor) (path : Option (List UInt8)) : Locked ℤ :=
  if rf.blacklist.size = 0 then return 0
  else if rf.state = 1 ∨ rf.state = 3 then return 0
  else do
    lock .referenceMonitor
    lookupScanLocks rf.blacklist.nodes path (rf.blacklist.nodes.length + 1) rf.blacklist.head

section Switch

variable (sha256 : List UInt8 → Vector UInt8 32) (array : KprobeArray) (env : CallEnv) (euid : ℕ)
  (s : Shared)

/-- The checks of a call that changes something. All of them come before the lock. -/
def checkedLocks (first : ℤ) (password : ℕ) (body : Locked (ℤ × Shared)) :
    Locked (ℤ × Shared) :=
  if first ≠ 0 then return (first, s)
  else do
    let ret ← ofOption (passwordCheck sha256 env.password password s.rf)
    if ret ≠ 0 then return (ret, s)
    else if euidCheck euid ≠ 0 then return (euidCheck euid, s)
    else body

/-- `sys_switch_rf_state`. The section is the write of the state, and the loops come after it. -/
def sysSwitchRfStateLocks (state : ℤ) (password : ℕ) : Locked (ℤ × Shared) :=
  checkedLocks sha256 env euid s (rfStateCheck state) password do
    lock .referenceMonitor
    let rf := { s.rf with state }
    unlock .referenceMonitor
    let probes ← ofOption <|
      if state = 0 ∨ state = 2 then enableKprobes array env.probe s.probes
      else disableKprobes array env.probe s.probes
    return (if env.stateString then rf.state else -ENOMEM, { rf, probes })

end Switch

/-- `init_module`. The monitor is reset under the lock, and the digest is stored without it. -/
def loadModuleLocks (sha256 : List UInt8 → Vector UInt8 32) (env : LoadEnv) (password : CStr) :
    Locked (Except ℤ (KprobeArray × Shared)) :=
  if env.initializeSyscalls ≠ 0 then return .error env.initializeSyscalls
  else do
    lock .referenceMonitor
    let rf : ReferenceMonitor := { state := 1, password := none, blacklist := Blacklist.empty }
    unlock .referenceMonitor
    let rf := { rf with password := encryptPassword sha256 env.encrypt password }
    return .ok ((kretprobeInit env.register).2, { rf, probes := fun _ => false })

/-! ### `log/logger.c` -/

/-- `write_on_log`. It gives `def_work_lock` back on two ways out, and takes it nowhere. -/
def writeOnLogLocks (env : WriteOnLogEnv) (task : Task) : Locked (Option LogData) :=
  if !env.logData then do
    unlock .defWork
    return none
  else do
    let exeDentry ← ofOption task.mm
    let exePath := getPathFromDentry env.path exeDentry
    let logData : LogData :=
      { tid := task.pid
        tgid := task.tgid
        uid := task.uid
        euid := task.euid
        exePath := if env.kstrdup then exePath.map CString.ofMem else none }
    if env.defWork then return some logData
    else
      unlock .defWork
      return none

/-! ### `log-filesystem/file.c` -/

namespace LogFs

/-- `onefilefs_read`. -/
def onefilefsReadLocks (env : ReadEnv) (d : Device) (fileSize : ℤ) (len : ℕ) (off : ℤ) :
    Locked ReadResult := do
  lock .mutex
  if unsigned 64 off ≥ fileSize then
    unlock .mutex
    return ⟨0, [], off⟩
  else
    let len := if unsigned 64 (off + len) > fileSize then unsigned 64 (fileSize - off) else len
    let offset := off.tmod 4096
    let len := if unsigned 64 (offset + len) > 4096 then unsigned 64 (4096 - offset) else len
    let blockToRead := signed 32 (off.tdiv 4096 + 2)
    match d.read env.sbBread (unsigned 64 blockToRead).toNat with
    | none =>
      unlock .mutex
      return ⟨- EIO, [], off⟩
    | some bh =>
      let copied := len.toNat - env.copyToUser len.toNat
      let bytes ← ofOption (copyOut bh offset copied)
      unlock .mutex
      return ⟨copied, bytes, off + copied⟩

/-- `onefile_write`. -/
def onefileWriteLocks (env : WriteEnv) (data : List UInt8) (fs : Fs) : Locked (ℤ × Fs) := do
  lock .mutex
  let fileSize := unsigned 64 fs.iSize
  if !env.kmalloc then
    unlock .mutex
    return (0, fs)
  else if env.copied ≠ data.length then
    unlock .mutex
    return (0, fs)
  else
    let target := Target.ofSize fileSize data.length
    let block := (unsigned 64 target.blockToWrite).toNat
    match fs.device.read env.sbBread block with
    | none =>
      unlock .mutex
      return (- EIO, fs)
    | some bh =>
      let bh ← ofOption (memcpy bh target.blockOffset data)
      let newSize := unsigned 64 (target.offset + data.length)
      unlock .mutex
      return (data.length,
        { device := fs.device.write block bh
          iSize := if newSize > fileSize then signed 64 newSize else fs.iSize })

end LogFs

/-! ### Without the lock operations -/

@[simp]
theorem result_lock (l : Lock) : (lock l).result = some () := rfl

@[simp]
theorem result_unlock (l : Lock) : (unlock l).result = some () := rfl

namespace Blacklist

theorem result_addScanLocks (nodes : List BlacklistNode) (kernelRelPath : CStr) (fuel curr : ℕ) :
    (addScanLocks nodes kernelRelPath fuel curr).result =
      addScan nodes kernelRelPath fuel curr := by
  induction fuel generalizing curr with
  | zero => rfl
  | succ fuel ih =>
    simp only [addScanLocks, addScan, Traced.result_bind, Traced.result_ofOption,
      Option.bind_eq_bind]
    congr 1
    funext node
    cases node.next with
    | none => split_ifs <;> simp
    | some next => split_ifs <;> simp [ih]

theorem result_addLockedLocks (bl : Blacklist) (new : BlacklistNode) :
    (addLockedLocks bl new).result = addLocked bl new := by
  simp only [addLockedLocks, addLocked, Traced.result_bind, result_lock, Option.bind_some]
  cases bl.head with
  | none => simp
  | some curr =>
    simp only [Traced.result_bind, Traced.result_ofOption, Option.bind_eq_bind]
    congr 1
    funext node
    cases node.next with
    | none => split_ifs <;> simp
    | some next =>
      simp only [Traced.result_bind, result_addScanLocks]
      congr 1
      funext last
      cases last <;> simp

theorem result_addToBlacklistLocks (env : AddEnv) (path : ℕ) (bl : Blacklist) :
    (addToBlacklistLocks env path bl).result = addToBlacklist env path bl := by
  unfold addToBlacklistLocks addToBlacklist
  cases env.kernelRelPath with
  | none => rfl
  | some after =>
    simp only [if_neg (UserMem.copyFromUser_ne_neg_one env.mem path pathMax)]
    cases env.new with
    | none => rfl
    | some next =>
      dsimp only
      split
      · exact result_addLockedLocks bl _
      · rfl

theorem result_removeLockedLocks (bl : Blacklist) (kernelPath : CStr) :
    (removeLockedLocks bl kernelPath).result = removeLocked bl kernelPath := by
  simp only [removeLockedLocks, removeLocked, Traced.result_bind, result_lock, Option.bind_some]
  cases bl.head with
  | none => simp
  | some curr =>
    simp only [Traced.result_bind, Traced.result_ofOption, Option.bind_eq_bind]
    congr 1
    funext node
    split_ifs
    · simp
    · simp only [Traced.result_bind, Traced.result_ofOption]
      congr 1
      funext scanned
      obtain ⟨prev, found⟩ := scanned
      cases found <;> simp

theorem result_removeFromBlacklistLocks (env : RemoveEnv) (path : ℕ) (bl : Blacklist) :
    (removeFromBlacklistLocks env path bl).result = removeFromBlacklist env path bl := by
  unfold removeFromBlacklistLocks removeFromBlacklist
  cases env.kernelPath with
  | none => rfl
  | some after =>
    simp only [if_neg (UserMem.copyFromUser_ne_neg_one env.mem path pathMax)]
    exact result_removeLockedLocks bl _

end Blacklist

theorem result_lookupScanLocks (nodes : List BlacklistNode) (path : Option (List UInt8))
    (fuel : ℕ) (curr : Option ℕ) :
    (lookupScanLocks nodes path fuel curr).result = lookupScan nodes path fuel curr := by
  induction fuel generalizing curr with
  | zero => rfl
  | succ fuel ih =>
    cases curr with
    | none => simp [lookupScanLocks, lookupScan]
    | some curr =>
      simp only [lookupScanLocks, lookupScan, Traced.result_bind, Traced.result_ofOption,
        Option.bind_eq_bind]
      congr 1
      funext node
      congr 1
      funext found
      split_ifs <;> simp [ih]

theorem result_isBlacklistedLocks (rf : ReferenceMonitor) (path : Option (List UInt8)) :
    (isBlacklistedLocks rf path).result = isBlacklisted rf path := by
  unfold isBlacklistedLocks isBlacklisted
  split_ifs
  · rfl
  · rfl
  · simp [result_lookupScanLocks, walk]

section Switch

variable {sha256 : List UInt8 → Vector UInt8 32} {array : KprobeArray} {env : CallEnv} {euid : ℕ}
  {s : Shared}

/-- The checks fail and take no lock, or they pass. -/
theorem checkedLocks_cases (first : ℤ) (password : ℕ) (body : Locked (ℤ × Shared)) :
    (checkedLocks sha256 env euid s first password body).events = [] ∨
      checkedLocks sha256 env euid s first password body = body := by
  unfold checkedLocks
  by_cases hfirst : first ≠ 0
  · rw [if_pos hfirst]
    exact .inl rfl
  rw [if_neg hfirst]
  cases passwordCheck sha256 env.password password s.rf with
  | none => exact .inl rfl
  | some ret =>
    rw [Traced.ofOption_some_bind]
    split_ifs
    · exact .inl rfl
    · exact .inl rfl
    · exact .inr rfl

/-- What the call returns, and what it leaves if it returns. -/
theorem result_sysSwitchRfStateLocks (state : ℤ) (password : ℕ) :
    (sysSwitchRfStateLocks sha256 array env euid s state password).result =
      (sysSwitchRfState sha256 array env euid s state password).1.map
        (·, (sysSwitchRfState sha256 array env euid s state password).2) := by
  unfold sysSwitchRfStateLocks sysSwitchRfState checkedLocks checked
  by_cases hfirst : rfStateCheck state ≠ 0
  · simp only [if_pos hfirst]
    rfl
  simp only [if_neg hfirst]
  cases passwordCheck sha256 env.password password s.rf with
  | none => rfl
  | some ret =>
    rw [Traced.ofOption_some_bind]
    by_cases hret : ret ≠ 0
    · simp only [if_pos hret]
      rfl
    by_cases heuid : euidCheck euid ≠ 0
    · simp only [if_neg hret, if_pos heuid]
      rfl
    simp only [if_neg hret, if_neg heuid, enable_or_disable, Traced.result_bind, result_lock,
      result_unlock, Option.bind_some, Traced.result_ofOption]
    cases setKprobes array env.probe (arms state) s.probes <;> rfl

end Switch

theorem result_loadModuleLocks (sha256 : List UInt8 → Vector UInt8 32) (env : LoadEnv)
    (password : CStr) :
    (loadModuleLocks sha256 env password).result = some (loadModule sha256 env password) := by
  unfold loadModuleLocks loadModule
  split_ifs <;> rfl

theorem result_writeOnLogLocks (env : WriteOnLogEnv) (task : Task) :
    (writeOnLogLocks env task).result = writeOnLog env task := by
  unfold writeOnLogLocks writeOnLog
  by_cases hdata : env.logData <;> simp only [hdata, Bool.not_true, Bool.not_false, if_true]
  · simp only [Bool.false_eq_true, if_false, Traced.result_bind, Traced.result_ofOption,
      Option.bind_eq_bind]
    congr 1
    funext exeDentry
    by_cases hwork : env.defWork <;> simp [hwork]
  · simp

namespace LogFs

theorem result_onefilefsReadLocks (env : ReadEnv) (d : Device) (fileSize : ℤ) (len : ℕ) (off : ℤ) :
    (onefilefsReadLocks env d fileSize len off).result =
      onefilefsRead env d fileSize len off := by
  simp only [onefilefsReadLocks, onefilefsRead, Traced.result_bind, result_lock, Option.bind_some]
  split_ifs <;> first | rfl | (split <;> simp_all)

theorem result_onefileWriteLocks (env : WriteEnv) (data : List UInt8) (fs : Fs) :
    (onefileWriteLocks env data fs).result = onefileWrite env data fs := by
  simp only [onefileWriteLocks, onefileWrite, Traced.result_bind, result_lock, Option.bind_some]
  split_ifs <;> first | rfl | (split <;> simp_all)

end LogFs

end StackReferenceMonitor
