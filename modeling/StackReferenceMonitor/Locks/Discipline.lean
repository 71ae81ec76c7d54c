import StackReferenceMonitor.Blacklist.Lookup
import StackReferenceMonitor.Log.Feedback
import StackReferenceMonitor.LogFs.BlockNumbers
import StackReferenceMonitor.Locks.Sections

/-!
# Lock discipline

Each function that takes a lock gives it back on every way out, so that its execution is disciplined
exactly when it does not stop while it holds the lock. A walk of a list ends, and a read of the log
file stays in its block. What does stop is a comparison with a `NULL` path, and a `memcpy` that
leaves the block.

`write_on_log` is the exception: it takes no lock, and gives one back when an allocation fails.

## Main definitions

* `LockedCall`: a call of one of the functions.
* `LockedCall.events`: the lock operations of its execution.

## Main results

* `lockDiscipline_iff`: the calls whose execution is disciplined.
-/

namespace StackReferenceMonitor

open Locks (Disciplined Releases)
open MachineInt (signed unsigned)

/-! ### Every way out gives the lock back -/

namespace Blacklist

/-- The loop of an addition has given the lock back exactly when it found the path. -/
theorem events_addScanLocks (nodes : List BlacklistNode) (kernelRelPath : CStr) (fuel curr : ℕ) :
    (addScanLocks nodes kernelRelPath fuel curr).events =
      if (addScanLocks nodes kernelRelPath fuel curr).result = some none then
        [.release .referenceMonitor] else [] := by
  induction fuel generalizing curr with
  | zero => rfl
  | succ fuel ih =>
    rw [addScanLocks]
    cases hnode : nodes[curr]? with
    | none => rfl
    | some node =>
      rw [Traced.bind_of_result (Traced.result_ofOption _), Traced.events_ofOption,
        List.nil_append]
      dsimp only
      by_cases hcmp : CString.strcmp node.val.bytes kernelRelPath.bytes = 0
      · simp only [if_pos hcmp]
        cases node.next <;> rfl
      · simp only [if_neg hcmp]
        cases node.next with
        | none => rfl
        | some next => exact ih next

theorem guarded_addLockedLocks (bl : Blacklist) (new : BlacklistNode) :
    Locks.Guarded .referenceMonitor (addLockedLocks bl new) := by
  refine ⟨_, rfl, ?_⟩
  dsimp only
  cases bl.head with
  | none => exact .release _ _
  | some curr =>
    refine .ofOption_bind fun node _ => ?_
    cases node.next with
    | none => exact .ite (.release _ _) (.release _ _)
    | some next =>
      have hevents := events_addScanLocks (LinkedList.alloc bl.nodes new) new.val
        (LinkedList.alloc bl.nodes new).length curr
      refine .bind (fun hstop => ?_) fun last hlast => ?_
      · rw [hevents, hstop]
        rfl
      · rw [hevents, hlast]
        cases last with
        | none => exact Or.inr ⟨rfl, rfl, rfl⟩
        | some last => exact Or.inl ⟨rfl, .release _ _⟩

theorem disciplined_addLockedLocks_iff (bl : Blacklist) (new : BlacklistNode) :
    Disciplined (addLockedLocks bl new).events ↔ (addLockedLocks bl new).result.isSome :=
  (guarded_addLockedLocks bl new).disciplined_iff

theorem guarded_removeLockedLocks (bl : Blacklist) (kernelPath : CStr) :
    Locks.Guarded .referenceMonitor (removeLockedLocks bl kernelPath) := by
  refine ⟨_, rfl, ?_⟩
  cases bl.head with
  | none => exact .release _ _
  | some curr =>
    refine .ofOption_bind fun node _ => .ite (.release _ _) (.ofOption_bind ?_)
    rintro ⟨prev, found⟩ -
    cases found with
    | none => exact .release _ _
    | some found => exact .ofOption_bind fun _ _ => .ofOption_bind fun _ _ => .release _ _

theorem disciplined_removeLockedLocks_iff (bl : Blacklist) (kernelPath : CStr) :
    Disciplined (removeLockedLocks bl kernelPath).events ↔
      (removeLockedLocks bl kernelPath).result.isSome :=
  (guarded_removeLockedLocks bl kernelPath).disciplined_iff

end Blacklist

theorem releases_lookupScanLocks (nodes : List BlacklistNode) (path : Option (List UInt8))
    (fuel : ℕ) (curr : Option ℕ) :
    Releases .referenceMonitor (lookupScanLocks nodes path fuel curr) := by
  induction fuel generalizing curr with
  | zero => exact .stop _
  | succ fuel ih =>
    cases curr with
    | none => exact .release _ _
    | some curr =>
      exact .ofOption_bind fun node _ => .ofOption_bind fun _ _ =>
        .ite (.release _ _) (ih node.next)

/-- A switch writes the state in a section that nothing can stop, if its checks pass. -/
theorem events_sysSwitchRfStateLocks (sha256 : List UInt8 → Vector UInt8 32) (array : KprobeArray)
    (env : CallEnv) (euid : ℕ) (s : Shared) (state : ℤ) (password : ℕ) :
    (sysSwitchRfStateLocks sha256 array env euid s state password).events = [] ∨
      (sysSwitchRfStateLocks sha256 array env euid s state password).events =
        [.acquire .referenceMonitor, .release .referenceMonitor] := by
  unfold sysSwitchRfStateLocks
  refine (checkedLocks_cases _ _ _).imp_right fun hbody => ?_
  rw [hbody]
  dsimp only
  -- the loops after it may stop on a `NULL` array, without the lock
  generalize (if state = 0 ∨ state = 2 then enableKprobes array env.probe s.probes
    else disableKprobes array env.probe s.probes) = probes
  cases probes <;> rfl

/-- So does `init_module` with the monitor. -/
theorem events_loadModuleLocks (sha256 : List UInt8 → Vector UInt8 32) (env : LoadEnv)
    (password : CStr) :
    (loadModuleLocks sha256 env password).events = [] ∨
      (loadModuleLocks sha256 env password).events =
        [.acquire .referenceMonitor, .release .referenceMonitor] := by
  unfold loadModuleLocks
  split_ifs
  · exact .inl rfl
  · exact .inr rfl

namespace LogFs

theorem guarded_onefilefsReadLocks (env : ReadEnv) (d : Device) (fileSize : ℤ) (len : ℕ)
    (off : ℤ) :
    Locks.Guarded .mutex (onefilefsReadLocks env d fileSize len off) := by
  refine ⟨_, rfl, ?_⟩
  refine .ite (.release _ _) ?_
  dsimp only
  cases d.read env.sbBread (unsigned 64 (signed 32 (off.tdiv 4096 + 2))).toNat with
  | none => exact .release _ _
  | some bh => exact .ofOption_bind fun _ _ => .release _ _

theorem disciplined_onefilefsReadLocks_iff (env : ReadEnv) (d : Device) (fileSize : ℤ) (len : ℕ)
    (off : ℤ) :
    Disciplined (onefilefsReadLocks env d fileSize len off).events ↔
      (onefilefsReadLocks env d fileSize len off).result.isSome :=
  (guarded_onefilefsReadLocks env d fileSize len off).disciplined_iff

theorem guarded_onefileWriteLocks (env : WriteEnv) (data : List UInt8) (fs : Fs) :
    Locks.Guarded .mutex (onefileWriteLocks env data fs) := by
  refine ⟨_, rfl, ?_⟩
  refine .ite (.release _ _) (.ite (.release _ _) ?_)
  dsimp only
  cases fs.device.read env.sbBread (unsigned 64 (fs.target data).blockToWrite).toNat with
  | none => exact .release _ _
  | some bh => exact .ofOption_bind fun _ _ => .release _ _

theorem disciplined_onefileWriteLocks_iff (env : WriteEnv) (data : List UInt8) (fs : Fs) :
    Disciplined (onefileWriteLocks env data fs).events ↔
      (onefileWriteLocks env data fs).result.isSome :=
  (guarded_onefileWriteLocks env data fs).disciplined_iff

end LogFs

/-! ### Which calls stop with the lock held -/

/-- An addition to a chain that ends returns. -/
theorem Blacklist.isSome_addLocked {bl : Blacklist} {xs : List (ℕ × CStr)} (h : bl.Lists xs)
    (new : BlacklistNode) : (addLocked bl new).isSome := by
  by_cases hmem : new.val ∈ xs.map Prod.snd
  · rw [addLocked_of_mem h hmem]
    rfl
  · induction xs using List.reverseRecOn with
    | nil =>
      rw [addLocked_nil h]
      rfl
    | append_singleton xs x _ =>
      rw [addLocked_concat h hmem]
      rfl

/-- So does a removal. -/
theorem Blacklist.isSome_removeLocked {bl : Blacklist} {xs : List (ℕ × CStr)} (h : bl.Lists xs)
    (p : CStr) : (removeLocked bl p).isSome := by
  by_cases hmem : p ∈ xs.map Prod.snd
  · obtain ⟨ys, a, zs, rfl, hnot⟩ := exists_first_of_mem hmem
    induction ys using List.reverseRecOn with
    | nil =>
      obtain ⟨next, -, -, hret⟩ := removeLocked_cons h
      rw [hret]
      rfl
    | append_singleton ys y _ =>
      rw [List.append_assoc] at h
      obtain ⟨next, -, -, hret⟩ := removeLocked_inner h hnot
      rw [hret]
      rfl
  · rw [removeLocked_of_notMem h hmem]
    rfl

/-- An addition takes the lock after all that may fail, and gives it back. -/
theorem Blacklist.disciplined_addToBlacklistLocks {bl : Blacklist} {xs : List (ℕ × CStr)}
    (h : bl.Lists xs) (env : AddEnv) (path : ℕ) :
    Disciplined (addToBlacklistLocks env path bl).events := by
  have hlocked : ∀ new, Disciplined (addLockedLocks bl new).events := by
    intro new
    rw [disciplined_addLockedLocks_iff, result_addLockedLocks]
    exact isSome_addLocked h new
  unfold addToBlacklistLocks
  cases env.kernelRelPath with
  | none => exact Locks.disciplined_nil
  | some after =>
    simp only [if_neg (UserMem.copyFromUser_ne_neg_one env.mem path pathMax)]
    cases env.new with
    | none => exact Locks.disciplined_nil
    | some next =>
      dsimp only
      split
      · exact hlocked _
      · exact Locks.disciplined_nil

/-- So does a removal. -/
theorem Blacklist.disciplined_removeFromBlacklistLocks {bl : Blacklist} {xs : List (ℕ × CStr)}
    (h : bl.Lists xs) (env : RemoveEnv) (path : ℕ) :
    Disciplined (removeFromBlacklistLocks env path bl).events := by
  unfold removeFromBlacklistLocks
  cases env.kernelPath with
  | none => exact Locks.disciplined_nil
  | some after =>
    simp only [if_neg (UserMem.copyFromUser_ne_neg_one env.mem path pathMax)]
    rw [disciplined_removeLockedLocks_iff, result_removeLockedLocks]
    exact isSome_removeLocked h _

/-- A walk of a chain that ends returns, unless it compares `NULL` with a character. -/
theorem isSome_walk_iff {bl : Blacklist} {xs : List (ℕ × CStr)} (h : bl.Lists xs)
    (path : Option (List UInt8)) :
    (walk bl path bl.head).isSome ↔ path.isSome ∨ ∀ x ∈ xs.head?, x.2.bytes = [] := by
  cases path with
  | some path => simp [walk_eq path h]
  | none =>
    cases xs with
    | nil =>
      have hhead : bl.head = none := h
      simp [walk, lookupScan, hhead]
    | cons x xs =>
      rw [walk_null h]
      split_ifs with hempty <;> simp [hempty]

/-- A look-up gives the lock back if its walk returns, and takes none before a shortcut. -/
theorem disciplined_isBlacklistedLocks_iff {rf : ReferenceMonitor} {xs : List (ℕ × CStr)}
    (h : rf.blacklist.Lists xs) (path : Option (List UInt8)) :
    Disciplined (isBlacklistedLocks rf path).events ↔
      path.isSome ∨ rf.blacklist.size = 0 ∨ rf.state = 1 ∨ rf.state = 3 ∨
        ∀ x ∈ xs.head?, x.2.bytes = [] := by
  unfold isBlacklistedLocks
  by_cases hsize : rf.blacklist.size = 0
  · rw [if_pos hsize]
    exact iff_of_true Locks.disciplined_nil (Or.inr (Or.inl hsize))
  rw [if_neg hsize]
  by_cases hstate : rf.state = 1 ∨ rf.state = 3
  · rw [if_pos hstate]
    exact iff_of_true Locks.disciplined_nil (by tauto)
  rw [if_neg hstate]
  refine (Locks.disciplined_acquire_iff (releases_lookupScanLocks _ _ _ _)).trans ?_
  rw [Traced.result_bind, Traced.result_emit, Option.bind_some, result_lookupScanLocks]
  refine (isSome_walk_iff h path).trans ?_
  tauto

/-- Code with one whole section at most is disciplined. -/
theorem disciplined_of_section {l : Lock} {ops : List (LockOp Lock)}
    (h : ops = [] ∨ ops = [.acquire l, .release l]) : Disciplined ops := by
  rcases h with rfl | rfl
  · exact Locks.disciplined_nil
  · exact Locks.disciplined_acquire_release l

/-- What `write_on_log` does with `def_work_lock` is to give it back when an allocation fails. -/
theorem disciplined_writeOnLogLocks_iff (env : WriteOnLogEnv) (task : Task) :
    Disciplined (writeOnLogLocks env task).events ↔
      env.logData ∧ (task.mm.isSome → env.defWork) := by
  unfold writeOnLogLocks
  by_cases hdata : env.logData = true
  · rw [if_neg (by simp [hdata])]
    cases task.mm with
    | none => exact iff_of_true Locks.disciplined_nil (by simp [hdata])
    | some exeDentry =>
      by_cases hwork : env.defWork = true
      · rw [Traced.bind_of_result (Traced.result_ofOption _)]
        simp only [if_pos hwork]
        exact iff_of_true Locks.disciplined_nil (by simp [hdata, hwork])
      · rw [Traced.bind_of_result (Traced.result_ofOption _)]
        simp only [if_neg hwork]
        exact iff_of_false (Locks.not_disciplined_release _ _) (by simp [hwork])
  · rw [if_pos (by simpa using hdata)]
    exact iff_of_false (Locks.not_disciplined_release _ _) (by simp [hdata])

namespace LogFs

/-- A read at a place that a file can have stays in its block. -/
theorem isSome_onefilefsRead (env : ReadEnv) (d : Device) {fileSize len off : ℕ}
    (hsize : fileSize < 2 ^ 64) (hlen : len < 2 ^ 63) (hoff : off < 2 ^ 63) :
    (onefilefsRead env d fileSize len off).isSome := by
  rcases Nat.lt_or_ge off fileSize with hlt | hge
  · obtain ⟨l, hfits, -, hread⟩ := cut_length hlt hsize hoff (by omega : len < 2 ^ 64)
    obtain ⟨hle, -⟩ := hfits (by omega)
    cases hbh : d.read env.sbBread (readSector off) with
    | none =>
      rw [(hread env d).1 hbh]
      rfl
    | some bh =>
      have hcopied : off % 4096 + (l - env.copyToUser l) ≤ blockSize := by
        unfold blockSize
        omega
      rw [(hread env d).2 bh hbh, copyOut_of_fits bh hcopied]
      rfl
  · rw [onefilefsRead_of_le env d len hge hoff]
    rfl

/-- The size of a file, and the number of bytes of a payload that is written to it, for which the
`memcpy` stays within the block. -/
def PayloadFits (iSize : ℤ) (payload : ℕ) : Prop :=
  payload = 0 ∨ payload ≤ blockSize ∧ (0 ≤ iSize ∨ 4096 ∣ iSize)

theorem isSome_memcpy_iff {fs : Fs} (hlo : -2 ^ 63 ≤ fs.iSize) (hhi : fs.iSize < 2 ^ 63)
    (bh : Block blockSize) (data : List UInt8) :
    (memcpy bh (fs.target data).blockOffset data).isSome ↔ PayloadFits fs.iSize data.length := by
  have hoffset : signed 64 (unsigned 64 fs.iSize) = fs.iSize := by
    rw [MachineInt.signed_unsigned, MachineInt.signed_64_of_mem hlo hhi]
  have hlt := Int.tmod_lt_of_pos fs.iSize (by decide : (0 : ℤ) < 4096)
  have hgt := Int.lt_tmod_of_pos fs.iSize (by decide : (0 : ℤ) < 4096)
  have hnonneg := fun h : 0 ≤ fs.iSize => Int.tmod_nonneg 4096 h
  have hnonpos : fs.iSize ≤ 0 → fs.iSize.tmod 4096 ≤ 0 := by
    intro hneg
    have hopp := Int.tmod_nonneg 4096 (Int.neg_nonneg.mpr hneg)
    rw [Int.neg_tmod] at hopp
    omega
  have hblockOffset : (fs.target data).blockOffset =
      if 4096 - fs.iSize.tmod 4096 < data.length then 0 else fs.iSize.tmod 4096 := by
    simp only [Fs.target, Target.ofSize, hoffset]
    rw [MachineInt.unsigned_of_mem (by omega) (by omega)]
    split_ifs <;> rfl
  have hsome : (memcpy bh (fs.target data).blockOffset data).isSome ↔
      data.length = 0 ∨ 0 ≤ (fs.target data).blockOffset ∧
        (fs.target data).blockOffset + data.length ≤ blockSize := by
    rw [memcpy, List.length_eq_zero_iff]
    split_ifs with hfits
    · exact iff_of_true rfl hfits
    · exact iff_of_false (by simp) hfits
  rw [hsome, hblockOffset, PayloadFits, Int.dvd_iff_tmod_eq_zero, blockSize]
  -- a remainder has the sign of the size
  split_ifs <;> omega

/-- A write returns if it fails before its `memcpy`, or that stays within the block. -/
theorem isSome_onefileWrite_iff {fs : Fs} (hlo : -2 ^ 63 ≤ fs.iSize) (hhi : fs.iSize < 2 ^ 63)
    (env : WriteEnv) (data : List UInt8) :
    (onefileWrite env data fs).isSome ↔
      env.bread data fs = none ∨ PayloadFits fs.iSize data.length := by
  cases hbread : env.bread data fs with
  | none =>
    rcases onefileWrite_of_bread_eq_none hbread with hret | hret <;> simp [hret]
  | some bh =>
    obtain ⟨iSize, hret⟩ := onefileWrite_of_bread hbread
    rw [hret, Option.isSome_map, isSome_memcpy_iff hlo hhi]
    simp

end LogFs

/-! ### All calls -/

/-- A call of one of the functions that take or give back a lock, with what it meets. -/
inductive LockedCall where
  /-- `add_to_blacklist`. -/
  | addToBlacklist (env : Blacklist.AddEnv) (path : ℕ) (bl : Blacklist)
  /-- `remove_from_blacklist`. -/
  | removeFromBlacklist (env : Blacklist.RemoveEnv) (path : ℕ) (bl : Blacklist)
  /-- `is_blacklisted`. -/
  | isBlacklisted (rf : ReferenceMonitor) (path : Option (List UInt8))
  /-- `sys_switch_rf_state`. -/
  | sysSwitchRfState (sha256 : List UInt8 → Vector UInt8 32) (array : KprobeArray) (env : CallEnv)
      (euid : ℕ) (s : Shared) (state : ℤ) (password : ℕ)
  /-- `init_module`. -/
  | loadModule (sha256 : List UInt8 → Vector UInt8 32) (env : LoadEnv) (password : CStr)
  /-- `write_on_log`. -/
  | writeOnLog (env : WriteOnLogEnv) (task : Task)
  /-- `onefilefs_read`. -/
  | onefilefsRead (env : LogFs.ReadEnv) (d : LogFs.Device) (fileSize len off : ℕ)
  /-- `onefile_write`. -/
  | onefileWrite (env : LogFs.WriteEnv) (data : List UInt8) (fs : LogFs.Fs)

namespace LockedCall

/-- The lock operations of the execution, up to its return or the point at which it stops. -/
def events : LockedCall → List (LockOp Lock)
  | addToBlacklist env path bl => (Blacklist.addToBlacklistLocks env path bl).events
  | removeFromBlacklist env path bl => (Blacklist.removeFromBlacklistLocks env path bl).events
  | isBlacklisted rf path => (isBlacklistedLocks rf path).events
  | sysSwitchRfState sha256 array env euid s state password =>
    (sysSwitchRfStateLocks sha256 array env euid s state password).events
  | loadModule sha256 env password => (loadModuleLocks sha256 env password).events
  | writeOnLog env task => (writeOnLogLocks env task).events
  | onefilefsRead env d fileSize len off =>
    (LogFs.onefilefsReadLocks env d fileSize len off).events
  | onefileWrite env data fs => (LogFs.onefileWriteLocks env data fs).events

/-- The arguments that a call can have. A list is a chain that ends. Sizes and positions are in the
range of their types, and the callers of the file operations pass no negative position. -/
def Valid : LockedCall → Prop
  | addToBlacklist _ _ bl => ∃ xs, bl.Lists xs
  | removeFromBlacklist _ _ bl => ∃ xs, bl.Lists xs
  | isBlacklisted rf _ => ∃ xs, rf.blacklist.Lists xs
  | sysSwitchRfState _ _ _ _ _ _ _ => True
  | loadModule _ _ _ => True
  | writeOnLog _ _ => True
  | onefilefsRead _ _ fileSize len off => fileSize < 2 ^ 64 ∧ len < 2 ^ 63 ∧ off < 2 ^ 63
  | onefileWrite _ _ fs => -2 ^ 63 ≤ fs.iSize ∧ fs.iSize < 2 ^ 63

/-- The calls that keep to the discipline:

* all calls that add to a list or remove from it, all switches, the load, and all reads;
* a look-up of a path that is not `NULL`, or that does not compare it with a character;
* a record of a denial, if each block that it comes to allocate is allocated;
* a write that fails before its `memcpy`, or whose payload fits in the block. -/
def Keeps : LockedCall → Prop
  | addToBlacklist _ _ _ => True
  | removeFromBlacklist _ _ _ => True
  | isBlacklisted rf path =>
    path.isSome ∨ rf.blacklist.size = 0 ∨ rf.state = 1 ∨ rf.state = 3 ∨
      ∀ xs, rf.blacklist.Lists xs → ∀ x ∈ xs.head?, x.2.bytes = []
  | sysSwitchRfState _ _ _ _ _ _ _ => True
  | loadModule _ _ _ => True
  | writeOnLog env task => env.logData ∧ (task.mm.isSome → env.defWork)
  | onefilefsRead _ _ _ _ _ => True
  | onefileWrite env data fs =>
    env.bread data fs = none ∨ LogFs.PayloadFits fs.iSize data.length

end LockedCall

/-- The execution of a call never acquires a lock that it holds, never releases one that it does not
hold, and ends with all locks free, if and only if the call is one of `Keeps`. -/
theorem lockDiscipline_iff (call : LockedCall) (h : call.Valid) :
    Locks.Disciplined call.events ↔ call.Keeps := by
  cases call with
  | addToBlacklist env path bl =>
    obtain ⟨xs, hxs⟩ := h
    exact iff_of_true (Blacklist.disciplined_addToBlacklistLocks hxs env path) trivial
  | removeFromBlacklist env path bl =>
    obtain ⟨xs, hxs⟩ := h
    exact iff_of_true (Blacklist.disciplined_removeFromBlacklistLocks hxs env path) trivial
  | isBlacklisted rf path =>
    obtain ⟨xs, hxs⟩ := h
    have hfirst : (∀ xs, rf.blacklist.Lists xs → ∀ x ∈ xs.head?, x.2.bytes = []) ↔
        ∀ x ∈ xs.head?, x.2.bytes = [] := by
      refine ⟨fun h => h xs hxs, fun h ys hys => ?_⟩
      rwa [hys.unique hxs]
    rw [LockedCall.Keeps, hfirst]
    exact disciplined_isBlacklistedLocks_iff hxs path
  | sysSwitchRfState sha256 array env euid s state password =>
    have hsection := events_sysSwitchRfStateLocks sha256 array env euid s state password
    exact iff_of_true (disciplined_of_section hsection) trivial
  | loadModule sha256 env password =>
    exact iff_of_true (disciplined_of_section (events_loadModuleLocks sha256 env password)) trivial
  | writeOnLog env task => exact disciplined_writeOnLogLocks_iff env task
  | onefilefsRead env d fileSize len off =>
    obtain ⟨hsize, hlen, hoff⟩ := h
    refine iff_of_true ?_ trivial
    rw [LockedCall.events, LogFs.disciplined_onefilefsReadLocks_iff,
      LogFs.result_onefilefsReadLocks]
    exact LogFs.isSome_onefilefsRead env d hsize hlen hoff
  | onefileWrite env data fs =>
    obtain ⟨hlo, hhi⟩ := h
    rw [LockedCall.events, LogFs.disciplined_onefileWriteLocks_iff,
      LogFs.result_onefileWriteLocks]
    exact LogFs.isSome_onefileWrite_iff hlo hhi env data

/-- A look-up of `/a` that finds it takes the lock and gives it back from inside the loop. -/
theorem lockDiscipline_lookup_pathA :
    let call : LockedCall := .isBlacklisted (monitorOf Blacklist.pathA) (some Blacklist.pathA.bytes)
    call.Valid ∧ call.events = [.acquire .referenceMonitor, .release .referenceMonitor] ∧
      Locks.Disciplined call.events := by
  intro call
  have hvalid : call.Valid := ⟨_, Blacklist.listOf_lists Blacklist.pathA⟩
  exact ⟨hvalid, by decide +kernel, (lockDiscipline_iff call hvalid).mpr (Or.inl rfl)⟩

/-- When the record cannot be allocated, `def_work_lock` is released and was not taken. -/
theorem lock_released_not_held :
    (LockedCall.writeOnLog { sampleLogEnv with logData := false } sampleUser).events =
        [.release .defWork] ∧
      ¬Locks.Disciplined
        (LockedCall.writeOnLog { sampleLogEnv with logData := false } sampleUser).events :=
  ⟨rfl, Locks.not_disciplined_release _ _⟩

end StackReferenceMonitor
