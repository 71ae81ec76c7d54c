import StackReferenceMonitor.Memory.Defs
import StackReferenceMonitor.Syscalls.Policy

/-!
# What becomes of the memory

A table of what each function leaves allocated: the blocks that nothing points to any more when it
has returned, or that it held when it was stopped by a fault. Few pointers are given back on every
way, and some on none: the path that a handler computes, the digest of a password that was checked,
the string for the audit, the copy of a path that is removed, and the record of a denial are lost by
each call.

## Main definitions

* `PathEnv.lost`, `passwordLost`, `Syscall.lost`, `ProbedCall.lost`, `deferredLost`: the table.
* `EncryptEnv.Sound`, `PrintEnv.Sound`: no pointer is freed that did not come from an allocation.

## Main results

* `Syscall.moves_heap`, `moves_probedCallHeap`, `moves_deferredWorkHeap`: what a system call, a
  probed call and a worker make of the heap.
-/

namespace StackReferenceMonitor

open Traced (emit ofOption)
open HeapOp (Moves Costs)
open CString (text)
open MachineInt (unsigned)

section Events

variable {β : Type}

@[simp]
theorem events_kmalloc_bind (p : Pointer) (f : Unit → Allocating β) :
    (kmalloc p >>= f).events = .alloc p :: (f ()).events := rfl

@[simp]
theorem events_kfree_bind (p : Pointer) (f : Unit → Allocating β) :
    (kfree p >>= f).events = .free p :: (f ()).events := rfl

end Events

/-! ### `utils/utils.c` -/

/-- There is memory for the descriptor, or none was asked for, or `digest` happens to be `NULL`
while it is not set. -/
def EncryptEnv.Sound (env : EncryptEnv) : Prop :=
  env.hashTfm = true → env.desc = true ∨ env.unset = false

instance (env : EncryptEnv) : Decidable env.Sound :=
  inferInstanceAs (Decidable (_ → _ ∨ _))

/-- What `encrypt_password` leaves. Its result is the caller's. -/
def encryptLost (sha256 : List UInt8 → Vector UInt8 32) (env : EncryptEnv)
    (password : Option CStr) : Multiset Pointer :=
  match hashOf sha256 env password with
  -- the length of `NULL` was taken
  | none => {.digest, .desc, .hashTfm}
  | some none => 0
  | some (some _) => {.result}

/-- What `password_check` leaves: the digest it has compared, and its copy if it has compared with
`NULL`. -/
def passwordLost (sha256 : List UInt8 → Vector UInt8 32) (env : PasswordEnv) (password : ℕ)
    (rf : ReferenceMonitor) : Multiset Pointer :=
  if env.kernelPassword = none then 0
  else if (env.mem.copyFromUser password passwLen).2 ≠ 0 then 0
  else
    match encryptPassword sha256 env.encrypt (env.copied password), rf.password with
    | none, _ => {.kernelPassword}
    | some _, none => {.result, .kernelPassword}
    | some _, some _ => {.result}

/-- What `get_path_from_dentry` leaves: its result, or the page. -/
def PathEnv.lost (env : PathEnv) (dentry : Dentry) : Multiset Pointer :=
  if env.page = true ∧ (dentryPathRaw dentry pathMax).isSome then
    if env.fullPath.isSome then {.fullPath} else {.buffer}
  else 0

/-- A password that is encrypted is encrypted soundly. -/
def PasswordEnv.Sound (env : PasswordEnv) (password : ℕ) : Prop :=
  env.kernelPassword ≠ none → (env.mem.copyFromUser password passwLen).2 = 0 → env.encrypt.Sound

instance (env : PasswordEnv) (password : ℕ) : Decidable (env.Sound password) :=
  inferInstanceAs (Decidable (_ → _ → _))

section Utils

variable {sha256 : List UInt8 → Vector UInt8 32}

theorem costs_encryptPasswordHeap {env : EncryptEnv} (henv : env.Sound) (password : Option CStr) :
    Costs (encryptPasswordHeap sha256 env password).events (encryptLost sha256 env password) := by
  obtain ⟨tfm, desc, digest, ret, result, unset⟩ := env
  cases tfm with
  | false => cases password <;> rfl
  | true =>
    cases desc with
    | false =>
      -- only the transform is freed
      obtain rfl : unset = false := (henv rfl).resolve_left (by simp)
      cases password <;> rfl
    | true =>
      cases digest with
      | false => cases password <;> rfl
      | true =>
        cases password with
        | none => rfl
        | some password =>
          by_cases hret : ret = 0
          · subst hret
            cases result <;> rfl
          · have hevents : (encryptPasswordHeap sha256 ⟨true, true, true, ret, result, unset⟩
                (some password)).events = [.alloc .hashTfm, .alloc .desc, .alloc .digest,
                  .free .digest, .free .desc, .free .hashTfm] := by
              simp [encryptPasswordHeap, hret]
            rw [hevents, encryptLost, hashOf, encryptPassword, if_neg (by simp [hret])]
            rfl

theorem wild_mem_encryptPasswordHeap {env : EncryptEnv} (henv : ¬env.Sound)
    (password : Option CStr) : .wild ∈ (encryptPasswordHeap sha256 env password).events := by
  obtain ⟨tfm, desc, digest, ret, result, unset⟩ := env
  simp only [EncryptEnv.Sound, not_forall, not_or, Bool.not_eq_true, Bool.not_eq_false] at henv
  obtain ⟨rfl, rfl, rfl⟩ := henv
  exact List.mem_cons_of_mem _ List.mem_cons_self

theorem costs_passwordCheckHeap {env : PasswordEnv} {password : ℕ} (henv : env.Sound password)
    (rf : ReferenceMonitor) :
    Costs (passwordCheckHeap sha256 env password rf).events
      (passwordLost sha256 env password rf) := by
  unfold passwordCheckHeap passwordLost
  by_cases hnull : env.kernelPassword = none
  · simp only [if_pos hnull]
    rfl
  by_cases hcopy : (env.mem.copyFromUser password passwLen).2 = 0
  · simp only [if_neg hnull, if_neg (not_not.mpr hcopy), events_kmalloc_bind]
    -- the copy is held while the digest is computed
    have hencrypt := (costs_encryptPasswordHeap (henv hnull hcopy) (some (env.copied password)) :
        Costs (encryptPasswordHeap sha256 env.encrypt (some (env.copied password))).events _).moves
       {.kernelPassword}
    refine Moves.bind hencrypt ?_ ?_
    · intro digest hdigest
      rw [result_encryptPasswordHeap, hashOf] at hdigest
      rw [encryptLost, hashOf, hdigest, Option.some.inj hdigest]
      cases digest with
      | none => rfl
      | some digest =>
        cases hstored : rf.password with
        | none => rfl
        | some stored =>
          simp only [Traced.ofOption_some_bind]
          split_ifs <;> rfl
    · rw [result_encryptPasswordHeap, hashOf]
      simp
  · simp only [if_neg hnull, if_pos (show _ ≠ 0 from hcopy)]
    rfl

theorem wild_mem_passwordCheckHeap {env : PasswordEnv} {password : ℕ} (henv : ¬env.Sound password)
    (rf : ReferenceMonitor) : .wild ∈ (passwordCheckHeap sha256 env password rf).events := by
  simp only [PasswordEnv.Sound, not_forall] at henv
  obtain ⟨hnull, hcopy, hencrypt⟩ := henv
  rw [passwordCheckHeap, if_neg hnull, events_kmalloc_bind, if_neg (not_not.mpr hcopy)]
  exact List.mem_cons_of_mem _ (Traced.mem_events_bind (wild_mem_encryptPasswordHeap hencrypt _) _)

theorem costs_getPathFromDentryHeap (env : PathEnv) (dentry : Dentry) :
    Costs (getPathFromDentryHeap env dentry).events (env.lost dentry) := by
  obtain ⟨page, fullPath⟩ := env
  cases page with
  | false => rfl
  | true =>
    simp only [getPathFromDentryHeap, PathEnv.lost]
    cases dentryPathRaw dentry pathMax with
    | none => rfl
    | some ret => cases fullPath <;> rfl

end Utils

/-! ### `utils/blacklist.c` -/

namespace Blacklist

/-- What `add_to_blacklist` leaves besides the node. -/
def addLost (env : AddEnv) (path : ℕ) (bl : Blacklist) : Multiset Pointer :=
  match env.kernelRelPath, env.new with
  | none, _ => 0
  | some _, none => {.kernelRelPath}
  | some after, some next =>
    if env.newPath = false then {.new, .kernelRelPath}
    else if (addLocked bl
        ⟨CString.ofMem ((env.mem.copyFromUser path pathMax).1 ++ after), next⟩).isNone then
      {.newPath, .new, .kernelRelPath}
    else 0

/-- The blocks of the nodes that were allocated, linked or not. -/
def blocks (bl : Blacklist) : Multiset Pointer :=
  bl.nodes.length • {.new, .newPath}

theorem length_nodes_addLocked {bl bl' : Blacklist} {new : BlacklistNode} {ret : ℤ}
    (h : addLocked bl new = some (ret, bl')) : bl'.nodes.length = bl.nodes.length + 1 := by
  unfold addLocked at h
  cases hhead : bl.head with
  | none =>
    simp only [hhead, Option.some.injEq, Prod.mk.injEq] at h
    simp [← h.2, LinkedList.alloc]
  | some curr =>
    simp only [hhead, Option.bind_eq_bind, Option.bind_eq_some_iff] at h
    obtain ⟨node, -, h⟩ := h
    cases hnext : node.next with
    | none =>
      simp only [hnext] at h
      split_ifs at h <;>
        simp only [Option.pure_def, Option.some.injEq, Prod.mk.injEq] at h <;>
        simp [← h.2, LinkedList.alloc, LinkedList.setNext]
    | some next =>
      simp only [hnext, Option.bind_eq_some_iff] at h
      obtain ⟨last, -, h⟩ := h
      cases last <;>
        simp only [Option.pure_def, Option.some.injEq, Prod.mk.injEq] at h <;>
        simp [← h.2, LinkedList.alloc, LinkedList.setNext]

theorem length_nodes_removeLocked {bl bl' : Blacklist} {p : CStr} {ret : ℤ}
    (h : removeLocked bl p = some (ret, bl')) : bl'.nodes.length = bl.nodes.length := by
  unfold removeLocked at h
  cases hhead : bl.head with
  | none =>
    simp only [hhead, Option.some.injEq, Prod.mk.injEq] at h
    rw [← h.2]
  | some curr =>
    simp only [hhead, Option.bind_eq_bind, Option.bind_eq_some_iff] at h
    obtain ⟨node, -, h⟩ := h
    split_ifs at h
    · simp only [Option.pure_def, Option.some.injEq, Prod.mk.injEq] at h
      rw [← h.2]
    · simp only [Option.bind_eq_some_iff] at h
      obtain ⟨⟨prev, found⟩, -, h⟩ := h
      cases found with
      | none =>
        simp only [Option.pure_def, Option.some.injEq, Prod.mk.injEq] at h
        rw [← h.2]
      | some found =>
        simp only [Option.bind_eq_some_iff] at h
        obtain ⟨prev', -, node', -, h⟩ := h
        simp only [Option.pure_def, Option.some.injEq, Prod.mk.injEq] at h
        simp [← h.2, LinkedList.setNext]

/-- The list after a call. -/
theorem moves_addToBlacklistHeap (env : AddEnv) (path : ℕ) (bl : Blacklist) :
    Moves bl.blocks (addToBlacklistHeap env path bl).events
      (addLost env path bl + (((addToBlacklist env path bl).map Prod.snd).getD bl).blocks) := by
  unfold addToBlacklistHeap addLost addToBlacklist
  cases env.kernelRelPath with
  | none => exact (HeapOp.costs_nil).moves bl.blocks
  | some after =>
    simp only [if_neg (UserMem.copyFromUser_ne_neg_one env.mem path pathMax)]
    cases env.new with
    | none =>
      have hcosts : Costs [.alloc Pointer.kernelRelPath] {.kernelRelPath} := rfl
      exact hcosts.moves bl.blocks
    | some next =>
      cases env.newPath with
      | false =>
        have hcosts : Costs [.alloc Pointer.kernelRelPath, .alloc .new]
          {.new, .kernelRelPath} := rfl
        exact hcosts.moves bl.blocks
      | true =>
        simp only [if_true, Bool.true_eq_false, if_false, events_kmalloc_bind]
        cases hlocked : addLocked bl
            ⟨CString.ofMem ((env.mem.copyFromUser path pathMax).1 ++ after), next⟩ with
        | none =>
          have hcosts : Costs [.alloc Pointer.kernelRelPath, .alloc .new, .alloc .newPath]
            {.newPath, .new, .kernelRelPath} := rfl
          exact hcosts.moves bl.blocks
        | some answer =>
          obtain ⟨ret, bl'⟩ := answer
          -- the node is one more
          have hblocks : bl'.blocks = {.new, .newPath} + bl.blocks := by
            rw [blocks, length_nodes_addLocked hlocked, succ_nsmul', blocks]
          have hcosts : Costs [.alloc Pointer.kernelRelPath, .alloc .new, .alloc .newPath,
            .free .kernelRelPath] {.new, .newPath} := by
            show HeapOp.settle 0 _ = some _
            decide
          simp only [Option.map_some, Option.getD_some, Option.isNone_some, Bool.false_eq_true,
            if_false, zero_add, hblocks]
          exact hcosts.moves bl.blocks

/-- What `remove_from_blacklist` leaves. -/
def removeLost (env : RemoveEnv) : Multiset Pointer :=
  if env.kernelPath = none then 0 else {.kernelPath}

theorem moves_removeFromBlacklistHeap (env : RemoveEnv) (path : ℕ) (bl : Blacklist) :
    Moves bl.blocks (removeFromBlacklistHeap env path bl).events
      (removeLost env + (((removeFromBlacklist env path bl).map Prod.snd).getD bl).blocks) := by
  unfold removeFromBlacklistHeap removeLost removeFromBlacklist
  cases env.kernelPath with
  | none => exact (HeapOp.costs_nil).moves bl.blocks
  | some after =>
    simp only [reduceCtorEq, if_false, events_kmalloc_bind, Traced.events_ofOption]
    have hkeep : (((removeLocked bl (CString.ofMem
        ((env.mem.copyFromUser path pathMax).1 ++ after))).map Prod.snd).getD bl).blocks =
          bl.blocks := by
      cases hlocked : removeLocked bl
          (CString.ofMem ((env.mem.copyFromUser path pathMax).1 ++ after)) with
      | none => rfl
      | some answer => exact congrArg (· • _) (length_nodes_removeLocked hlocked)
    rw [hkeep]
    have hcosts : Costs [.alloc Pointer.kernelPath] {.kernelPath} := rfl
    exact hcosts.moves bl.blocks

end Blacklist

/-! ### `stack_reference_monitor.c` -/

/-- A list that cannot be copied is not empty. -/
def PrintEnv.Sound (env : PrintEnv) (bl : Blacklist) (blacklistSize : ℤ) : Prop :=
  blacklistSize = bl.size → env.kmalloc = true → bl.head = none → env.copyToUser = 0

instance (env : PrintEnv) (bl : Blacklist) (blacklistSize : ℤ) :
    Decidable (env.Sound bl blacklistSize) :=
  inferInstanceAs (Decidable (_ → _ → _ → _))

/-- What `sys_print_blacklist` leaves: the text, unless it could not be copied. For a count of `0`
there never is a block. -/
def printLost (env : PrintEnv) (bl : Blacklist) (blacklistSize : ℤ) : Multiset Pointer :=
  if blacklistSize ≠ bl.size ∨ env.kmalloc = false ∨ entriesBytes blacklistSize = 0 then 0
  else
    match bl.head with
    | none => {.blacklistEntries}
    | some curr =>
      match printScan env bl.nodes bl.nodes.length 0 curr (text "Blacklist elements\n") with
      | some (some _) => if env.copyToUser ≠ 0 then 0 else {.blacklistEntries}
      | _ => {.blacklistEntries}

/-- The loop keeps one block, also when it fails. -/
theorem moves_printScanHeap (env : PrintEnv) (nodes : List BlacklistNode) (fuel n curr : ℕ)
    (entries : List UInt8) :
    Moves {.blacklistEntries} (printScanHeap env nodes fuel n curr entries).events
      {.blacklistEntries} := by
  induction fuel generalizing n curr entries with
  | zero => rfl
  | succ fuel ih =>
    unfold printScanHeap
    cases nodes[curr]? with
    | none => rfl
    | some node =>
      simp only [Traced.ofOption_some_bind]
      split_ifs
      · rfl
      · -- the block is exchanged for another
        cases node.next with
        | none => rfl
        | some next =>
          have hexchange : Moves {Pointer.blacklistEntries}
            [.free .blacklistEntries, .alloc .blacklistEntries] {.blacklistEntries} := rfl
          exact hexchange.append (ih _ _ _)

theorem costs_sysPrintBlacklistHeap {env : PrintEnv} {bl : Blacklist} {blacklistSize : ℤ}
    (henv : env.Sound bl blacklistSize) :
    Costs (sysPrintBlacklistHeap env bl blacklistSize).events
      (printLost env bl blacklistSize) := by
  unfold sysPrintBlacklistHeap printLost
  by_cases hsize : blacklistSize = bl.size
  swap
  · simp [hsize, HeapOp.costs_nil]
  cases hkmalloc : env.kmalloc with
  | false => simp [hsize, HeapOp.costs_nil]
  | true =>
    simp only [← hsize, ne_eq, not_true_eq_false, Bool.true_eq_false, false_or, if_false,
      Bool.not_true, Bool.false_eq_true, kmallocBytes]
    by_cases hbytes : entriesBytes blacklistSize = 0
    · -- nothing is allocated, and a header has no place
      simp only [if_pos hbytes]
      cases hhead : bl.head with
      | none =>
        simp only [henv hsize hkmalloc hhead]
        rfl
      | some curr =>
        simp only [hbytes, sprintfWithin, Nat.le_zero, Nat.add_one_ne_zero, if_false]
        rfl
    · simp only [if_neg hbytes, events_kmalloc_bind]
      cases hhead : bl.head with
      | none =>
        simp only [henv hsize hkmalloc hhead]
        rfl
      | some curr =>
        simp only [sprintfWithin_entriesBytes hbytes, Traced.ofOption_some_bind]
        refine Moves.bind (moves_printScanHeap env bl.nodes _ 0 curr _) ?_ ?_
        · intro printed hprinted
          rw [result_printScanHeap] at hprinted
          simp only [hprinted]
          cases printed with
          | none => rfl
          | some entries => dsimp only; split_ifs <;> rfl
        · intro hstop
          rw [result_printScanHeap] at hstop
          simp only [hstop]

theorem wild_mem_sysPrintBlacklistHeap {env : PrintEnv} {bl : Blacklist} {blacklistSize : ℤ}
    (henv : ¬env.Sound bl blacklistSize) :
    .wild ∈ (sysPrintBlacklistHeap env bl blacklistSize).events := by
  simp only [PrintEnv.Sound, not_forall] at henv
  obtain ⟨hsize, hkmalloc, hhead, hcopy⟩ := henv
  simp only [sysPrintBlacklistHeap, hsize, ne_eq, not_true_eq_false, if_false, hkmalloc,
    Bool.not_true, Bool.false_eq_true, hhead, hcopy, not_false_eq_true, if_true, kmallocBytes]
  -- with a block or without
  split_ifs
  · exact List.mem_cons_self
  · exact List.mem_cons_of_mem _ List.mem_cons_self

section Calls

variable (sha256 : List UInt8 → Vector UInt8 32) (array : KprobeArray) (env : CallEnv) (euid : ℕ)
  (s : Shared)

/-- What a call that is checked leaves, if after the checks it leaves `body`. -/
def checkedLost (first : ℤ) (password : ℕ) (body : Multiset Pointer) : Multiset Pointer :=
  if first ≠ 0 then 0
  else passwordLost sha256 env.password password s.rf +
    if passwordCheck sha256 env.password password s.rf = some 0 ∧ euidCheck euid = 0 then body
    else 0

/-- What a system call leaves. -/
def Syscall.lost : Syscall → Multiset Pointer
  | .switchRfState state password =>
    -- without an array the call stops before the allocation
    checkedLost sha256 env euid s (rfStateCheck state) password
      (if array.isSome ∧ env.stateString then {.stateString} else 0)
  | .getRfState => if env.stateString then {.stateString} else 0
  | .addToBlacklist path password =>
    checkedLost sha256 env euid s (isRfRec s.rf) password
      (Blacklist.addLost env.add path s.rf.blacklist)
  | .removeFromBlacklist _ password =>
    checkedLost sha256 env euid s (isRfRec s.rf) password (Blacklist.removeLost env.remove)
  | .printBlacklist _ blacklistSize => printLost env.print s.rf.blacklist blacklistSize
  | .getBlacklistSize => 0

/-- The call frees no pointer that did not come from an allocation. -/
def Syscall.Sound : Syscall → Prop
  | .switchRfState state password => rfStateCheck state = 0 → env.password.Sound password
  | .addToBlacklist _ password => isRfRec s.rf = 0 → env.password.Sound password
  | .removeFromBlacklist _ password => isRfRec s.rf = 0 → env.password.Sound password
  | .printBlacklist _ blacklistSize => env.print.Sound s.rf.blacklist blacklistSize
  | .getRfState | .getBlacklistSize => True

variable {sha256 array env euid s}

theorem moves_checkedHeap {first : ℤ} {password : ℕ}
    (henv : first = 0 → env.password.Sound password) {body : Allocating ℤ}
    {body' : Option ℤ × Shared} {lost : Multiset Pointer}
    (hbody : Moves s.rf.blacklist.blocks body.events (lost + body'.2.rf.blacklist.blocks)) :
    Moves s.rf.blacklist.blocks (checkedHeap sha256 env euid s first password body).events
      (checkedLost sha256 env euid s first password lost +
        (checked sha256 env euid s first password body').2.rf.blacklist.blocks) := by
  unfold checkedHeap checkedLost checked
  by_cases hfirst : first = 0
  swap
  · simp only [if_pos (show first ≠ 0 from hfirst)]
    exact HeapOp.costs_nil.moves _
  simp only [if_neg (not_not.mpr hfirst)]
  have hpassword := (costs_passwordCheckHeap (henv hfirst) s.rf :
    Costs (passwordCheckHeap sha256 env.password password s.rf).events _).moves
      s.rf.blacklist.blocks
  refine Moves.bind hpassword ?_ ?_
  · intro ret hret
    rw [result_passwordCheckHeap] at hret
    simp only [hret, Option.some.injEq]
    by_cases hzero : ret = 0
    swap
    · simp only [if_pos (show ret ≠ 0 from hzero), hzero, false_and, if_false, add_zero]
      rfl
    subst hzero
    simp only [ne_eq, not_true_eq_false, if_false, true_and]
    by_cases heuid : euidCheck euid = 0
    · simp only [heuid, not_true_eq_false, if_false, if_true, add_assoc]
      rw [add_comm, add_comm (passwordLost _ _ _ _)]
      exact hbody.frame _
    · simp only [heuid, not_false_eq_true, if_true, if_false, add_zero]
      rfl
  · intro hstop
    rw [result_passwordCheckHeap] at hstop
    simp [hstop]

theorem costs_returnStateHeap (env : CallEnv) (state : ℤ) :
    Costs (returnStateHeap env state).events (if env.stateString then {.stateString} else 0) := by
  unfold returnStateHeap
  split_ifs <;> rfl

/-- What a system call makes of the heap. -/
theorem Syscall.moves_heap (call : Syscall) (henv : call.Sound env s) :
    Moves s.rf.blacklist.blocks (call.heap sha256 array env euid s).events
      (call.lost sha256 array env euid s +
        (call.run sha256 array env euid s).2.rf.blacklist.blocks) := by
  cases call with
  | switchRfState state password =>
    refine moves_checkedHeap henv ?_
    rw [enable_or_disable]
    cases array with
    | none => exact HeapOp.costs_nil.moves _
    | some registered =>
      simp only [setKprobes, Option.map_some, Traced.ofOption_some_bind, Option.isSome_some,
        true_and]
      exact (costs_returnStateHeap env state).moves _
  | getRfState => exact (costs_returnStateHeap env s.rf.state).moves _
  | addToBlacklist path password =>
    refine moves_checkedHeap henv ?_
    have hadd := Blacklist.moves_addToBlacklistHeap env.add path s.rf.blacklist
    refine Moves.bind hadd ?_ ?_
    · intro answer hanswer
      rw [Blacklist.result_addToBlacklistHeap] at hanswer
      rw [hanswer]
      rfl
    · intro hstop
      rw [Blacklist.result_addToBlacklistHeap] at hstop
      rw [hstop]
      rfl
  | removeFromBlacklist path password =>
    refine moves_checkedHeap henv ?_
    have hremove := Blacklist.moves_removeFromBlacklistHeap env.remove path s.rf.blacklist
    refine Moves.bind hremove ?_ ?_
    · intro answer hanswer
      rw [Blacklist.result_removeFromBlacklistHeap] at hanswer
      rw [hanswer]
      rfl
    · intro hstop
      rw [Blacklist.result_removeFromBlacklistHeap] at hstop
      rw [hstop]
      rfl
  | printBlacklist buffer blacklistSize =>
    exact Moves.bind ((costs_sysPrintBlacklistHeap henv).moves _) (fun _ _ => rfl) fun _ => rfl
  | getBlacklistSize => exact HeapOp.costs_nil.moves _

/-- A call that is not sound frees a pointer that did not come from an allocation. -/
theorem Syscall.wild_mem_heap {call : Syscall} (henv : ¬call.Sound env s) :
    .wild ∈ (call.heap sha256 array env euid s).events := by
  have hchecked : ∀ {first : ℤ} {password : ℕ} (body : Allocating ℤ),
      ¬(first = 0 → env.password.Sound password) →
      .wild ∈ (checkedHeap sha256 env euid s first password body).events := by
    intro first password body h
    obtain ⟨rfl, hpassword⟩ := Classical.not_imp.mp h
    rw [checkedHeap, if_neg (by simp)]
    exact Traced.mem_events_bind (wild_mem_passwordCheckHeap hpassword s.rf) _
  cases call with
  | switchRfState state password => exact hchecked _ henv
  | addToBlacklist path password => exact hchecked _ henv
  | removeFromBlacklist path password => exact hchecked _ henv
  | printBlacklist buffer blacklistSize =>
    exact Traced.mem_events_bind (wild_mem_sysPrintBlacklistHeap henv) _
  | getRfState => exact absurd trivial henv
  | getBlacklistSize => exact absurd trivial henv

end Calls

/-! ### `kprobes/kprobes.c` -/

/-- The block of a message. -/
def ProbeData.blocks (message : ProbeData) : Multiset Pointer :=
  if message.isSome then {.errorMessage} else 0

/-- The block that an entry handler leaves to the return handler. -/
def verdictBlocks : Option (ℤ × ProbeData) → Multiset Pointer
  | none => 0
  | some (ret, message) => if ret = 0 then message.blocks else 0

/-- What an entry handler leaves besides the message: all the paths that it has computed. -/
def ProbedCall.lost (rf : ReferenceMonitor) (env : HandlerEnv) : ProbedCall → Multiset Pointer
  | securityFileOpen file => if writeFlags file.flags then env.first.lost file.dentry else 0
  | securityInodeLink oldDentry newDentry | securityInodeRename oldDentry newDentry =>
    env.first.lost oldDentry + env.second.lost newDentry
  | securityInodeRmdir dentry =>
    -- the parent's path is computed if the first lookup has found nothing
    env.first.lost dentry +
      if (isBlacklisted rf (getPathFromDentry env.first dentry)).any (· ≠ 1) then
        env.second.lost dentry.dParent
      else 0
  | securityInodeUnlink dentry | securityInodeSymlink dentry | securityInodeCreate dentry
  | securityInodeMkdir dentry => env.first.lost dentry
  | vfsWrite file | vfsLlseek file => env.first.lost file.dentry

section Handlers

variable {rf : ReferenceMonitor} {env : HandlerEnv}

/-- The block of the message of a denial, unless the message does not fit. -/
def denyBlocks (env : HandlerEnv) (what : String) (fullPath : Option (List UInt8)) :
    Multiset Pointer :=
  verdictBlocks ((sprintfInto (some errorMessageSize) (messageText what fullPath)).bind fun _ =>
    some (0, errorMessage env what fullPath))

/-- The end of a handler that denies. -/
theorem costs_denyHeap (what : String) (fullPath : Option (List UInt8)) :
    Costs (denyHeap env what fullPath).events (denyBlocks env what fullPath) := by
  unfold denyHeap denyBlocks
  cases sprintfInto (some errorMessageSize) (messageText what fullPath) with
  | none => rfl
  | some written => cases errorMessage env what fullPath <;> rfl

/-- The cost of a lookup, if a denial costs `deny` and going on costs `rest`. -/
def lookupCost (rf : ReferenceMonitor) (path : Option (List UInt8)) (deny rest : Multiset Pointer) :
    Multiset Pointer :=
  match isBlacklisted rf path with
  | none => 0
  | some ret => if ret = 1 then deny else rest

/-- A lookup, after which a handler denies or goes on. -/
theorem costs_lookup (path : Option (List UInt8)) {deny rest : Allocating (ℤ × ProbeData)}
    {denied lost : Multiset Pointer} (hdeny : Costs deny.events denied)
    (hrest : Costs rest.events lost) :
    Costs (do if (← ofOption (isBlacklisted rf path)) = 1 then deny else rest :
        Allocating (ℤ × ProbeData)).events
      (lookupCost rf path denied lost) := by
  unfold lookupCost
  cases isBlacklisted rf path with
  | none => rfl
  | some ret =>
    by_cases hret : ret = 1
    · simp only [Traced.ofOption_some_bind, if_pos hret]
      exact hdeny
    · simp only [Traced.ofOption_some_bind, if_neg hret]
      exact hrest

/-- What a lookup leaves to the return handler. -/
theorem verdictBlocks_lookup (path : Option (List UInt8)) (deny rest : Option (ℤ × ProbeData)) :
    verdictBlocks ((isBlacklisted rf path).bind fun ret => if ret = 1 then deny else rest) =
      lookupCost rf path (verdictBlocks deny) (verdictBlocks rest) := by
  unfold lookupCost
  cases isBlacklisted rf path with
  | none => rfl
  | some ret => by_cases hret : ret = 1 <;> simp [hret]

/-- What comes after a path was computed. -/
theorem costs_getPath_bind {penv : PathEnv} {dentry : Dentry}
    {f : Option (List UInt8) → Allocating (ℤ × ProbeData)} {lost : Multiset Pointer}
    (hf : Costs (f (getPathFromDentry penv dentry)).events lost) :
    Costs (getPathFromDentryHeap penv dentry >>= f).events (penv.lost dentry + lost) := by
  refine Moves.bind (costs_getPathFromDentryHeap penv dentry) ?_ ?_
  · intro path hpath
    obtain rfl := Option.some.inj ((result_getPathFromDentryHeap _ _).symm.trans hpath)
    rw [add_comm]
    exact hf.moves _
  · simp [result_getPathFromDentryHeap]

theorem costs_pathEntryHandlerHeap (what : String) (dentry : Dentry) :
    Costs (pathEntryHandlerHeap what rf env dentry).events
      (env.first.lost dentry +
        verdictBlocks (pathEntryHandler (some errorMessageSize) what rf env (some dentry))) := by
  have hverdict :
      verdictBlocks (pathEntryHandler (some errorMessageSize) what rf env (some dentry)) =
        lookupCost rf (getPathFromDentry env.first dentry)
          (denyBlocks env what (getPathFromDentry env.first dentry)) 0 :=
    verdictBlocks_lookup _ _ (some (1, none))
  rw [hverdict]
  exact costs_getPath_bind (costs_lookup _ (costs_denyHeap _ _) HeapOp.costs_nil)

theorem costs_pathsEntryHandlerHeap (whatOld what : String) (oldDentry dentry : Dentry) :
    Costs (pathsEntryHandlerHeap whatOld what rf env oldDentry dentry).events
      (env.first.lost oldDentry + env.second.lost dentry +
        verdictBlocks (pathsEntryHandler (some errorMessageSize) whatOld what rf env
          (some oldDentry) (some dentry))) := by
  have hverdict : verdictBlocks
        (pathsEntryHandler (some errorMessageSize) whatOld what rf env (some oldDentry)
          (some dentry)) =
      lookupCost rf (getPathFromDentry env.first oldDentry)
        (denyBlocks env whatOld (getPathFromDentry env.first oldDentry))
        (lookupCost rf (getPathFromDentry env.second dentry)
          (denyBlocks env what (getPathFromDentry env.second dentry)) 0) := by
    refine (verdictBlocks_lookup _ _ _).trans ?_
    exact congrArg (lookupCost rf _ _) (verdictBlocks_lookup _ _ (some (1, none)))
  rw [hverdict, add_assoc]
  exact costs_getPath_bind (costs_getPath_bind (costs_lookup _ (costs_denyHeap _ _)
    (costs_lookup _ (costs_denyHeap _ _) HeapOp.costs_nil)))

theorem costs_inodeRmdirEntryHandlerHeap (dentry : Dentry) :
    Costs (inodeRmdirEntryHandlerHeap rf env dentry).events
      ((ProbedCall.securityInodeRmdir dentry).lost rf env +
        verdictBlocks ((ProbedCall.securityInodeRmdir dentry).boundedEntryHandler rf env)) := by
  have hhandler : verdictBlocks
        ((ProbedCall.securityInodeRmdir dentry).boundedEntryHandler rf env) =
      lookupCost rf (getPathFromDentry env.first dentry)
        (denyBlocks env "Rmdir on file" (getPathFromDentry env.first dentry))
        (lookupCost rf (getPathFromDentry env.second dentry.dParent)
          (denyBlocks env "Rmdir on file" (getPathFromDentry env.first dentry)) 0) := by
    refine (verdictBlocks_lookup _ _ _).trans ?_
    exact congrArg (lookupCost rf _ _) (verdictBlocks_lookup _ _ (some (1, none)))
  -- the parent's path is computed behind the first lookup
  have hverdict : (ProbedCall.securityInodeRmdir dentry).lost rf env +
        verdictBlocks ((ProbedCall.securityInodeRmdir dentry).boundedEntryHandler rf env) =
      env.first.lost dentry + lookupCost rf (getPathFromDentry env.first dentry)
        (denyBlocks env "Rmdir on file" (getPathFromDentry env.first dentry))
        (env.second.lost dentry.dParent +
          lookupCost rf (getPathFromDentry env.second dentry.dParent)
            (denyBlocks env "Rmdir on file" (getPathFromDentry env.first dentry)) 0) := by
    rw [hhandler]
    simp only [ProbedCall.lost, lookupCost, add_assoc]
    congr 1
    cases isBlacklisted rf (getPathFromDentry env.first dentry) with
    | none => rfl
    | some ret => by_cases hret : ret = 1 <;> simp [hret]
  rw [hverdict]
  exact costs_getPath_bind (costs_lookup _ (costs_denyHeap _ _) (costs_getPath_bind
    (costs_lookup _ (costs_denyHeap _ _) HeapOp.costs_nil)))

theorem ProbedCall.costs_entryHandlerHeap (call : ProbedCall) :
    Costs (call.entryHandlerHeap rf env).events
      (call.lost rf env + verdictBlocks (call.boundedEntryHandler rf env)) := by
  cases call with
  | securityFileOpen file =>
    simp only [entryHandlerHeap, ProbedCall.lost, ProbedCall.boundedEntryHandler,
      ProbedCall.function, ProbedFunction.entryHandler, ProbedCall.regs, openEntryHandler,
      Arg.asFile, Option.bind_eq_bind, Option.bind_some]
    split_ifs
    · exact costs_pathEntryHandlerHeap _ _
    · rfl
  | securityInodeRmdir dentry => exact costs_inodeRmdirEntryHandlerHeap dentry
  | securityInodeLink oldDentry newDentry => exact costs_pathsEntryHandlerHeap _ _ _ _
  | securityInodeRename oldDentry newDentry => exact costs_pathsEntryHandlerHeap _ _ _ _
  | securityInodeUnlink dentry => exact costs_pathEntryHandlerHeap _ _
  | securityInodeSymlink dentry => exact costs_pathEntryHandlerHeap _ _
  | securityInodeCreate dentry => exact costs_pathEntryHandlerHeap _ _
  | securityInodeMkdir dentry => exact costs_pathEntryHandlerHeap _ _
  | vfsWrite file => exact costs_pathEntryHandlerHeap _ _
  | vfsLlseek file => exact costs_pathEntryHandlerHeap _ _

end Handlers

/-! ### `log/logger.c` -/

/-- The blocks of a record, without the work. -/
def LogData.blocks (data : LogData) : Multiset Pointer :=
  .logData ::ₘ if data.exePath.isSome then {.exePath} else 0

/-- The blocks of a record whose writing is deferred. -/
def LogData.deferred (data : LogData) : Multiset Pointer :=
  .defWork ::ₘ data.blocks

/-- The blocks of the record that `write_on_log` has deferred, if it has. -/
def recordBlocks : Option (Option LogData) → Multiset Pointer
  | some (some data) => data.deferred
  | _ => 0

/-- The record that `write_on_log` fills. -/
def WriteOnLogEnv.duplicate (env : WriteOnLogEnv) (dentry : Dentry) : Option CStr :=
  if env.kstrdup then (getPathFromDentry env.path dentry).map CString.ofMem else none

/-- What `write_on_log` leaves besides a record that it has deferred: the path of the program, and
the record itself if there is no memory for the work. -/
def writeOnLogLost (env : WriteOnLogEnv) (task : Task) : Multiset Pointer :=
  if env.logData = false then 0
  else
    match task.mm with
    | none => {.logData}
    | some dentry =>
      env.path.lost dentry +
        if env.defWork then 0
        else .logData ::ₘ if (env.duplicate dentry).isSome then {.exePath} else 0

/-- What `ret_handler` leaves: also the message, if `write_on_log` does not return. -/
def retHandlerLost (env : WriteOnLogEnv) (task : Task) (message : ProbeData) : Multiset Pointer :=
  writeOnLogLost env task + if (writeOnLog env task).isNone then message.blocks else 0

theorem costs_kstrdupPath (succeeds : Bool) (exePath : Option (List UInt8)) :
    Costs (kstrdupPath succeeds exePath).events
      (if (if succeeds then exePath.map CString.ofMem else none).isSome then {.exePath}
        else 0) := by
  cases exePath <;> cases succeeds <;> rfl

theorem costs_writeOnLogHeap (env : WriteOnLogEnv) (task : Task) :
    Costs (writeOnLogHeap env task).events
      (writeOnLogLost env task + recordBlocks (writeOnLog env task)) := by
  unfold writeOnLogHeap writeOnLogLost writeOnLog
  cases env.logData with
  | false => rfl
  | true =>
    cases task.mm with
    | none => rfl
    | some dentry =>
      simp only [Bool.not_true, Bool.false_eq_true, Bool.true_eq_false, if_false,
        events_kmalloc_bind, Traced.ofOption_some_bind, Option.bind_eq_bind, Option.bind_some,
        Option.pure_def]
      -- the record is held while the path is computed and duplicated
      refine Moves.bind ((costs_getPathFromDentryHeap env.path dentry).moves {.logData}) ?_
        (by simp [result_getPathFromDentryHeap])
      intro path hpath
      obtain rfl := Option.some.inj ((result_getPathFromDentryHeap _ _).symm.trans hpath)
      refine Moves.bind ((costs_kstrdupPath env.kstrdup _).moves _) ?_
        (by simp [result_kstrdupPath])
      intro duplicate hduplicate
      obtain rfl := Option.some.inj ((result_kstrdupPath _ _).symm.trans hduplicate)
      cases env.defWork with
      | true =>
        refine congrArg some ?_
        simp only [if_true, recordBlocks, LogData.deferred, LogData.blocks, add_zero,
          ← Multiset.singleton_add]
        ac_rfl
      | false =>
        refine congrArg some ?_
        simp only [Bool.false_eq_true, if_false, recordBlocks, WriteOnLogEnv.duplicate, add_zero,
          ← Multiset.singleton_add]
        ac_rfl

theorem moves_retHandlerHeap (env : WriteOnLogEnv) (task : Task) (message : ProbeData) :
    Moves message.blocks (retHandlerHeap env task message).events
      (retHandlerLost env task message + recordBlocks (writeOnLog env task)) := by
  refine Moves.bind ((costs_writeOnLogHeap env task).moves message.blocks) ?_ ?_
  · intro record hrecord
    rw [result_writeOnLogHeap] at hrecord
    simp only [retHandlerLost, hrecord, Option.isNone_some, Bool.false_eq_true, if_false, add_zero]
    cases message with
    | none => simp [ProbeData.blocks, HeapOp.Moves]
    | some text =>
      simp only [ProbeData.blocks, Option.isSome_some, if_true, events_kfree_bind]
      rw [add_comm, Multiset.singleton_add]
      exact HeapOp.settle_free
  · intro hstop
    rw [result_writeOnLogHeap] at hstop
    simp only [retHandlerLost, hstop, Option.isNone_none, if_true, recordBlocks, add_zero]

/-- What a probed call leaves, with its return handler. -/
def ProbedCall.deniedLost (rf : ReferenceMonitor) (env : HandlerEnv) (log : WriteOnLogEnv)
    (task : Task) (call : ProbedCall) : Multiset Pointer :=
  call.lost rf env +
    match call.boundedEntryHandler rf env with
    | none => 0
    | some (ret, message) => if ret = 0 then retHandlerLost log task message else 0

/-- The record that a probed call has deferred. -/
def ProbedCall.record (rf : ReferenceMonitor) (env : HandlerEnv) (log : WriteOnLogEnv)
    (task : Task) (call : ProbedCall) : Option (Option LogData) :=
  match call.boundedEntryHandler rf env with
  | none => none
  | some (ret, _) => if ret = 0 then writeOnLog log task else some none

section Denials

variable {rf : ReferenceMonitor} {env : HandlerEnv} {log : WriteOnLogEnv} {task : Task}

/-- What a probed call makes of the heap. -/
theorem costs_probedCallHeap (call : ProbedCall) :
    Costs (probedCallHeap rf env log task call).events
      (call.deniedLost rf env log task + recordBlocks (call.record rf env log task)) := by
  refine Moves.bind call.costs_entryHandlerHeap ?_ ?_
  · rintro ⟨ret, message⟩ hverdict
    rw [ProbedCall.result_entryHandlerHeap] at hverdict
    simp only [ProbedCall.deniedLost, ProbedCall.record, verdictBlocks, hverdict]
    by_cases hret : ret = 0
    · simp only [if_pos hret, add_assoc]
      rw [add_comm, add_comm (call.lost rf env)]
      exact (moves_retHandlerHeap log task message).frame _
    · simp only [if_neg hret, recordBlocks, add_zero]
      rfl
  · intro hstop
    rw [ProbedCall.result_entryHandlerHeap] at hstop
    simp only [ProbedCall.deniedLost, ProbedCall.record, verdictBlocks, hstop, recordBlocks,
      add_zero]

end Denials

/-- What `onefile_write` leaves: its copy, unless it has written. -/
def LogFs.writeLost (env : WriteEnv) (data : List UInt8) (fs : Fs) : Multiset Pointer :=
  if env.kmalloc = false then 0
  else if env.copied ≠ data.length then {.data}
  else
    let target := Target.ofSize (unsigned 64 fs.iSize) data.length
    match fs.device.read env.sbBread (unsigned 64 target.blockToWrite).toNat with
    | none => {.data}
    | some bh => if (memcpy bh target.blockOffset data).isSome then 0 else {.data}

theorem LogFs.costs_onefileWriteHeap (env : WriteEnv) (data : List UInt8) (fs : Fs) :
    Costs (onefileWriteHeap env data fs).events (writeLost env data fs) := by
  unfold onefileWriteHeap writeLost
  cases env.kmalloc with
  | false => rfl
  | true =>
    by_cases hcopied : env.copied = data.length
    swap
    · simp only [if_pos (show env.copied ≠ data.length from hcopied)]
      rfl
    simp only [if_neg (not_not.mpr hcopied), Bool.not_true, Bool.false_eq_true, Bool.true_eq_false,
      if_false, events_kmalloc_bind]
    cases BlockDevice.read fs.device env.sbBread
        (unsigned 64 (Target.ofSize (unsigned 64 fs.iSize) data.length).blockToWrite).toNat with
    | none => rfl
    | some bh =>
      dsimp only
      cases memcpy bh (Target.ofSize (unsigned 64 fs.iSize) data.length).blockOffset data <;> rfl

/-- What `deferred_work` leaves, of the record too: it frees the work, if it has written the row,
and nothing else of it. -/
def deferredLost (sha256 : List UInt8 → Vector UInt8 32) (rf : ReferenceMonitor) (mounted : Bool)
    (env : WorkEnv) (data : LogData) (fs : LogFs.Fs) : Multiset Pointer :=
  encryptLost sha256 env.encrypt data.exePath +
    match hashOf sha256 env.encrypt data.exePath with
    | none => data.deferred
    | some hash =>
      if mounted = false then data.deferred
      else
        openLog.lost rf env.handler +
          match openLog.boundedEntryHandler rf env.handler with
          | none => data.deferred
          | some (ret, message) =>
            if ret = 0 then retHandlerLost env.log (kworker env.pid) message + data.deferred
            else
              LogFs.writeLost env.write (data.row hash) fs +
                if (LogFs.onefileWrite env.write (data.row hash) fs).isSome then data.blocks
                else data.deferred

/-- A worker defers no record: it has no `mm`. -/
theorem recordBlocks_kworker (env : WriteOnLogEnv) (pid : Int32) :
    recordBlocks (writeOnLog env (kworker pid)) = 0 := by
  unfold writeOnLog kworker
  cases env.logData <;> rfl

theorem moves_deferredWorkHeap {sha256 : List UInt8 → Vector UInt8 32} {rf : ReferenceMonitor}
    {mounted : Bool} {env : WorkEnv} (henv : env.encrypt.Sound) (data : LogData) (fs : LogFs.Fs) :
    Moves data.deferred (deferredWorkHeap sha256 rf mounted env data fs).events
      (deferredLost sha256 rf mounted env data fs) := by
  unfold deferredWorkHeap deferredLost
  refine Moves.bind ((costs_encryptPasswordHeap henv data.exePath).moves data.deferred) ?_ ?_
  · intro hash hhash
    rw [result_encryptPasswordHeap] at hhash
    simp only [hhash]
    rw [add_comm, add_comm (encryptLost _ _ _)]
    refine Moves.frame ?_ _
    cases mounted with
    | false => rfl
    | true =>
      simp only [Bool.not_true, Bool.false_eq_true, Bool.true_eq_false, if_false]
      refine Moves.bind ((openLog.costs_entryHandlerHeap).moves data.deferred) ?_ ?_
      · rintro ⟨ret, message⟩ hverdict
        rw [ProbedCall.result_entryHandlerHeap] at hverdict
        simp only [hverdict, verdictBlocks]
        by_cases hret : ret = 0
        · simp only [if_pos hret]
          refine Moves.bind ?_ (fun _ _ => rfl) fun _ => rfl
          have hhandler := (moves_retHandlerHeap env.log (kworker env.pid) message).frame
            (openLog.lost rf env.handler + data.deferred)
          rw [recordBlocks_kworker, add_zero] at hhandler
          rw [add_comm (openLog.lost rf env.handler) message.blocks, add_assoc,
            add_left_comm (openLog.lost rf env.handler)]
          exact hhandler
        · simp only [if_neg hret, add_zero]
          have hwrite := (LogFs.costs_onefileWriteHeap env.write (data.row hash) fs).moves
            (openLog.lost rf env.handler + data.deferred)
          refine Moves.bind hwrite ?_ ?_
          · intro answer hanswer
            rw [LogFs.result_onefileWriteHeap] at hanswer
            simp only [hanswer, Option.isSome_some, if_true, events_kfree_bind]
            have hheld : LogFs.writeLost env.write (data.row hash) fs +
                (openLog.lost rf env.handler + data.deferred) = .defWork ::ₘ
                (openLog.lost rf env.handler +
                  (LogFs.writeLost env.write (data.row hash) fs + data.blocks)) := by
              rw [LogData.deferred, add_left_comm, Multiset.add_cons, Multiset.add_cons]
            rw [hheld]
            exact HeapOp.settle_free
          · intro hstop
            rw [LogFs.result_onefileWriteHeap] at hstop
            simp only [hstop, Option.isSome_none, Bool.false_eq_true, if_false]
            exact add_left_comm _ _ _
      · intro hstop
        rw [ProbedCall.result_entryHandlerHeap] at hstop
        simp only [hstop, verdictBlocks, add_zero]
  · intro hstop
    rw [result_encryptPasswordHeap] at hstop
    simp only [hstop]

end StackReferenceMonitor
