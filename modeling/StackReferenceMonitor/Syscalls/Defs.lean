import StackReferenceMonitor.Blacklist.Calls
import StackReferenceMonitor.Monitor.Defs

/-!
# The system calls, step by step

The six system calls of `stack_reference_monitor.c`, made by any number of threads. A thread goes
through its call one step at a time: each check is a step, each section under the lock is one, and
so is each probe that the loops of `enable_kprobes` and `disable_kprobes` come to. The steps of
different threads may come in any order.

A thread whose step faults, by a `NULL` that is dereferenced, stops there.

## Main definitions

* `Syscall`, `Pc`, `Thread`: a call, and where a thread stands in it.
* `Shared`: the reference monitor and the probes, `initModule`.
* `advance`: the next step of a thread.
* `Machine`, `Machine.step`: all threads.
-/

namespace StackReferenceMonitor

open CString (text)

/-- `NUM_KRETPROBES`. -/
def numKretprobes : ℕ := 10

/-! ### Calls and threads -/

/-- A system call with its arguments. A `char *` is an address in the caller's memory. -/
inductive Syscall where
  /-- `sys_switch_rf_state(state, password)`. -/
  | switchRfState (state : ℤ) (password : ℕ)
  /-- `sys_get_rf_state()`. -/
  | getRfState
  /-- `sys_add_to_blacklist(path, password)`. -/
  | addToBlacklist (path password : ℕ)
  /-- `sys_remove_from_blacklist(path, password)`. -/
  | removeFromBlacklist (path password : ℕ)
  /-- `sys_print_blacklist(user_space_blacklist, blacklist_size)`. -/
  | printBlacklist (userSpaceBlacklist : ℕ) (blacklistSize : ℤ)
  /-- `sys_get_blacklist_size()`. -/
  | getBlacklistSize

/-- The password that a call brings. -/
def Syscall.password : Syscall → Option ℕ
  | .switchRfState _ password => some password
  | .addToBlacklist _ password => some password
  | .removeFromBlacklist _ password => some password
  | _ => none

/-- The call changes the blacklist. -/
def Syscall.reconfigures : Syscall → Bool
  | .addToBlacklist _ _ | .removeFromBlacklist _ _ => true
  | _ => false

/-- What a call has learnt by its checks: the state that its first check has looked at, and the
string that it has copied as the password. -/
structure Evidence where
  /-- `state`, as the first check of the call has seen it. -/
  observed : ℤ
  /-- `kernel_password`. -/
  supplied : CStr

/-- Where a thread stands in its call. -/
inductive Pc where
  /-- Before the first check. -/
  | called
  /-- After `rf_state_check` or `is_rf_rec`, which has seen the state `observed`. -/
  | stateChecked (observed : ℤ)
  /-- After `password_check`. -/
  | passwordChecked (e : Evidence)
  /-- After `euid_check`, before the section under the lock. -/
  | authorised (e : Evidence)
  /-- After the state was written, with the probes before `i` enabled or disabled. -/
  | probing (i : Fin numKretprobes)
  /-- After the loop over the probes. -/
  | probed

/-- A thread. -/
inductive Thread where
  /-- In no call. -/
  | idle
  /-- In a call, with the effective user id it was made with. -/
  | running (euid : ℕ) (call : Syscall) (pc : Pc)
  /-- Back from a call. -/
  | returned (ret : ℤ)
  /-- Stopped by a fault. -/
  | oops

/-! ### What the threads share -/

/-- The reference monitor, and for each probe of `kprobe_array` whether it is enabled. -/
structure Shared where
  /-- `reference_monitor`. -/
  rf : ReferenceMonitor
  /-- The probes. -/
  probes : Fin numKretprobes → Bool

/-- `init_module`: the state is OFF, the blacklist is empty, the digest of the module's password is
stored, and the probes are set up disabled. -/
def initModule (sha256 : List UInt8 → Vector UInt8 32) (env : EncryptEnv) (password : CStr) :
    Shared where
  rf :=
    { state := 1
      password := encryptPassword sha256 env password
      blacklist := Blacklist.empty }
  probes := fun _ => false

/-! ### Printing the blacklist -/

/-- What one call of `sys_print_blacklist` meets. -/
structure PrintEnv where
  /-- Whether `kmalloc` of `blacklist_entries` succeeds. -/
  kmalloc : Bool
  /-- Whether the `krealloc` for each node succeeds. -/
  krealloc : ℕ → Bool
  /-- What `copy_to_user` leaves uncopied. -/
  copyToUser : ℕ

/-- The loop of `sys_print_blacklist` from the node `curr`, the `n`-th: the text with one more line
for each node, or `some none` when `krealloc` fails. -/
def printScan (env : PrintEnv) (nodes : List BlacklistNode) :
    ℕ → ℕ → ℕ → List UInt8 → Option (Option (List UInt8))
  | 0, _, _, _ => none
  | fuel + 1, n, curr, entries => do
    let node ← nodes[curr]?
    if !env.krealloc n then return none
    let entries := entries ++ text "- " ++ node.val.bytes ++ text "\n"
    match node.next with
    | some next => printScan env nodes fuel (n + 1) next entries
    | none => return some entries

/-- `sys_print_blacklist`: its return value, and the text that is copied to the user. Whether the
text fits in its buffers is in `Syscalls.PrintBlacklist`. -/
def sysPrintBlacklist (env : PrintEnv) (bl : Blacklist) (blacklistSize : ℤ) :
    Option (ℤ × List UInt8) :=
  if blacklistSize ≠ bl.size then some (-1, [])
  else if !env.kmalloc then some (-1, [])
  else do
    let entries ← match bl.head with
      | none => some (some (text "Blacklist is empty\n"))
      | some curr => printScan env bl.nodes bl.nodes.length 0 curr (text "Blacklist elements\n")
    match entries with
    | none => return (-1, [])
    | some entries => if env.copyToUser ≠ 0 then return (-EAGAIN, []) else return (0, entries)

/-! ### Steps -/

/-- What one step of a thread may meet. -/
structure StepEnv where
  /-- What `password_check` meets. -/
  password : PasswordEnv
  /-- What `add_to_blacklist` meets. -/
  add : Blacklist.AddEnv
  /-- What `remove_from_blacklist` meets. -/
  remove : Blacklist.RemoveEnv
  /-- What `sys_print_blacklist` meets. -/
  print : PrintEnv
  /-- Whether `enable_kretprobe` or `disable_kretprobe` succeeds. -/
  probe : Bool
  /-- Whether `kmalloc` of `state_string` succeeds. -/
  stateString : Bool

/-- Returns the error of a check, or goes on. -/
def Thread.check (ret : ℤ) (next : Thread) : Thread :=
  if ret ≠ 0 then .returned ret else next

/-- The states that have the probes enabled. -/
def arms (state : ℤ) : Bool :=
  state = 0 ∨ state = 2

/-- The value that the call leaves, of `reference_monitor.state`, unless the string for it cannot
be allocated. -/
def returnState (env : StepEnv) (rf : ReferenceMonitor) : Thread :=
  if env.stateString then .returned rf.state else .returned (-ENOMEM)

section Advance

variable (sha256 : List UInt8 → Vector UInt8 32) (env : StepEnv) (s : Shared)

/-- The first step of a call. The calls that change nothing are read-only and end here. -/
def firstStep (euid : ℕ) (call : Syscall) : Thread :=
  match call with
  | .switchRfState state _ =>
    .check (rfStateCheck state) (.running euid call (.stateChecked s.rf.state))
  -- the state is read here, without the lock, and not again
  | .addToBlacklist _ _ | .removeFromBlacklist _ _ =>
    .check (isRfRec s.rf) (.running euid call (.stateChecked s.rf.state))
  | .getRfState => returnState env s.rf
  | .printBlacklist _ blacklistSize =>
    match sysPrintBlacklist env.print s.rf.blacklist blacklistSize with
    | none => .oops
    | some (ret, _) => .returned ret
  | .getBlacklistSize => .returned s.rf.blacklist.size

/-- `password_check`. -/
def passwordStep (euid : ℕ) (call : Syscall) (observed : ℤ) : Thread :=
  match call.password with
  | none => .oops
  | some password =>
    match passwordCheck sha256 env.password password s.rf with
    | none => .oops
    | some ret =>
      .check ret (.running euid call (.passwordChecked ⟨observed, env.password.copied password⟩))

/-- The section under the lock. -/
def lockedStep (euid : ℕ) (call : Syscall) : Shared × Thread :=
  match call with
  -- the lock is given back before the first probe
  | .switchRfState state _ =>
    ({ s with rf := { s.rf with state } }, .running euid call (.probing ⟨0, by decide⟩))
  | .addToBlacklist path _ =>
    match Blacklist.addToBlacklist env.add path s.rf.blacklist with
    | none => (s, .oops)
    | some (ret, blacklist) => ({ s with rf := { s.rf with blacklist } }, .returned ret)
  | .removeFromBlacklist path _ =>
    match Blacklist.removeFromBlacklist env.remove path s.rf.blacklist with
    | none => (s, .oops)
    | some (ret, blacklist) =>
      -- a path that is not found is `1`
      ({ s with rf := { s.rf with blacklist } }, .returned (if ret = -EINVAL then 1 else ret))
  | _ => (s, .oops)

/-- Where a switch stands after the probe `i`. -/
def nextProbe (i : Fin numKretprobes) : Pc :=
  if h : i.val + 1 < numKretprobes then .probing ⟨i.val + 1, h⟩ else .probed

/-- One round of the loop of `enable_kprobes` or `disable_kprobes`. A failure is only logged. -/
def probeStep (euid : ℕ) (call : Syscall) (i : Fin numKretprobes) : Shared × Thread :=
  match call with
  | .switchRfState state _ =>
    ({ s with probes := if env.probe then Function.update s.probes i (arms state) else s.probes },
      .running euid call (nextProbe i))
  | _ => (s, .oops)

/-- The next step of a thread. -/
def advance : Thread → Shared × Thread
  | .running euid call .called => (s, firstStep env s euid call)
  | .running euid call (.stateChecked observed) => (s, passwordStep sha256 env s euid call observed)
  | .running euid call (.passwordChecked e) =>
    (s, .check (euidCheck euid) (.running euid call (.authorised e)))
  | .running euid call (.authorised _) => lockedStep env s euid call
  | .running euid call (.probing i) => probeStep env s euid call i
  -- the state is read again, and may be another call's by now
  | .running _ _ .probed => (s, returnState env s.rf)
  | thread => (s, thread)

end Advance

/-! ### All threads -/

/-- What the threads share, and the threads. -/
structure Machine where
  /-- The shared state. -/
  shared : Shared
  /-- The threads. -/
  threads : ℕ → Thread

/-- A step of one thread. -/
inductive Action where
  /-- The thread makes a call. -/
  | invoke (t euid : ℕ) (call : Syscall)
  /-- The thread takes the next step of its call. -/
  | advance (t : ℕ) (env : StepEnv)

namespace Machine

/-- The machine after `init_module`. -/
def init (sha256 : List UInt8 → Vector UInt8 32) (env : EncryptEnv) (password : CStr) : Machine :=
  { shared := initModule sha256 env password, threads := fun _ => .idle }

/-- One step. A thread in a call makes no other, and one that was stopped makes none. -/
def step (sha256 : List UInt8 → Vector UInt8 32) (m : Machine) : Action → Machine
  | .invoke t euid call =>
    match m.threads t with
    | .idle | .returned _ =>
      { m with threads := Function.update m.threads t (.running euid call .called) }
    | _ => m
  | .advance t env =>
    let (shared, thread) := StackReferenceMonitor.advance sha256 env m.shared (m.threads t)
    { shared, threads := Function.update m.threads t thread }

end Machine

end StackReferenceMonitor
