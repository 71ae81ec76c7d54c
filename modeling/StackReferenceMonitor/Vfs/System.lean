import StackReferenceMonitor.Foundations.Hooked
import StackReferenceMonitor.Probes.Denials
import StackReferenceMonitor.Syscalls.Policy
import StackReferenceMonitor.Vfs.Denial

/-!
# The kernel with the monitor in it

A kernel in which the module is loaded: system calls reconfigure the monitor, and operations run the
code of the kernel, which calls probed functions on the way. A call meets the probe on its function
if that probe is enabled at the time. The code itself, its own checks and their order are the
kernel's and are not said here: an operation is any code over any state.

Of the module a user of the kernel sees one thing, the code under the guard of a policy. The guard
is not the one that a user might expect. It reads the path of an operand with the byte that
`get_path_from_dentry` leaves unwritten after it, it does not look at an `open` without the flags
for writing, and the body of a function that it denies has run.

## Main definitions

* `Operation`, `System`, `System.step`: the kernel with the monitor and its probes.
* `Guarded`, `Guarded.step`: the kernel under the guard of a policy.
* `Policy.CallFits`: the calls on which no handler faults.
* `SystemAction.Carries`: an action of the one that performs an action of the other.

## Main results

* `serve_refines`: one call, with its probe, is one guarded call;
* `system_refines_guard`: every run of the system refines a run under the guard.
-/

namespace StackReferenceMonitor

open PathString (render)

/-! ### The system -/

/-- The place of a function's probe in `kprobe_array`. -/
def ProbedFunction.slot : ProbedFunction → Fin numKretprobes
  | securityFileOpen => ⟨0, Nat.le_of_ble_eq_true rfl⟩
  | securityInodeUnlink => ⟨1, Nat.le_of_ble_eq_true rfl⟩
  | securityInodeCreate => ⟨2, Nat.le_of_ble_eq_true rfl⟩
  | securityInodeMkdir => ⟨3, Nat.le_of_ble_eq_true rfl⟩
  | securityInodeRename => ⟨4, Nat.le_of_ble_eq_true rfl⟩
  | securityInodeRmdir => ⟨5, Nat.le_of_ble_eq_true rfl⟩
  | securityInodeLink => ⟨6, Nat.le_of_ble_eq_true rfl⟩
  | securityInodeSymlink => ⟨7, Nat.le_of_ble_eq_true rfl⟩
  | vfsWrite => ⟨8, Nat.le_of_ble_eq_true rfl⟩
  | vfsLlseek => ⟨9, Nat.le_of_ble_eq_true rfl⟩

/-- An operation of the kernel over the states `σ`. -/
structure Operation (σ : Type) where
  /-- The task that makes it. -/
  task : Task
  /-- What the kernel does, from the state in which it begins. -/
  code : σ → Hooked ProbedCall σ
  /-- What the entry handler of each of its calls meets, if it runs. -/
  env : ℕ → HandlerEnv
  /-- What `write_on_log` meets, if it runs. -/
  log : ℕ → WriteOnLogEnv

/-- The monitor with its probes, and the rest of the kernel. -/
structure System (σ : Type) where
  /-- The monitor and the probes. -/
  shared : Shared
  /-- What the operations work on. -/
  state : σ

/-- What happens in the system. -/
inductive SystemAction (σ : Type) where
  /-- A system call of the monitor. -/
  | call (c : Invocation)
  /-- An operation. -/
  | op (o : Operation σ)

namespace System

variable {σ : Type}

/-- The registers when a function returns a value. -/
def returned (ret : ℤ) : PtRegs :=
  ⟨ret, .other, .other, .other, .other⟩

/-- A call of a probed function: the probe on it may be enabled or not. -/
def serve (shared : Shared) (o : Operation σ) (n : ℕ) (c : ProbedCall) (body : σ → ℤ × σ) (s : σ) :
    Option (ℤ × σ) :=
  if shared.probes c.function.slot then do
    let (regs, s) ← (c.function.probe shared.rf (o.env n) (o.log n) o.task).call c.regs
      (fun s => (returned (body s).1, (body s).2)) s
    return (regs.ax, s)
  else some (body s)

/-- One action: the value that its caller sees, unless it faults, and the system after it. What a
fault leaves behind is not said. -/
def step (sha256 : List UInt8 → Vector UInt8 32) (s : System σ) :
    SystemAction σ → Option ℤ × System σ
  | .call c =>
    ((c.run sha256 (some fun _ => true) s.shared).1,
      { s with shared := (c.run sha256 (some fun _ => true) s.shared).2 })
  | .op o =>
    match Hooked.run (serve s.shared o) 0 (o.code s.state) with
    | none => (none, s)
    | some (ret, state) => (some ret, { s with state })

end System

/-! ### The guard -/

/-- What the memory of the two paths of a call held before. -/
structure Leftover where
  /-- The memory of the first path. -/
  first : ℕ → UInt8
  /-- The memory of the second path. -/
  second : ℕ → UInt8

/-- An entry handler that is given this memory. -/
def Leftover.env (left : Leftover) : HandlerEnv :=
  { first := ⟨true, some left.first⟩, second := ⟨true, some left.second⟩, kstrdup := true }

/-- The look-ups of a call in this memory. -/
def ProbedCall.lookups (c : ProbedCall) (left : Leftover) : List Check :=
  c.checks left.env

namespace Policy

/-- The policy denies the call: it stops one of the strings that are read as its paths. -/
def Denies (policy : Policy) (left : Leftover) (c : ProbedCall) : Prop :=
  ∃ check ∈ c.lookups left, policy.Stops check.lookedUp.string

instance deniesDecidable (policy : Policy) (left : Leftover) (c : ProbedCall) :
    Decidable (policy.Denies left c) :=
  inferInstanceAs (Decidable (∃ check ∈ c.lookups left, policy.Stops check.lookedUp.string))

/-- The message of the first look-up that the policy stops, if there is one, fits in
`error_message`. -/
def MessageFits (policy : Policy) : List Check → Prop
  | [] => True
  | check :: checks =>
    if policy.Stops check.lookedUp.string then check.Fits else policy.MessageFits checks

/-- Decides `MessageFits`. -/
def decideMessageFits (policy : Policy) : (checks : List Check) →
    Decidable (policy.MessageFits checks)
  | [] => isTrue trivial
  | check :: checks =>
    have := policy.decideMessageFits checks
    inferInstanceAs (Decidable
      (if policy.Stops check.lookedUp.string then check.Fits else policy.MessageFits checks))

instance messageFitsDecidable (policy : Policy) (checks : List Check) :
    Decidable (policy.MessageFits checks) :=
  policy.decideMessageFits checks

/-- What a call needs for its handlers to return. Whether the caller can be recorded is
`recordable`. -/
structure CallFits (policy : Policy) (left : Leftover) (recordable : Bool) (c : ProbedCall) :
    Prop where
  /-- The paths that are looked up fit in `PATH_MAX` bytes. -/
  paths : ∀ check ∈ c.lookups left, (render check.lookedUp.dentry).length < pathMax
  /-- The message of a denial fits. -/
  message : policy.MessageFits (c.lookups left)
  /-- The caller of a denied call can be recorded. -/
  recorded : policy.Denies left c → recordable = true

instance callFitsDecidable (policy : Policy) (left : Leftover) (recordable : Bool)
    (c : ProbedCall) : Decidable (policy.CallFits left recordable c) :=
  decidable_of_iff
    ((∀ check ∈ c.lookups left, (render check.lookedUp.dentry).length < pathMax) ∧
      policy.MessageFits (c.lookups left) ∧ (policy.Denies left c → recordable = true))
    ⟨fun h => ⟨h.1, h.2.1, h.2.2⟩, fun h => ⟨h.paths, h.message, h.recorded⟩⟩

/-- The value that the caller of a function sees. -/
def answer (policy : Policy) (left : ℕ → Leftover) (n : ℕ) (c : ProbedCall) (ret : ℤ) : ℤ :=
  if policy.Denies (left n) c then -EACCES else ret

end Policy

/-- A policy, and what the operations under its guard work on. -/
structure Guarded (σ : Type) where
  /-- The policy. -/
  policy : Policy
  /-- The state. -/
  state : σ

/-- What is done to it. -/
inductive GuardedAction (σ : Type) where
  /-- A request to the monitor. -/
  | ask (q : Petition)
  /-- An operation, by a caller that can be recorded or not. -/
  | op (left : ℕ → Leftover) (recordable : Bool) (code : σ → Hooked ProbedCall σ)

namespace Guarded

variable {σ : Type}

/-- One action: the answer, and what is guarded after it. -/
def step (accepts : CStr → Bool) (g : Guarded σ) : GuardedAction σ → ℤ × Guarded σ
  | .ask q => ((g.policy.serve accepts q).1, { g with policy := (g.policy.serve accepts q).2 })
  | .op left _ code =>
    let (ret, state) := Hooked.runWith (g.policy.answer left) 0 (code g.state)
    (ret, { g with state })

/-- No call of an operation makes a handler fault. -/
def Fits (g : Guarded σ) : GuardedAction σ → Prop
  | .ask _ => True
  | .op left recordable code =>
    Hooked.EachCall (g.policy.answer left) (fun n => g.policy.CallFits (left n) recordable) 0
      (code g.state)

instance fitsDecidable (g : Guarded σ) (a : GuardedAction σ) : Decidable (g.Fits a) :=
  match a with
  | .ask _ => isTrue trivial
  | .op left recordable code =>
    inferInstanceAs (Decidable (Hooked.EachCall (g.policy.answer left)
      (fun n => g.policy.CallFits (left n) recordable) 0 (code g.state)))

end Guarded

/-! ### The actions that correspond -/

/-- The allocations of the paths succeed, in memory that held `left`. -/
structure HandlerEnv.Holds (env : HandlerEnv) (left : Leftover) : Prop where
  /-- The first path. -/
  first : env.first = ⟨true, some left.first⟩
  /-- The second path. -/
  second : env.second = ⟨true, some left.second⟩

/-- A system call that brings a request, or the same operation in the two systems. -/
inductive SystemAction.Carries {σ : Type} : SystemAction σ → GuardedAction σ → Prop
  /-- A system call. -/
  | call {c : Invocation} {q : Petition} (h : c.Carries q) : Carries (.call c) (.ask q)
  /-- An operation. -/
  | op (o : Operation σ) {left : ℕ → Leftover} {recordable : Bool}
      (henv : ∀ n, (o.env n).Holds (left n))
      (hlog : recordable = true → ∀ n, Recordable (o.log n) o.task) :
      Carries (.op o) (.op left recordable o.code)

/-! ### One call -/

section Call

variable {sha256 : List UInt8 → Vector UInt8 32} {secret : CStr} {s : Shared} {policy : Policy}

/-- Paths are read from memory in the same way, whatever else the handler meets. -/
theorem HandlerEnv.Holds.checks {env : HandlerEnv} {left : Leftover} (h : env.Holds left)
    (c : ProbedCall) : c.checks env = c.lookups left := by
  cases c <;> simp only [ProbedCall.lookups, ProbedCall.checks, Leftover.env, h.first, h.second]

/-- Each look-up is of a path that was allocated. -/
theorem succeeds_of_mem_lookups {c : ProbedCall} {left : Leftover} {check : Check}
    (h : check ∈ c.lookups left) : check.lookedUp.env.Succeeds := by
  have henvs : check.lookedUp.env = left.env.first ∨ check.lookedUp.env = left.env.second := by
    revert h
    cases c with
    | securityFileOpen file =>
      by_cases hflags : writeFlags file.flags = true <;>
        simp +contextual [ProbedCall.lookups, ProbedCall.checks, Check.of, hflags]
    | _ => simp +contextual [ProbedCall.lookups, ProbedCall.checks, Check.of, or_imp]
  rcases henvs with henv | henv
  · rw [henv]
    exact ⟨rfl, rfl⟩
  · rw [henv]
    exact ⟨rfl, rfl⟩

/-- The look-up of a path that is returned, against what the policy stops. -/
theorem Enacts.isBlacklisted_path (h : Enacts sha256 secret s policy) {p : PathCall}
    (hp : p.Returns) :
    StackReferenceMonitor.isBlacklisted s.rf p.path =
      some (if policy.Stops p.string then 1 else 0) := by
  obtain ⟨mem, hmem, hchars⟩ := hp.path
  rw [hmem, h.isBlacklisted, hchars]

/-- The look-ups of a handler: it returns, and denies what the policy stops. -/
theorem Enacts.runChecks (h : Enacts sha256 secret s policy) (env : HandlerEnv)
    {checks : List Check} (hreturns : ∀ check ∈ checks, check.lookedUp.Returns)
    (hfits : policy.MessageFits checks) :
    ∃ ret data,
      (StackReferenceMonitor.runChecks (some errorMessageSize) s.rf env checks).result =
          some (ret, data) ∧
        (ret = 0 ↔ ∃ check ∈ checks, policy.Stops check.lookedUp.string) := by
  -- on the look-ups: the first one that the policy stops decides, and its message is formatted
  induction checks with
  | nil => exact ⟨1, none, rfl, by simp⟩
  | cons check checks ih =>
    obtain ⟨hfirst, hrest⟩ := List.forall_mem_cons.mp hreturns
    rw [Policy.MessageFits] at hfits
    simp only [result_runChecks_cons, h.isBlacklisted_path hfirst, sprintfInto_errorMessage]
    by_cases hstops : policy.Stops check.lookedUp.string
    · rw [if_pos hstops] at hfits
      simp [hstops, hfits]
    · rw [if_neg hstops] at hfits
      simpa [hstops] using ih hrest hfits

/-- The entry handler of a call, with its array. -/
theorem Enacts.boundedEntryHandler (h : Enacts sha256 secret s policy) {env : HandlerEnv}
    {left : Leftover} (henv : env.Holds left) {recordable : Bool} {c : ProbedCall}
    (hfits : policy.CallFits left recordable c) :
    ∃ ret data, c.boundedEntryHandler s.rf env = some (ret, data) ∧
      (ret = 0 ↔ policy.Denies left c) := by
  have hreturns : ∀ check ∈ c.lookups left, check.lookedUp.Returns :=
    fun check hmem => ⟨succeeds_of_mem_lookups hmem, hfits.paths check hmem⟩
  rw [ProbedCall.boundedEntryHandler, ← result_runChecks, henv.checks]
  exact h.runChecks env hreturns hfits.message

/-- One call with its probe is one call under the guard. -/
theorem serve_refines {σ : Type} (h : Enacts sha256 secret s policy) {o : Operation σ}
    {left : ℕ → Leftover} (henv : ∀ n, (o.env n).Holds (left n)) {recordable : Bool}
    (hlog : recordable = true → ∀ n, Recordable (o.log n) o.task) (n : ℕ) (c : ProbedCall)
    (body : σ → ℤ × σ) (t : σ) (hfits : policy.CallFits (left n) recordable c) :
    System.serve s o n c body t = some (policy.answer left n c (body t).1, (body t).2) := by
  unfold System.serve Policy.answer
  rw [h.probes]
  cases henforces : policy.mode.enforces with
  | false =>
    -- the probes are disabled, and the policy stops nothing
    have hdeny : ¬policy.Denies (left n) c := by
      rintro ⟨check, -, hstops⟩
      exact absurd (henforces.symm.trans hstops.1) (by decide)
    rw [if_neg hdeny]
    rfl
  | true =>
    obtain ⟨ret, data, hentry, hret⟩ := h.boundedEntryHandler (henv n) hfits
    rw [if_pos rfl]
    by_cases hdeny : policy.Denies (left n) c
    · -- the body has run by the time that `ret_handler` replaces its value
      obtain rfl := hret.mpr hdeny
      obtain ⟨regs, hregs⟩ := Option.isSome_iff_exists.mp
        ((isSome_loggingRetHandler_iff data (System.returned (body t).1)).mpr
          (hlog (hfits.recorded hdeny) n))
      rw [if_pos hdeny, Kretprobe.call_of_zero hentry]
      show ((loggingRetHandler (o.log n) o.task data _).map _).bind _ = _
      rw [hregs, ← ax_of_loggingRetHandler hregs]
      rfl
    · have hne : ret ≠ 0 := fun hzero => hdeny (hret.mp hzero)
      rw [if_neg hdeny, Kretprobe.call_of_ne_zero hentry hne]
      rfl

end Call

/-! ### Runs -/

/-- The monitor is that of the policy, with room for `n` increments of `blacklist_size`, and the two
states are the same. -/
def System.Follows {σ : Type} (sha256 : List UInt8 → Vector UInt8 32) (secret : CStr) (n : ℕ)
    (s : System σ) (g : Guarded σ) : Prop :=
  EnactsFor sha256 secret n s.shared g.policy ∧ s.state = g.state

/-- One action of the system is one action under the guard. -/
theorem step_refines {σ : Type} {sha256 : List UInt8 → Vector UInt8 32} {secret : CStr} (n : ℕ)
    (s : System σ) (g : Guarded σ) (a : SystemAction σ) (b : GuardedAction σ)
    (h : s.Follows sha256 secret (n + 1) g) (hab : a.Carries b) (hfits : g.Fits b) :
    (s.step sha256 a).1 = some (g.step (sameDigest sha256 secret) b).1 ∧
      (s.step sha256 a).2.Follows sha256 secret n (g.step (sameDigest sha256 secret) b).2 := by
  obtain ⟨shared, state⟩ := s
  obtain ⟨policy, state'⟩ := g
  obtain ⟨⟨henacts, hroom⟩, rfl⟩ := h
  dsimp only at henacts hroom
  push_cast at hroom
  cases hab with
  | @call c q hc =>
    obtain ⟨hret, hafter⟩ := enacts_run henacts hc (by omega)
    have hcount := policy.count_serve_le (sameDigest sha256 secret) q
    have hleft : (policy.serve (sameDigest sha256 secret) q).2.count + n < 2 ^ 31 := by omega
    exact ⟨hret, ⟨hafter, hleft⟩, rfl⟩
  | @op o left recordable henv hlog =>
    have hleft : policy.count + n < 2 ^ 31 := by omega
    have hrun := Hooked.run_eq_runWith (serve_refines henacts henv hlog) hfits
    simp only [System.step, hrun, Guarded.step]
    exact ⟨trivial, ⟨henacts, hleft⟩, rfl⟩

/-- From a module that was loaded with the password `secret`, over a kernel in any state: take any
run of fewer than `2 ^ 31` system calls of the monitor and operations of the kernel, whole ones in
any order, in which no path that is looked up has `PATH_MAX` bytes, the message of each denial fits
in `error_message`, and each caller that is denied something can be recorded. It gives its callers
what the code of the operations under the guard of the policy gives them, and leaves the same
state. In particular no handler faults, whatever memory held. -/
theorem system_refines_guard {σ : Type} (sha256 : List UInt8 → Vector UInt8 32) (secret : CStr)
    (encrypt : EncryptEnv) (hencrypt : (encryptPassword sha256 encrypt secret).isSome)
    (state : σ) (as : List (SystemAction σ)) (bs : List (GuardedAction σ))
    (h : List.Forall₂ SystemAction.Carries as bs)
    (hfits : Run.EachStep (fun g a => (Guarded.step (sameDigest sha256 secret) g a).2) Guarded.Fits
      ⟨.initial, state⟩ bs)
    (hlen : as.length < 2 ^ 31) :
    Run.outputs (System.step sha256) ⟨initModule sha256 encrypt secret, state⟩ as =
        (Run.outputs (Guarded.step (sameDigest sha256 secret)) ⟨.initial, state⟩ bs).map some ∧
      (Run.exec (fun s a => (System.step sha256 s a).2) ⟨initModule sha256 encrypt secret, state⟩
          as).state =
        (Run.exec (fun g a => (Guarded.step (sameDigest sha256 secret) g a).2)
          (Guarded.mk .initial state) bs).state := by
  have hroom : Policy.initial.count + ((as.length + 0 : ℕ) : ℤ) < 2 ^ 31 := by
    show (0 : ℤ) + _ < 2 ^ 31
    omega
  have hstart : System.Follows sha256 secret (as.length + 0)
      ⟨initModule sha256 encrypt secret, state⟩ ⟨.initial, state⟩ :=
    ⟨⟨enacts_initModule sha256 secret hencrypt, hroom⟩, rfl⟩
  obtain ⟨houts, hend⟩ := Run.simulation_each step_refines hstart h hfits
  exact ⟨houts, hend.2⟩

/-! ### File operations -/

/-- An operation on the file system of `Vfs.Defs` as code. A write or a seek through an open file is
the probed function itself. The others come to their hook after the kernel's own checks, of which
one is left to the file system behind it: whether a directory is empty. -/
def VfsOp.code (op : VfsOp) (fs : FileSystem) : Hooked ProbedCall FileSystem :=
  match op.call fs with
  | none => .done (fs.perform op).1 (fs.perform op).2
  | some call =>
    if !op.hooked then .call call fs (fun fs => fs.perform op) .done
    else if fs.check op ≠ 0 ∧ fs.check op ≠ -ENOTEMPTY then .done (fs.check op) fs
    -- two names of one inode: there is nothing to rename, and the hook is not asked
    else if fs.check op = 0 ∧ fs.effect op = fs then .done 0 fs
    else
      .call call fs (fun fs => (0, fs)) fun ret fs =>
        if ret = 0 then .done (fs.perform op).1 (fs.perform op).2 else .done ret fs

/-- An operation by a user, in memory of letters `b`. -/
def VfsOp.byUser (op : VfsOp) : Operation FileSystem where
  task := sampleUser
  code := op.code
  env := fun _ => strayEnv
  log := fun _ => sampleLogEnv

/-- Root switches to REC_ON and adds `/a`. Then the open file `/a` is written, which is denied and
done, `/a` is unlinked, which is denied, `/a` is created, which the kernel does not come to ask
about, and `/b` is created. -/
theorem system_refines_guard_openA :
    Run.outputs (System.step sampleSha256)
        ⟨initModule sampleSha256 sampleEncrypt ⟨[], by decide⟩, openA⟩
        [.call ⟨0, .switchRfState 2 2, sampleCallEnv⟩,
          .call ⟨0, .addToBlacklist 0 2, sampleCallEnv⟩,
          .op (VfsOp.write 0 [65]).byUser, .op (VfsOp.unlink [nameA]).byUser,
          .op (VfsOp.create [nameA]).byUser, .op (VfsOp.create [nameB]).byUser] =
      [some 2, some 0, some (-EACCES), some (-EACCES), some (-EEXIST), some 0] := by
  have hpassword : sampleCallEnv.password.Brings 2 ⟨[], by decide⟩ :=
    ⟨⟨by decide, by decide, by decide, by decide⟩, by decide, by decide, by decide⟩
  have hadd : Blacklist.Performs (.add sampleCallEnv.add 0) (.add Blacklist.pathA) := by
    simp only [Blacklist.Performs]
    decide
  have hprobe : ∀ i, sampleCallEnv.probe i = true := fun _ => rfl
  have hswitch : Invocation.Carries ⟨0, .switchRfState 2 2, sampleCallEnv⟩
      ⟨0, ⟨[], by decide⟩, .switch 2⟩ :=
    ⟨rfl, ⟨rfl, hpassword⟩, hprobe, rfl⟩
  have hadds : Invocation.Carries ⟨0, .addToBlacklist 0 2, sampleCallEnv⟩
      ⟨0, ⟨[], by decide⟩, .add Blacklist.pathA⟩ :=
    ⟨rfl, ⟨hadd, hpassword⟩, hprobe, rfl⟩
  have hop : ∀ op : VfsOp, SystemAction.Carries (.op op.byUser)
      (.op (fun _ => ⟨fun _ => 98, fun _ => 98⟩) true op.code) :=
    fun op => .op op.byUser (fun _ => ⟨rfl, rfl⟩) fun _ _ _ => rfl
  rw [(system_refines_guard sampleSha256 ⟨[], by decide⟩ sampleEncrypt (by decide) openA _ _
    (.cons (.call hswitch) (.cons (.call hadds) (.cons (hop _) (.cons (hop _) (.cons (hop _)
      (.cons (hop _) .nil)))))) (by decide +kernel) (by decide)).1]
  decide +kernel

end StackReferenceMonitor
