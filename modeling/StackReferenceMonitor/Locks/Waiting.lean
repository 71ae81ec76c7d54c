import StackReferenceMonitor.Foundations.Contention
import StackReferenceMonitor.Locks.Discipline

/-!
# Waiting for the locks

Any number of threads that call the functions which take a lock, one after the other, interleaved
in any order. A thread waits for a lock until it is free, and a thread that faults stops where it
is, with the lock if it holds it.

No function takes a lock while it holds another, so that no two threads wait for each other. What
does make a thread wait forever is one that has faulted in a section: a look-up of a `NULL` path, or
a write beyond its block.

## Main definitions

* `LockedCall.returns`: the call returns.
* `LockedCall.program`: the lock operations of a thread that makes some calls.

## Main results

* `waits_only_for_stopped`: exclusion, and for what a thread can wait.
-/

namespace StackReferenceMonitor

open Locks (Disciplined)
open Contention (State)

namespace LockedCall

/-- The call returns. -/
def returns : LockedCall → Bool
  | addToBlacklist env path bl => (Blacklist.addToBlacklist env path bl).isSome
  | removeFromBlacklist env path bl => (Blacklist.removeFromBlacklist env path bl).isSome
  | isBlacklisted rf path => (StackReferenceMonitor.isBlacklisted rf path).isSome
  | sysSwitchRfState sha256 array env euid s state password =>
    (StackReferenceMonitor.sysSwitchRfState sha256 array env euid s state password).1.isSome
  -- with zero or with an error
  | loadModule _ _ _ => true
  | writeOnLog env task => (StackReferenceMonitor.writeOnLog env task).isSome
  | onefilefsRead env d fileSize len off => (LogFs.onefilefsRead env d fileSize len off).isSome
  | onefileWrite env data fs => (LogFs.onefileWrite env data fs).isSome

/-- The lock operations of a thread that makes the calls one after the other, up to the first that
does not return. -/
def program : List LockedCall → List (LockOp Lock)
  | [] => []
  | call :: calls => call.events ++ if call.returns then program calls else []

/-- The locks that one of the calls does not give back. -/
def stops (calls : List LockedCall) : Set Lock :=
  {l | ∃ call ∈ calls, call.events = [.acquire l]}

/-! ### One section at most -/

/-- The lock operations of a call, and whether it returns. -/
inductive Shape : List (LockOp Lock) → Bool → Prop
  /-- The call takes no lock. -/
  | free (returns : Bool) : Shape [] returns
  /-- It stops in its section. -/
  | stop (l : Lock) : l ≠ .defWork → Shape [.acquire l] false
  /-- It leaves its section, and may stop after it. -/
  | locked (l : Lock) (returns : Bool) : l ≠ .defWork → Shape [.acquire l, .release l] returns
  /-- It gives back the lock that it has not taken. -/
  | spurious (returns : Bool) : Shape [.release .defWork] returns

theorem Shape.of_guarded {α : Type} {l : Lock} {x : Locked α} (hl : l ≠ .defWork)
    (h : Locks.Guarded l x) : Shape x.events x.result.isSome := by
  rw [h.events]
  by_cases hsome : x.result.isSome = true
  · rw [if_pos hsome, hsome]
    exact .locked l true hl
  · rw [if_neg hsome, Bool.eq_false_iff.mpr hsome]
    exact .stop l hl

theorem Shape.of_section {l : Lock} {ops : List (LockOp Lock)} (hl : l ≠ .defWork)
    (h : ops = [] ∨ ops = [.acquire l, .release l]) (returns : Bool) : Shape ops returns := by
  rcases h with rfl | rfl
  · exact .free returns
  · exact .locked l returns hl

theorem shape_addToBlacklist (env : Blacklist.AddEnv) (path : ℕ) (bl : Blacklist) :
    Shape (Blacklist.addToBlacklistLocks env path bl).events
      (Blacklist.addToBlacklistLocks env path bl).result.isSome := by
  unfold Blacklist.addToBlacklistLocks
  cases env.kernelRelPath with
  | none => exact .free _
  | some after =>
    simp only [if_neg (UserMem.copyFromUser_ne_neg_one env.mem path pathMax)]
    cases env.new with
    | none => exact .free _
    | some next =>
      dsimp only
      split
      · exact .of_guarded (by decide) (Blacklist.guarded_addLockedLocks bl _)
      · exact .free _

theorem shape_removeFromBlacklist (env : Blacklist.RemoveEnv) (path : ℕ) (bl : Blacklist) :
    Shape (Blacklist.removeFromBlacklistLocks env path bl).events
      (Blacklist.removeFromBlacklistLocks env path bl).result.isSome := by
  unfold Blacklist.removeFromBlacklistLocks
  cases env.kernelPath with
  | none => exact .free _
  | some after =>
    simp only [if_neg (UserMem.copyFromUser_ne_neg_one env.mem path pathMax)]
    exact .of_guarded (by decide) (Blacklist.guarded_removeLockedLocks bl _)

theorem shape_isBlacklisted (rf : ReferenceMonitor) (path : Option (List UInt8)) :
    Shape (isBlacklistedLocks rf path).events (isBlacklistedLocks rf path).result.isSome := by
  unfold isBlacklistedLocks
  split
  · exact .free _
  · split
    · exact .free _
    · exact .of_guarded (by decide) ⟨_, rfl, releases_lookupScanLocks _ _ _ _⟩

theorem shape_writeOnLog (env : WriteOnLogEnv) (task : Task) :
    Shape (writeOnLogLocks env task).events (writeOnLogLocks env task).result.isSome := by
  unfold writeOnLogLocks
  split
  · exact .spurious _
  · cases task.mm with
    | none => exact .free _
    | some exeDentry =>
      rw [Traced.bind_of_result (Traced.result_ofOption _)]
      dsimp only
      split
      · exact .free _
      · exact .spurious _

/-- A call has one section at most. -/
theorem shape (call : LockedCall) : Shape call.events call.returns := by
  cases call with
  | addToBlacklist env path bl =>
    rw [returns, ← Blacklist.result_addToBlacklistLocks]
    exact shape_addToBlacklist env path bl
  | removeFromBlacklist env path bl =>
    rw [returns, ← Blacklist.result_removeFromBlacklistLocks]
    exact shape_removeFromBlacklist env path bl
  | isBlacklisted rf path =>
    rw [returns, ← result_isBlacklistedLocks]
    exact shape_isBlacklisted rf path
  | sysSwitchRfState sha256 array env euid s state password =>
    have hsection := events_sysSwitchRfStateLocks sha256 array env euid s state password
    exact .of_section (by decide) hsection _
  | loadModule sha256 env password =>
    exact .of_section (by decide) (events_loadModuleLocks sha256 env password) true
  | writeOnLog env task =>
    rw [returns, ← result_writeOnLogLocks]
    exact shape_writeOnLog env task
  | onefilefsRead env d fileSize len off =>
    rw [returns, ← LogFs.result_onefilefsReadLocks]
    exact .of_guarded (by decide) (LogFs.guarded_onefilefsReadLocks env d fileSize len off)
  | onefileWrite env data fs =>
    rw [returns, ← LogFs.result_onefileWriteLocks]
    exact .of_guarded (by decide) (LogFs.guarded_onefileWriteLocks env data fs)

/-- A thread has one section after the other, and stops in the last one if at all. -/
theorem bracketed_program (calls : List LockedCall) :
    Bracketed {.defWork} (stops calls) (program calls) := by
  induction calls with
  | nil => exact .nil
  | cons call calls ih =>
    have hrest : Bracketed {.defWork} (stops (call :: calls))
        (if call.returns then program calls else []) := by
      split_ifs
      · exact ih.mono fun l hl => hl.imp fun c h => ⟨List.mem_cons_of_mem call h.1, h.2⟩
      · exact .nil
    have hstops : ∀ l, call.events = [.acquire l] → l ∈ stops (call :: calls) :=
      fun l h => ⟨call, List.mem_cons_self, h⟩
    have hshape := call.shape
    rw [program]
    generalize call.events = events at hshape hstops ⊢
    generalize call.returns = returns at hshape hrest ⊢
    cases hshape with
    | free => exact hrest
    | stop l hl => exact .stop l hl (hstops l rfl)
    | locked l _ hl => exact .locked l _ hl hrest
    | spurious => exact .unused _ _ rfl hrest

end LockedCall

/-- For any threads that make any such calls, and after any steps of theirs:

* two threads are never both in a section of one lock;
* when no thread can go on, each has done all its calls, or waits for a lock that a thread holds
  which has faulted in its section;
* if all calls keep to the discipline, then all threads are done, and all locks are free;
* no run in which each step does an operation is longer than the operations that there are. -/
theorem waits_only_for_stopped {ι : Type} [Fintype ι] [DecidableEq ι]
    (calls : ι → List LockedCall) (as : List ι) :
    let s₀ : State ι Lock := Contention.init fun i => LockedCall.program (calls i)
    let s := Run.exec Contention.step s₀ as
    (∀ i j l ops ops', l ≠ .defWork → s.todo i = .release l :: ops →
        s.todo j = .release l :: ops' → i = j) ∧
      ((∀ i, ¬s.Enabled i) → ∀ i, s.todo i = [] ∨
        ∃ l ops j, s.todo i = .acquire l :: ops ∧ s.holder l = some j ∧ s.todo j = [] ∧
          ∃ call ∈ calls j, call.events = [.acquire l]) ∧
      ((∀ i, ∀ call ∈ calls i, Disciplined call.events) → (∀ i, ¬s.Enabled i) →
        (∀ i, s.todo i = []) ∧ ∀ l, s.holder l = none) ∧
      (Run.EachStep Contention.step State.Enabled s₀ as →
        as.length ≤ ∑ i, (LockedCall.program (calls i)).length) := by
  intro s₀ s
  have hinit : s₀.Ok {.defWork} fun i => LockedCall.stops (calls i) :=
    Contention.ok_init fun i => LockedCall.bracketed_program (calls i)
  have hok : s.Ok {.defWork} fun i => LockedCall.stops (calls i) :=
    Run.invariant (fun s i h => h.step i) hinit as
  refine ⟨fun i j l ops ops' hl => hok.exclusive hl, fun hstuck => hok.waits hstuck, ?_, ?_⟩
  · intro hdisciplined hstuck
    have hstops : (fun i => LockedCall.stops (calls i)) = fun _ => ∅ := by
      funext i
      refine Set.eq_empty_iff_forall_notMem.mpr fun l hl => ?_
      obtain ⟨call, hcall, hevents⟩ := hl
      exact Locks.not_disciplined_acquire l (hevents ▸ hdisciplined i call hcall)
    rw [hstops] at hok
    have hdone : ∀ i, s.todo i = [] := by
      intro i
      rcases hok.waits hstuck i with hdone | ⟨l, ops, j, -, -, -, hstop⟩
      · exact hdone
      · exact absurd hstop (Set.notMem_empty l)
    exact ⟨hdone, hok.free hdone⟩
  · intro hsteps
    exact Contention.length_le hsteps

/-- One thread looks up a `NULL` path while the monitor is ON and lists `/a`, and root asks for OFF
on another one. -/
def nullLookup (null : Bool) : List LockedCall :=
  let s : Shared :=
    { sampleInit.shared with rf.state := rfOn, rf.blacklist := Blacklist.listOf Blacklist.pathA }
  if null then [.isBlacklisted s.rf none]
  else [.sysSwitchRfState sampleSha256 (some fun _ => true) sampleCallEnv 0 s rfOff 2]

/-- After the first has taken the lock, the switch waits for it. -/
theorem waits_only_for_stopped_nullLookup :
    ∃ l ops, (Run.exec Contention.step
        (Contention.init fun i => LockedCall.program (nullLookup i)) [true]).todo false =
      LockOp.acquire l :: ops := by
  have hstuck : ∀ i, ¬(Run.exec Contention.step
      (Contention.init fun i => LockedCall.program (nullLookup i)) [true]).Enabled i := by
    rintro (_ | _) h
    · exact absurd (show some true = none from h) (by simp)
    · exact h
  rcases (waits_only_for_stopped nullLookup [true]).2.1 hstuck false with
    hdone | ⟨l, ops, j, htodo, -⟩
  · exact absurd (congrArg List.length hdone) (by decide +kernel)
  · exact ⟨l, ops, htodo⟩

end StackReferenceMonitor
