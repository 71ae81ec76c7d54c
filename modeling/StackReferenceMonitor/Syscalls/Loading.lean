import StackReferenceMonitor.SyscallTable.Defs
import StackReferenceMonitor.Syscalls.Registration

/-!
# System calls that come while the module is loaded

`init_module` stores the entries of the system call table before anything else. From then on the
calls can be made, while the monitor is still as the loader of the kernel has left it, all zero:
its state reads as ON, its digest is `NULL`, and so is `kprobe_array`. Here `init_module` takes one
step at a time, and the steps of any number of calls may come in between.

## Main definitions

* `Loader`: where `init_module` stands.
* `Loading`, `Loading.step`: the machine with `init_module` in it.
* `Loading.shadow`: the step of the machine of `Syscalls.Defs` that goes with a step of it.
* `Loading.Refines`: what the two machines have in common.

## Main results

* `advance_trails`, `firstStep_early`, `passwordStep_early`: the steps of the calls in both
  machines.
-/

namespace StackReferenceMonitor

/-! ### The steps of `init_module` -/

/-- Where `init_module` stands. -/
inductive Loader where
  /-- Before `get_entries`. -/
  | searching
  /-- Before the entry `i` of the table is overwritten. -/
  | installing (i : Fin hackedEntries)
  /-- Before the section under the lock. -/
  | resetting
  /-- Before the digest is stored. -/
  | encrypting
  /-- Before `kprobe_array` is allocated. -/
  | allocating
  /-- Before the pointer `i` of `kprobe_array` is set. -/
  | filling (i : Fin numKretprobes)
  /-- In `register_kretprobes`, before the probe `i`. -/
  | registering (i : Fin numKretprobes)
  /-- After zero was returned. -/
  | loaded
  /-- After the error `ret` was returned. -/
  | failed (ret : ℤ)

/-- The digest is stored. -/
def Loader.encrypted : Loader → Bool
  | .allocating | .filling _ | .registering _ | .loaded => true
  | _ => false

/-- How many steps are left, at most. -/
def Loader.left : Loader → ℕ
  | .searching => 30
  | .installing i => 29 - i
  | .resetting => 23
  | .encrypting => 22
  | .allocating => 21
  | .filling i => 20 - i
  | .registering i => 10 - i
  | .loaded | .failed _ => 0

/-- `kprobe_array` while it is set up: `NULL`, or for each of its pointers whether it is set, and
then whether the probe is registered. -/
abbrev KprobeSlots := Option (Fin numKretprobes → Option Bool)

/-- The array when all of its pointers are set. -/
def KprobeArray.slots (array : KprobeArray) : KprobeSlots :=
  array.map fun registered i => some (registered i)

/-- The module while it is loaded, and the threads. -/
structure Loading extends Machine where
  /-- Where `init_module` stands. -/
  loader : Loader
  /-- The entries of the system call table that lead to the module. -/
  table : Fin hackedEntries → Bool
  /-- `kprobe_array`. -/
  array : KprobeSlots

/-- The variables of the module before `init_module`. -/
def Loading.init : Loading where
  shared := { rf := { state := 0, password := none, blacklist := Blacklist.empty }
              probes := fun _ => false }
  threads := fun _ => .idle
  loader := .searching
  table := fun _ => false
  array := none

/-- The step after the round `i` of a loop, which has `n` rounds and ends at `last`. -/
def Loader.next {n : ℕ} (round : Fin n → Loader) (last : Loader) (i : Fin n) : Loader :=
  if h : i.val + 1 < n then round ⟨i.val + 1, h⟩ else last

theorem hackedEntries_pos : 0 < hackedEntries := by decide

theorem numKretprobes_pos : 0 < numKretprobes := by decide

/-- The next step of `init_module`. -/
def Loading.load (sha256 : List UInt8 → Vector UInt8 32) (env : LoadEnv) (password : CStr)
    (m : Loading) : Loading :=
  match m.loader with
  | .searching =>
    if env.initializeSyscalls ≠ 0 then { m with loader := .failed env.initializeSyscalls }
    else { m with loader := .installing ⟨0, hackedEntries_pos⟩ }
  | .installing i =>
    { m with
      table := Function.update m.table i true
      loader := .next .installing .resetting i }
  | .resetting =>
    { m with
      shared.rf.state := 1
      shared.rf.blacklist.head := none
      shared.rf.blacklist.size := 0
      loader := .encrypting }
  | .encrypting =>
    { m with
      shared.rf.password := encryptPassword sha256 env.encrypt password
      loader := .allocating }
  | .allocating =>
    -- the error of `kretprobe_init` is not looked at
    if !env.register.array then { m with array := none, loader := .loaded }
    else { m with array := some fun _ => none, loader := .filling ⟨0, numKretprobes_pos⟩ }
  | .filling i =>
    { m with
      array := m.array.map fun slots => Function.update slots i (some false)
      loader := .next .filling (.registering ⟨0, numKretprobes_pos⟩) i }
  | .registering i =>
    if env.register.register i < 0 then
      -- a probe that is unregistered is disabled with it
      { m with
        shared.probes := fun _ => false
        array := m.array.map fun _ _ => some false
        loader := .loaded }
    else
      -- `set_kretprobe` has set the flag that keeps the probe disabled
      { m with
        array := m.array.map fun slots => Function.update slots i (some true)
        loader := .next .registering .loaded i }
  | .loaded | .failed _ => m

/-! ### Calls in between -/

/-- The entry of the table for a call, in the order of `new_sys_call_array`. -/
def Syscall.entry : Syscall → Fin hackedEntries
  | .switchRfState _ _ => 0
  | .getRfState => 1
  | .addToBlacklist _ _ => 2
  | .removeFromBlacklist _ _ => 3
  | .printBlacklist _ _ => 4
  | .getBlacklistSize => 5

/-- The next step of a thread. A round of the loop over the probes reads the pointer from
`kprobe_array`: it faults if there is no array, and also on a pointer that is not set yet. -/
def Loading.advance (sha256 : List UInt8 → Vector UInt8 32) (array : KprobeSlots) (env : StepEnv)
    (s : Shared) (thread : Thread) : Shared × Thread :=
  match thread with
  | .running euid call (.probing i) =>
    match array.bind fun slots => slots i with
    | none => (s, .oops)
    | some registered => probeStep { env with probe := registered && env.probe } s euid call i
  | thread => StackReferenceMonitor.advance sha256 env s thread

/-- A step of `init_module` or of a thread. -/
inductive LoadAction where
  /-- `init_module` takes its next step. -/
  | load
  /-- A thread takes a step. -/
  | call (a : Action)

/-- One step. A call can be made when its entry is in the table. -/
def Loading.step (sha256 : List UInt8 → Vector UInt8 32) (env : LoadEnv) (password : CStr)
    (m : Loading) : LoadAction → Loading
  | .load => m.load sha256 env password
  | .call (.invoke t euid call) =>
    if m.table call.entry then
      { m with toMachine := m.toMachine.step sha256 (.invoke t euid call) }
    else m
  | .call (.advance t stepEnv) =>
    let (shared, thread) := Loading.advance sha256 m.array stepEnv m.shared (m.threads t)
    { m with shared, threads := Function.update m.threads t thread }

/-! ### Loading at once -/

/-- All probes can be registered. -/
def RegisterEnv.Succeeds (env : RegisterEnv) : Prop :=
  ∀ i, 0 ≤ env.register i

instance RegisterEnv.decidableSucceeds (env : RegisterEnv) : Decidable env.Succeeds :=
  inferInstanceAs (Decidable (∀ i, 0 ≤ env.register i))

/-- Whether a step that changes a probe lasts: the probe is registered by now, and stays it. -/
def Loading.probeLasts (env : RegisterEnv) (m : Loading) : Thread → Bool
  | .running _ _ (.probing i) =>
    (m.array.bind fun slots => slots i).getD false && decide env.Succeeds
  | _ => true

/-- The step that goes with a step of the machine, when the module has been loaded at once. A step
that faults is left out: the thread stays where it is. -/
def Loading.shadow (sha256 : List UInt8 → Vector UInt8 32) (env : LoadEnv) (m : Loading) :
    LoadAction → Option Action
  | .load => none
  | .call (.invoke t euid call) =>
    if m.table call.entry then some (.invoke t euid call) else none
  | .call (.advance t stepEnv) =>
    match (Loading.advance sha256 m.array stepEnv m.shared (m.threads t)).2 with
    | .oops => none
    | _ =>
      some (.advance t
        { stepEnv with probe := m.probeLasts env.register (m.threads t) && stepEnv.probe })

/-- Where a thread stands, without the state that its first check has seen. -/
def Pc.forget : Pc → Pc
  | .stateChecked _ => .stateChecked 0
  | .passwordChecked e => .passwordChecked { e with observed := 0 }
  | .authorised e => .authorised { e with observed := 0 }
  | pc => pc

/-- A thread, and the same thread when the module has been loaded at once. -/
inductive Thread.Shadows : Thread → Thread → Prop
  /-- It is in no call. -/
  | idle : Shadows .idle .idle
  /-- It has come as far in the same call. -/
  | running {euid : ℕ} {call : Syscall} {pc pc' : Pc} (h : pc.forget = pc'.forget) :
    Shadows (.running euid call pc) (.running euid call pc')
  /-- It has got the same answer. -/
  | returned {ret : ℤ} : Shadows (.returned ret) (.returned ret)
  /-- It was told that the monitor is ON, for OFF. -/
  | early : Shadows (.returned rfOn) (.returned rfOff)
  /-- It was stopped, and does not go on. -/
  | stopped {euid : ℕ} {call : Syscall} {pc : Pc} : Shadows .oops (.running euid call pc)

/-- What `init_module` has written until the digest is stored. -/
def Loader.written : Loader → Shared
  | .encrypting => { Loading.init.shared with rf.state := rfOff }
  | _ => Loading.init.shared

/-- The module while it is loaded, and the machine when it has been loaded at once. -/
structure Loading.Refines (sha256 : List UInt8 → Vector UInt8 32) (env : LoadEnv)
    (password : CStr) (m : Loading) (u : Machine) : Prop where
  /-- Until the digest is stored, the monitor and the probes are as `init_module` has written them.
  Nor does any call change anything after the module has been loaded at once. -/
  early : m.loader.encrypted = false →
    m.shared = m.loader.written ∧ u.shared = initModule sha256 env.encrypt password
  /-- From then on, the monitors are the same. -/
  later : m.loader.encrypted = true → m.shared.rf = u.shared.rf
  /-- In the end, the probes are too, and the array is the one of `kretprobe_init`. -/
  loaded : m.loader = .loaded →
    m.shared = u.shared ∧ ∃ array, m.array = array.slots ∧
      loadModule sha256 env password = .ok (array, initModule sha256 env.encrypt password)
  /-- After an error, no call was ever made. -/
  failed : ∀ ret, m.loader = .failed ret →
    loadModule sha256 env password = .error ret ∧ ∀ t, m.threads t = .idle
  /-- The threads. -/
  threads : ∀ t, (m.threads t).Shadows (u.threads t)

/-! ### Steps of the calls, side by side -/

/-- The thread has stopped, or stands where the other does. -/
def Thread.Trails (thread thread' : Thread) : Prop :=
  thread = .oops ∨ thread.Shadows thread'

theorem Thread.Trails.refl (thread : Thread) : thread.Trails thread := by
  cases thread with
  | idle => exact .inr .idle
  | running euid call pc => exact .inr (.running rfl)
  | returned ret => exact .inr .returned
  | oops => exact .inl rfl

theorem Thread.Trails.check {ret : ℤ} {next next' : Thread} (h : ret = 0 → next.Trails next') :
    (Thread.check ret next).Trails (Thread.check ret next') := by
  unfold Thread.check
  split_ifs with hret
  · exact .inr .returned
  · exact h (not_not.mp hret)

/-- The thread is not past `password_check`. -/
def Thread.Unproved : Thread → Prop
  | .running _ _ .called | .running _ _ (.stateChecked _) => True
  | .running _ _ _ => False
  | _ => True

section SideBySide

variable {sha256 : List UInt8 → Vector UInt8 32} {env : StepEnv} {euid : ℕ} {call : Syscall}

/-- Without a stored digest, `password_check` returns nothing but its own errors. -/
theorem passwordCheck_of_null {penv : PasswordEnv} {password : ℕ} {rf : ReferenceMonitor} {ret : ℤ}
    (hnull : rf.password = none) (h : passwordCheck sha256 penv password rf = some ret) :
    ret ≠ 0 ∧ ∀ rf', passwordCheck sha256 penv password rf' = some ret := by
  unfold passwordCheck at h ⊢
  split_ifs at h ⊢ with hbuffer hcopy
  · obtain rfl := Option.some.inj h
    exact ⟨by decide, fun _ => rfl⟩
  · obtain rfl := Option.some.inj h
    exact ⟨by decide, fun _ => rfl⟩
  · -- `strcmp` with the `NULL` that is stored
    simp [hnull] at h

/-- The first step of a call that comes before the digest is stored. -/
theorem firstStep_early (sha256 : List UInt8 → Vector UInt8 32) (env : StepEnv) (euid : ℕ)
    (call : Syscall) (loader : Loader) (encrypt : EncryptEnv) (password : CStr) (b : Bool) :
    (firstStep env loader.written euid call).Unproved ∧
      (firstStep env loader.written euid call).Trails
        (firstStep { env with probe := b } (initModule sha256 encrypt password) euid call) := by
  obtain ⟨state, hstate, hwritten⟩ : ∃ state : ℤ, (state = rfOn ∨ state = rfOff) ∧
      loader.written = ⟨⟨state, none, Blacklist.empty⟩, fun _ => false⟩ := by
    cases loader with
    | encrypting => exact ⟨rfOff, .inr rfl, rfl⟩
    | _ => exact ⟨rfOn, .inl rfl, rfl⟩
  have hrec : isRfRec ⟨state, none, Blacklist.empty⟩ = -EPERM := by
    rcases hstate with rfl | rfl <;> rfl
  rw [hwritten]
  cases call with
  | switchRfState state' password' =>
    simp only [firstStep]
    refine ⟨?_, .check fun _ => .inr (.running rfl)⟩
    unfold Thread.check
    split_ifs <;> trivial
  | getRfState =>
    simp only [firstStep, returnState]
    cases env.stateString with
    | false => exact ⟨trivial, .inr .returned⟩
    | true =>
      refine ⟨trivial, .inr ?_⟩
      rcases hstate with rfl | rfl
      · exact .early
      · exact .returned
  | addToBlacklist path password' =>
    simp only [firstStep, hrec]
    exact ⟨trivial, .inr .returned⟩
  | removeFromBlacklist path password' =>
    simp only [firstStep, hrec]
    exact ⟨trivial, .inr .returned⟩
  | printBlacklist buffer size =>
    refine ⟨?_, .refl _⟩
    simp only [firstStep]
    split <;> trivial
  | getBlacklistSize => exact ⟨trivial, .inr .returned⟩

/-- `password_check` before the digest is stored. -/
theorem passwordStep_early {s : Shared} (hnull : s.rf.password = none) (s' : Shared)
    (observed observed' : ℤ) (b : Bool) :
    (passwordStep sha256 env s euid call observed).Unproved ∧
      (passwordStep sha256 env s euid call observed).Trails
        (passwordStep sha256 { env with probe := b } s' euid call observed') := by
  unfold passwordStep
  cases hcall : call.password with
  | none => exact ⟨trivial, .inl rfl⟩
  | some password =>
    dsimp only
    cases hcheck : passwordCheck sha256 env.password password s.rf with
    | none => exact ⟨trivial, .inl rfl⟩
    | some ret =>
      obtain ⟨hret, hsame⟩ := passwordCheck_of_null hnull hcheck
      rw [hsame s'.rf]
      simp only [Thread.check, if_pos hret]
      exact ⟨trivial, .inr .returned⟩

/-- A step outside the loop over the probes, by threads that find the same monitor. If it faults, it
has changed nothing. -/
theorem advance_trails {pc pc' : Pc} (hpc : pc.forget = pc'.forget)
    (hprobing : ∀ i, pc ≠ .probing i) (sha256 : List UInt8 → Vector UInt8 32) (env : StepEnv)
    (euid : ℕ) (call : Syscall) (rf : ReferenceMonitor) (probes probes' : Fin numKretprobes → Bool)
    (b : Bool) :
    let result := advance sha256 env ⟨rf, probes⟩ (.running euid call pc)
    let result' :=
      advance sha256 { env with probe := b } ⟨rf, probes'⟩ (.running euid call pc')
    result.2.Trails result'.2 ∧ (result.2 = .oops → result.1 = ⟨rf, probes⟩) ∧
      result.1.rf = result'.1.rf ∧ result.1.probes = probes ∧ result'.1.probes = probes' := by
  cases pc with
  | called =>
    cases pc' <;> simp only [Pc.forget, reduceCtorEq] at hpc
    exact ⟨.refl _, fun _ => rfl, rfl, rfl, rfl⟩
  | stateChecked observed =>
    cases pc' <;> simp only [Pc.forget, reduceCtorEq] at hpc
    refine ⟨?_, fun _ => rfl, rfl, rfl, rfl⟩
    simp only [advance, passwordStep]
    cases call.password with
    | none => exact .inl rfl
    | some password =>
      dsimp only
      cases passwordCheck sha256 env.password password rf with
      | none => exact .inl rfl
      | some ret => exact .check fun _ => .inr (.running rfl)
  | passwordChecked e =>
    cases pc' <;> simp only [Pc.forget, reduceCtorEq, Pc.passwordChecked.injEq] at hpc
    refine ⟨.check fun _ => .inr (.running ?_), fun _ => rfl, rfl, rfl, rfl⟩
    simp only [Pc.forget, hpc]
  | authorised e =>
    cases pc' <;> simp only [Pc.forget, reduceCtorEq] at hpc
    simp only [advance]
    cases call with
    | addToBlacklist path password =>
      simp only [lockedStep]
      cases Blacklist.addToBlacklist env.add path rf.blacklist with
      | none => exact ⟨.inl rfl, fun _ => rfl, rfl, rfl, rfl⟩
      | some result => exact ⟨.inr .returned, fun h => absurd h (by simp), rfl, rfl, rfl⟩
    | removeFromBlacklist path password =>
      simp only [lockedStep]
      cases Blacklist.removeFromBlacklist env.remove path rf.blacklist with
      | none => exact ⟨.inl rfl, fun _ => rfl, rfl, rfl, rfl⟩
      | some result => exact ⟨.inr .returned, fun h => absurd h (by simp), rfl, rfl, rfl⟩
    | switchRfState state password =>
      exact ⟨.inr (.running rfl), fun h => absurd h (by simp [lockedStep]), rfl, rfl, rfl⟩
    | _ => exact ⟨.inl rfl, fun _ => rfl, rfl, rfl, rfl⟩
  | probing i => exact absurd rfl (hprobing i)
  | probed =>
    cases pc' <;> simp only [Pc.forget, reduceCtorEq] at hpc
    exact ⟨.refl _, fun _ => rfl, rfl, rfl, rfl⟩

end SideBySide

end StackReferenceMonitor
