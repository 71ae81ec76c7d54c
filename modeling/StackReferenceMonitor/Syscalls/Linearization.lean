import StackReferenceMonitor.Foundations.Linearizability
import StackReferenceMonitor.Syscalls.Reconfiguration
import StackReferenceMonitor.Syscalls.Sequential

/-!
# The system calls take effect at one point each

The calls of different threads overlap: each makes its checks one by one, and only the sections
under the lock are whole. Still, what the callers see is what they would see if each call was made
at once, as `Syscall.run` makes it, at some point between its begin and its return, as long as

* no switch to ON or OFF writes the state while an addition or a removal is between its check of the
  state and its locked section, and
* no switch writes another state while a switch is between its own write and its return.

A call takes effect in its locked section, or, if a check refuses it, at that check.

`sys_print_blacklist` is left out: it walks the list without the lock, and is not one step.

## Main definitions

* `World`, `World.step`: the machine of `Syscalls.Defs`, where a thread that makes a call brings all
  that the call will meet.
* `World.history`: the calls and their return values, in the order of a run.
* `World.Apart`: the condition on a step.

## Main results

* `Thread.Passed.linearizes`: what a step of a thread is, as a step of its call;
* `calls_linearizable`: every run of which every step meets the condition is linearizable.
-/

namespace StackReferenceMonitor

open Linearizability

variable {sha256 : List UInt8 → Vector UInt8 32}

/-! ### Runs of whole calls -/

/-- The machine, and what the call of each thread meets. -/
structure World where
  /-- The threads and what they share. -/
  machine : Machine
  /-- The outcomes of allocations and copies in the call of each thread. -/
  envs : ℕ → CallEnv

/-- A step of one thread. -/
inductive World.Action where
  /-- The thread makes a call. -/
  | call (t : ℕ) (c : Invocation)
  /-- The thread takes the next step of its call. -/
  | advance (t : ℕ)

/-- The thread may make a call. -/
def Thread.accepts : Thread → Bool
  | .idle => true
  | .returned _ => true
  | _ => false

/-- The value that the thread `t` has returned. -/
def Thread.response (t : ℕ) : Thread → List (Event Invocation ℤ)
  | .returned ret => [.respond t ret]
  | _ => []

namespace World

/-- The step, as one of the machine. -/
def onMachine (w : World) : Action → StackReferenceMonitor.Action
  | .call t c => .invoke t c.euid c.call
  | .advance t => .advance t ((w.envs t).stepEnv (w.machine.threads t))

/-- One step. -/
def step (sha256 : List UInt8 → Vector UInt8 32) (w : World) (a : Action) : World where
  machine := w.machine.step sha256 (w.onMachine a)
  envs := match a with
    | .call t c => if (w.machine.threads t).accepts then Function.update w.envs t c.env else w.envs
    | .advance _ => w.envs

/-- What the callers see of a step: the call that is made, or the value that is returned. -/
def emits (sha256 : List UInt8 → Vector UInt8 32) (w : World) : Action → List (Event Invocation ℤ)
  | .call t c => if (w.machine.threads t).accepts then [.invoke t c] else []
  | .advance t =>
    match w.machine.threads t with
    | .running _ _ _ => ((w.step sha256 (.advance t)).machine.threads t).response t
    | _ => []

/-- What the callers see of a run. -/
def history (sha256 : List UInt8 → Vector UInt8 32) (w : World) (as : List Action) :
    List (Event Invocation ℤ) :=
  Linearizability.history (step sha256) (emits sha256) w as

/-- The world after `init_module`. -/
def init (sha256 : List UInt8 → Vector UInt8 32) (env : EncryptEnv) (password : CStr)
    (envs : ℕ → CallEnv) : World :=
  { machine := Machine.init sha256 env password, envs }

end World

/-! ### The calls as a sequential object -/

/-- The call, made at once in the state `rf`, returns `ret` and leaves the state `rf'`. The probes
do not matter for either. -/
def Invocation.Returns (sha256 : List UInt8 → Vector UInt8 32) (rf : ReferenceMonitor)
    (c : Invocation) (ret : ℤ) (rf' : ReferenceMonitor) : Prop :=
  ∀ probes, (c.run sha256 (some fun _ => true) ⟨rf, probes⟩).1 = some ret ∧
    (c.run sha256 (some fun _ => true) ⟨rf, probes⟩).2.rf = rf'

/-- The state that the thread has written, in a switch that has not returned. -/
def Thread.written : Thread → Option ℤ
  | .running _ (.switchRfState state _) (.probing _) => some state
  | .running _ (.switchRfState state _) .probed => some state
  | _ => none

theorem Thread.exists_of_written {thread : Thread} {state : ℤ} (h : thread.written = some state) :
    ∃ euid password pc, thread = .running euid (.switchRfState state password) pc := by
  unfold Thread.written at h
  split at h
  · exact ⟨_, _, _, by rw [Option.some.inj h]⟩
  · exact ⟨_, _, _, by rw [Option.some.inj h]⟩
  · exact absurd h (by simp)

/-- The value that a switch to `state` returns. -/
def CallEnv.switchValue (env : CallEnv) (state : ℤ) : ℤ :=
  if env.stateString then state else -ENOMEM

/-- Where the call of a thread stands. A switch has taken effect when it has written the state. -/
def Thread.phase (env : CallEnv) (thread : Thread) : Phase Invocation ℤ :=
  match thread with
  | .idle => .idle
  | .returned _ => .idle
  | .oops => .lost
  | .running euid call pc =>
    match (Thread.running euid call pc).written with
    | some state => .done (env.switchValue state)
    | none => .pending ⟨euid, call, env⟩

theorem phase_called (env : CallEnv) (euid : ℕ) (call : Syscall) :
    (Thread.running euid call .called).phase env = .pending ⟨euid, call, env⟩ := by
  cases call <;> rfl

/-- Where the calls of all threads stand. -/
def World.phases (w : World) (t : ℕ) : Phase Invocation ℤ :=
  (w.machine.threads t).phase (w.envs t)

/-! ### The condition -/

/-- The step does not write a state while another switch, to another state, is between its write and
its return. -/
def SwitchesAlone (m : Machine) (a : Action) : Prop :=
  ∀ t env euid state password e, a = .advance t env →
    m.threads t = .running euid (.switchRfState state password) (.authorised e) →
    ∀ t' state', (m.threads t').written = some state' → state' = state

/-- The step does not come in between the checks and the effect of another call, and it does not
begin to print the blacklist. -/
structure World.Apart (w : World) (a : World.Action) : Prop where
  /-- ON or OFF is not written between the check of the state and the locked section of a call. -/
  outside : SwitchesOutsideWindows w.machine (w.onMachine a)
  /-- No state is written between the write and the return of a switch to another. -/
  alone : SwitchesAlone w.machine (w.onMachine a)
  /-- The list is not printed. -/
  notPrint : ∀ t c, a = .call t c → ∀ buf n, c.call ≠ .printBlacklist buf n

/-! ### What the checks have established -/

/-- The first check of a call that changes something, and the address of its password. -/
def Syscall.check (rf : ReferenceMonitor) : Syscall → Option (ℤ × ℕ)
  | .switchRfState state password => some (rfStateCheck state, password)
  | .addToBlacklist _ password => some (isRfRec rf, password)
  | .removeFromBlacklist _ password => some (isRfRec rf, password)
  | _ => none

/-- The checks that the thread has behind it pass in the present state as well, and a switch that
has written its state finds it there. -/
def Thread.Passed (sha256 : List UInt8 → Vector UInt8 32) (env : CallEnv) (rf : ReferenceMonitor) :
    Thread → Prop
  | .running _ call .called => ∀ buf n, call ≠ .printBlacklist buf n
  | .running _ call (.stateChecked _) => ∃ password, call.check rf = some (0, password)
  | .running _ call (.passwordChecked _) =>
    ∃ password, call.check rf = some (0, password) ∧
      passwordCheck sha256 env.password password rf = some 0
  | .running euid call (.authorised _) =>
    euid = 0 ∧ ∃ password, call.check rf = some (0, password) ∧
      passwordCheck sha256 env.password password rf = some 0
  | .running euid call pc => (Thread.running euid call pc).written = some rf.state
  | _ => True

section Checks

variable {env : CallEnv} {euid : ℕ} {call : Syscall} {rf rf' : ReferenceMonitor} {first ret : ℤ}
  {password : ℕ}

/-- `password_check` reads nothing of the monitor but the stored digest. -/
theorem passwordCheck_congr (h : rf'.password = rf.password) :
    passwordCheck sha256 env.password password rf' =
      passwordCheck sha256 env.password password rf := by
  unfold passwordCheck
  rw [h]

/-- A call that changes something begins with its three checks. -/
theorem run_eq_checked (sha256 : List UInt8 → Vector UInt8 32) (env : CallEnv) (euid : ℕ)
    (h : call.check rf = some (first, password)) (probes : Fin numKretprobes → Bool) :
    ∃ body, Invocation.run sha256 (some fun _ => true) ⟨rf, probes⟩ ⟨euid, call, env⟩ =
      checked sha256 env euid ⟨rf, probes⟩ first password body := by
  cases call with
  | switchRfState state pw =>
    obtain ⟨rfl, rfl⟩ := Prod.mk.inj (Option.some.inj h)
    exact ⟨_, rfl⟩
  | addToBlacklist path pw =>
    obtain ⟨rfl, rfl⟩ := Prod.mk.inj (Option.some.inj h)
    exact ⟨_, rfl⟩
  | removeFromBlacklist path pw =>
    obtain ⟨rfl, rfl⟩ := Prod.mk.inj (Option.some.inj h)
    exact ⟨_, rfl⟩
  | _ => exact absurd h (by simp [Syscall.check])

/-- The first check refuses the call. -/
theorem returns_of_first (h : call.check rf = some (first, password)) (hfirst : first ≠ 0) :
    Invocation.Returns sha256 rf ⟨euid, call, env⟩ first rf := by
  intro probes
  obtain ⟨body, hbody⟩ := run_eq_checked sha256 env euid h probes
  simp [hbody, checked, hfirst]

/-- The password is refused. -/
theorem returns_of_password (h : call.check rf = some (0, password))
    (hpassword : passwordCheck sha256 env.password password rf = some ret) (hret : ret ≠ 0) :
    Invocation.Returns sha256 rf ⟨euid, call, env⟩ ret rf := by
  intro probes
  obtain ⟨body, hbody⟩ := run_eq_checked sha256 env euid h probes
  simp [hbody, checked, hpassword, hret]

/-- The caller is not root. -/
theorem returns_of_euid (h : call.check rf = some (0, password))
    (hpassword : passwordCheck sha256 env.password password rf = some 0)
    (heuid : euidCheck euid ≠ 0) :
    Invocation.Returns sha256 rf ⟨euid, call, env⟩ (euidCheck euid) rf := by
  intro probes
  obtain ⟨body, hbody⟩ := run_eq_checked sha256 env euid h probes
  simp [hbody, checked, hpassword, heuid]

/-- What a thread has behind it stands when the digest is the same, and the state is one that its
check or its write has seen. -/
theorem Thread.Passed.frame {thread : Thread} (h : thread.Passed sha256 env rf)
    (hpassword : rf'.password = rf.password) (hpending : thread.Pending → 2 ≤ rf'.state)
    (hwritten : ∀ state, thread.written = some state → state = rf'.state) :
    thread.Passed sha256 env rf' := by
  -- the first check passes again
  have hcheck : ∀ {call : Syscall} {pw : ℕ}, (call.reconfigures = true → 2 ≤ rf'.state) →
      call.check rf = some (0, pw) → call.check rf' = some (0, pw) := by
    intro call pw hrec hcall
    cases call with
    | addToBlacklist path pw' =>
      rw [Syscall.check] at hcall ⊢
      rw [(isRfRec_eq_zero_iff rf').mpr (hrec rfl), (Prod.mk.inj (Option.some.inj hcall)).2]
    | removeFromBlacklist path pw' =>
      rw [Syscall.check] at hcall ⊢
      rw [(isRfRec_eq_zero_iff rf').mpr (hrec rfl), (Prod.mk.inj (Option.some.inj hcall)).2]
    | _ => exact hcall
  cases thread with
  | running euid call pc =>
    cases pc with
    | called => exact h
    | stateChecked observed =>
      obtain ⟨pw, hcall⟩ := h
      exact ⟨pw, hcheck hpending hcall⟩
    | passwordChecked e =>
      obtain ⟨pw, hcall, hpw⟩ := h
      exact ⟨pw, hcheck hpending hcall, by rw [passwordCheck_congr hpassword, hpw]⟩
    | authorised e =>
      obtain ⟨hroot, pw, hcall, hpw⟩ := h
      exact ⟨hroot, pw, hcheck hpending hcall, by rw [passwordCheck_congr hpassword, hpw]⟩
    | probing i => exact h.trans (congrArg some (hwritten _ h))
    | probed => exact h.trans (congrArg some (hwritten _ h))
  | _ => trivial

/-- The check of the state that an addition or a removal has behind it. -/
theorem Thread.Passed.two_le {thread : Thread} (h : thread.Passed sha256 env rf)
    (hpending : thread.Pending) : 2 ≤ rf.state := by
  have hcheck : ∀ {call : Syscall} {pw : ℕ}, call.reconfigures = true →
      call.check rf = some (0, pw) → 2 ≤ rf.state := by
    intro call pw hrec hcall
    cases call with
    | addToBlacklist path pw' =>
      exact (isRfRec_eq_zero_iff rf).mp (Prod.mk.inj (Option.some.inj hcall)).1
    | removeFromBlacklist path pw' =>
      exact (isRfRec_eq_zero_iff rf).mp (Prod.mk.inj (Option.some.inj hcall)).1
    | _ => exact absurd hrec (by simp [Syscall.reconfigures])
  cases thread with
  | running euid call pc =>
    cases pc with
    | stateChecked observed => exact hcheck hpending h.choose_spec
    | passwordChecked e => exact hcheck hpending h.choose_spec.1
    | authorised e => exact hcheck hpending h.2.choose_spec.1
    | _ => exact hpending.elim
  | _ => exact hpending.elim

/-- The state that a switch has written. -/
theorem Thread.Passed.eq_state {thread : Thread} (h : thread.Passed sha256 env rf) {state : ℤ}
    (hwritten : thread.written = some state) : state = rf.state := by
  cases thread with
  | running euid call pc =>
    cases pc with
    | probing i => exact Option.some.inj (hwritten.symm.trans h)
    | probed => exact Option.some.inj (hwritten.symm.trans h)
    | _ => cases call <;> simp [Thread.written] at hwritten
  | _ => simp [Thread.written] at hwritten

end Checks

/-! ### One step of a call -/

/-- What a step of a thread is, as a step of the call that it is in. -/
inductive CallStep (sha256 : List UInt8 → Vector UInt8 32) (env : CallEnv) (s : Shared) (euid : ℕ)
    (call : Syscall) (pc : Pc) : Shared × Thread → Prop
  /-- The call goes on, and has no effect by this step. -/
  | goesOn {s' : Shared} {pc' : Pc} (hrf : s'.rf = s.rf)
      (hwritten : (Thread.running euid call pc').written = (Thread.running euid call pc).written)
      (hpassed : (Thread.running euid call pc').Passed sha256 env s'.rf) :
      CallStep sha256 env s euid call pc (s', .running euid call pc')
  /-- A switch writes the state. -/
  | switches {s' : Shared} {pc' : Pc} {state : ℤ}
      (hpending : (Thread.running euid call pc).written = none)
      (hwritten : (Thread.running euid call pc').written = some state)
      (hreturns : Invocation.Returns sha256 s.rf ⟨euid, call, env⟩ (env.switchValue state) s'.rf)
      (hpassed : (Thread.running euid call pc').Passed sha256 env s'.rf) :
      CallStep sha256 env s euid call pc (s', .running euid call pc')
  /-- The call has its effect, if any, and returns. -/
  | returns {s' : Shared} {ret : ℤ} (hpending : (Thread.running euid call pc).written = none)
      (hreturns : Invocation.Returns sha256 s.rf ⟨euid, call, env⟩ ret s'.rf) :
      CallStep sha256 env s euid call pc (s', .returned ret)
  /-- A switch that has written the state returns. -/
  | responds {state : ℤ} (hwritten : (Thread.running euid call pc).written = some state) :
      CallStep sha256 env s euid call pc (s, .returned (env.switchValue state))
  /-- The call faults, without effect. -/
  | stops (hpending : (Thread.running euid call pc).written = none) :
      CallStep sha256 env s euid call pc (s, .oops)

section CallStep

variable {env : CallEnv} {s : Shared} {euid : ℕ} {call : Syscall}

/-- A check that comes before any effect: the call returns its error, or goes on. -/
theorem CallStep.check {pc pc' : Pc} {ret : ℤ}
    (hpending : (Thread.running euid call pc).written = none)
    (hpending' : (Thread.running euid call pc').written = none)
    (hfails : ret ≠ 0 → Invocation.Returns sha256 s.rf ⟨euid, call, env⟩ ret s.rf)
    (hpassed : ret = 0 → (Thread.running euid call pc').Passed sha256 env s.rf) :
    CallStep sha256 env s euid call pc (s, .check ret (.running euid call pc')) := by
  unfold Thread.check
  split_ifs with hret
  · exact .returns hpending (hfails hret)
  · exact .goesOn rfl (hpending'.trans hpending.symm) (hpassed (not_not.mp hret))

/-- The first step of a call. -/
theorem callStep_called (hnot : ∀ buf n, call ≠ .printBlacklist buf n) :
    CallStep sha256 env s euid call .called
      (s, firstStep (env.stepEnv (.running euid call .called)) s euid call) := by
  have hcheck : ∀ {first : ℤ} {password : ℕ}, call.check s.rf = some (first, password) →
      (∀ pc, pc = Pc.called ∨ (∃ observed, pc = .stateChecked observed) →
        (Thread.running euid call pc).written = none) →
      CallStep sha256 env s euid call .called
        (s, .check first (.running euid call (.stateChecked s.rf.state))) := by
    intro first password hcall hnone
    refine .check (hnone _ (Or.inl rfl)) (hnone _ (Or.inr ⟨_, rfl⟩)) (returns_of_first hcall) ?_
    rintro rfl
    exact ⟨password, hcall⟩
  cases call with
  | switchRfState state password =>
    refine hcheck rfl ?_
    rintro pc (rfl | ⟨observed, rfl⟩) <;> rfl
  | addToBlacklist path password => exact hcheck rfl fun _ _ => rfl
  | removeFromBlacklist path password => exact hcheck rfl fun _ _ => rfl
  | getRfState =>
    rw [firstStep, returnState_stepEnv]
    exact .returns rfl fun probes => ⟨rfl, rfl⟩
  | getBlacklistSize => exact .returns rfl fun probes => ⟨rfl, rfl⟩
  | printBlacklist buf n => exact absurd rfl (hnot buf n)

/-- `password_check`. -/
theorem callStep_password {observed : ℤ} {password : ℕ}
    (hcall : call.check s.rf = some (0, password)) :
    CallStep sha256 env s euid call (.stateChecked observed)
      (s, passwordStep sha256 (env.stepEnv (.running euid call (.stateChecked observed))) s euid
        call observed) := by
  have hpw : call.password = some password := by
    cases call <;> simp_all [Syscall.check, Syscall.password]
  have hnone : (Thread.running euid call (.stateChecked observed)).written = none := by
    cases call <;> rfl
  simp only [passwordStep, hpw, CallEnv.stepEnv]
  cases hvalue : passwordCheck sha256 env.password password s.rf with
  | none => exact .stops hnone
  | some ret =>
    refine .check hnone (by cases call <;> rfl) (returns_of_password hcall hvalue) ?_
    rintro rfl
    exact ⟨password, hcall, hvalue⟩

/-- The section under the lock. -/
theorem callStep_locked {e : Evidence} {password : ℕ}
    (hcall : call.check s.rf = some (0, password))
    (hpw : passwordCheck sha256 env.password password s.rf = some 0) :
    CallStep sha256 env s 0 call (.authorised e)
      (lockedStep (env.stepEnv (.running 0 call (.authorised e))) s 0 call) := by
  cases call with
  | switchRfState state password' =>
    obtain ⟨hstate, rfl⟩ := Prod.mk.inj (Option.some.inj hcall)
    refine .switches rfl (show _ = some state from rfl) ?_ rfl
    intro probes
    obtain ⟨probes', -, hrun⟩ := sysSwitchRfState_eq (s := ⟨s.rf, probes⟩) (fun _ => true)
      ((rfStateCheck_eq_zero_iff state).mp hstate) hpw
    simp [Invocation.run, Syscall.run, hrun, CallEnv.switchValue]
  | addToBlacklist path password' =>
    obtain ⟨hrec, rfl⟩ := Prod.mk.inj (Option.some.inj hcall)
    simp only [lockedStep, CallEnv.stepEnv]
    cases hadd : Blacklist.addToBlacklist env.add path s.rf.blacklist with
    | none => exact .stops rfl
    | some result =>
      refine .returns rfl fun probes => ?_
      simp [Invocation.run, Syscall.run, sysAddToBlacklist, hadd,
        checked_eq_body (s := ⟨s.rf, probes⟩) _ hrec hpw rfl]
  | removeFromBlacklist path password' =>
    obtain ⟨hrec, rfl⟩ := Prod.mk.inj (Option.some.inj hcall)
    simp only [lockedStep, CallEnv.stepEnv]
    cases hrem : Blacklist.removeFromBlacklist env.remove path s.rf.blacklist with
    | none => exact .stops rfl
    | some result =>
      refine .returns rfl fun probes => ?_
      simp [Invocation.run, Syscall.run, sysRemoveFromBlacklist, hrem,
        checked_eq_body (s := ⟨s.rf, probes⟩) _ hrec hpw rfl]
  | _ => exact absurd hcall (by simp [Syscall.check])

/-- Every step of a thread in a call, as a step of that call. -/
theorem Thread.Passed.callStep {pc : Pc}
    (h : (Thread.running euid call pc).Passed sha256 env s.rf) :
    CallStep sha256 env s euid call pc
      (advance sha256 (env.stepEnv (.running euid call pc)) s (.running euid call pc)) := by
  cases pc with
  | called => exact callStep_called h
  | stateChecked observed =>
    obtain ⟨password, hcall⟩ := h
    exact callStep_password hcall
  | passwordChecked e =>
    obtain ⟨password, hcall, hpw⟩ := h
    refine .check (by cases call <;> rfl) (by cases call <;> rfl) (returns_of_euid hcall hpw) ?_
    intro hroot
    exact ⟨(euidCheck_eq_zero_iff euid).mp hroot, password, hcall, hpw⟩
  | authorised e =>
    obtain ⟨rfl, password, hcall, hpw⟩ := h
    exact callStep_locked hcall hpw
  | probing i =>
    cases call with
    | switchRfState state password =>
      -- the state that the switch has written is still there
      have hnext : (Thread.running euid (.switchRfState state password) (nextProbe i)).written =
          some state := by
        unfold nextProbe
        split_ifs <;> rfl
      refine .goesOn rfl hnext ?_
      obtain rfl : state = s.rf.state := Option.some.inj h
      unfold nextProbe
      split_ifs <;> rfl
    | _ => exact absurd h (by simp [Thread.Passed, Thread.written])
  | probed =>
    have hvalue : returnState (env.stepEnv (.running euid call .probed)) s.rf =
        .returned (env.switchValue s.rf.state) := returnState_stepEnv _ _
    rw [advance, hvalue]
    exact .responds h

/-- The checks that the thread has behind it after a step stand. -/
theorem CallStep.passed {pc : Pc} {s' : Shared} {thread : Thread}
    (h : CallStep sha256 env s euid call pc (s', thread)) : thread.Passed sha256 env s'.rf := by
  cases h with
  | goesOn _ _ hpassed => exact hpassed
  | switches _ _ _ hpassed => exact hpassed
  | _ => trivial

end CallStep

/-! ### One step of the world -/

namespace World

variable {w : World} {t : ℕ} {c : Invocation}

/-- A thread that is in no call makes one. -/
theorem step_call (h : (w.machine.threads t).accepts = true) :
    w.step sha256 (.call t c) =
      ⟨⟨w.machine.shared, Function.update w.machine.threads t (.running c.euid c.call .called)⟩,
        Function.update w.envs t c.env⟩ := by
  cases hthread : w.machine.threads t <;>
    simp_all [step, onMachine, Machine.step, Thread.accepts]

/-- Another does not. -/
theorem step_call_refused (h : (w.machine.threads t).accepts ≠ true) :
    w.step sha256 (.call t c) = w := by
  cases hthread : w.machine.threads t <;>
    simp_all [step, onMachine, Machine.step, Thread.accepts]

/-- The next step of a thread. -/
theorem step_advance (w : World) (t : ℕ) {s : Shared} {thread : Thread}
    (h : StackReferenceMonitor.advance sha256 ((w.envs t).stepEnv (w.machine.threads t))
      w.machine.shared (w.machine.threads t) = (s, thread)) :
    w.step sha256 (.advance t) = ⟨⟨s, Function.update w.machine.threads t thread⟩, w.envs⟩ := by
  simp [step, onMachine, Machine.step, h]

/-- A thread in no call takes no step. -/
theorem step_advance_over (h : (w.machine.threads t).Over) : w.step sha256 (.advance t) = w := by
  have hadvance : StackReferenceMonitor.advance sha256 ((w.envs t).stepEnv (w.machine.threads t))
      w.machine.shared (w.machine.threads t) = (w.machine.shared, w.machine.threads t) := by
    cases hthread : w.machine.threads t with
    | running euid call pc => exact absurd h (by rw [hthread]; exact id)
    | _ => rfl
  rw [w.step_advance t hadvance, Function.update_eq_self]

/-- The phases after a step that moves the thread `t` on. -/
theorem phases_update (w : World) (t : ℕ) (s : Shared) (thread : Thread) :
    World.phases ⟨⟨s, Function.update w.machine.threads t thread⟩, w.envs⟩ =
      Function.update w.phases t (thread.phase (w.envs t)) := by
  funext t'
  by_cases ht : t' = t
  · subst ht
    simp [World.phases]
  · simp [World.phases, ht]

/-! ### Runs -/

/-- The steps of a run, as those of the machine. -/
def actions (sha256 : List UInt8 → Vector UInt8 32) :
    World → List Action → List StackReferenceMonitor.Action
  | _, [] => []
  | w, a :: as => w.onMachine a :: actions sha256 (w.step sha256 a) as

/-- Every run of the world is one of the machine. -/
theorem machine_exec (sha256 : List UInt8 → Vector UInt8 32) (w : World) (as : List Action) :
    (Run.exec (step sha256) w as).machine =
      Run.exec (Machine.step sha256) w.machine (w.actions sha256 as) := by
  induction as generalizing w with
  | nil => rfl
  | cons a as ih => exact ih (w.step sha256 a)

/-- It makes the same calls. -/
theorem call_of_invoke_mem_actions {euid : ℕ} {call : Syscall} {as : List Action}
    (h : .invoke t euid call ∈ w.actions sha256 as) :
    ∃ c, .call t c ∈ as ∧ c.call = call := by
  induction as generalizing w with
  | nil => exact absurd h List.not_mem_nil
  | cons a as ih =>
    rcases List.mem_cons.mp h with heq | hmem
    · cases a with
      | call t' c =>
        obtain ⟨rfl, rfl, rfl⟩ := StackReferenceMonitor.Action.invoke.inj heq
        exact ⟨c, List.mem_cons_self, rfl⟩
      | advance t' => exact absurd heq (by simp [onMachine])
    · obtain ⟨c, hc, hcall⟩ := ih hmem
      exact ⟨c, List.mem_cons_of_mem a hc, hcall⟩

/-- Calls that all ask for one state, REC_ON or REC_OFF, if they ask for one, may overlap in any
way. -/
theorem eachStep_apart (state : ℤ) (hstate : 2 ≤ state) (hw : ∀ t, (w.machine.threads t).Over)
    {as : List Action}
    (hswitch : ∀ t c, .call t c ∈ as → ∀ state' password,
      c.call = .switchRfState state' password → state' = state)
    (hprint : ∀ t c, .call t c ∈ as → ∀ buf n, c.call ≠ .printBlacklist buf n) :
    Run.EachStep (step sha256) Apart w as := by
  intro xs a hxs
  have hsub : ∀ b ∈ xs ++ [a], b ∈ as := fun b hb => hxs.subset hb
  -- the switches that are under way ask for `state` as well
  have hrunning : ∀ t euid state' password pc,
      (Run.exec (step sha256) w xs).machine.threads t =
        .running euid (.switchRfState state' password) pc → state' = state := by
    intro t euid state' password pc hthread
    rw [machine_exec] at hthread
    refine Machine.running_of_invoked (P := fun call => ∀ state' password,
      call = .switchRfState state' password → state' = state) ?_ hw hthread state' password rfl
    intro t euid call hmem state' password hcall
    obtain ⟨c, hc, rfl⟩ := call_of_invoke_mem_actions hmem
    exact hswitch t c (hsub _ (List.mem_append_left [a] hc)) state' password hcall
  refine ⟨?_, ?_, ?_⟩
  · intro t env euid state' password e _ hthread hlow
    rw [hrunning t euid state' password _ hthread] at hlow
    omega
  · intro t env euid state' password e _ hthread t' state'' hwritten
    obtain ⟨euid'', password'', pc, hthread'⟩ := Thread.exists_of_written hwritten
    rw [hrunning t euid state' password _ hthread,
      hrunning t' euid'' state'' password'' pc hthread']
  · rintro t c rfl buf n
    exact hprint t c (hsub _ (by simp)) buf n

/-- The checks that the threads have behind them stand. -/
def Passed (sha256 : List UInt8 → Vector UInt8 32) (w : World) : Prop :=
  ∀ t, (w.machine.threads t).Passed sha256 (w.envs t) w.machine.shared.rf

/-- The next step of a thread in a call. -/
theorem Passed.exists_callStep (h : w.Passed sha256) {euid : ℕ} {call : Syscall} {pc : Pc}
    (hthread : w.machine.threads t = .running euid call pc) :
    ∃ s thread, StackReferenceMonitor.advance sha256 ((w.envs t).stepEnv (w.machine.threads t))
        w.machine.shared (w.machine.threads t) = (s, thread) ∧
      CallStep sha256 (w.envs t) w.machine.shared euid call pc (s, thread) := by
  have hpassed := h t
  rw [hthread] at hpassed ⊢
  exact ⟨_, _, rfl, hpassed.callStep⟩

/-- A step of a thread keeps what the others have behind them. -/
theorem Passed.others (h : w.Passed sha256) (hapart : w.Apart (.advance t)) {s : Shared}
    {thread : Thread}
    (hadv : Advance sha256 ((w.envs t).stepEnv (w.machine.threads t)) w.machine.shared
      (w.machine.threads t) (s, thread)) {t' : ℕ} :
    (w.machine.threads t').Passed sha256 (w.envs t') s.rf := by
  refine (h t').frame hadv.password_eq ?_ ?_
  · intro hpending
    rcases hadv.state_cases with hsame | ⟨euid, password, e, hthread⟩
    · rw [hsame]
      exact (h t').two_le hpending
    · by_contra hlow
      exact hapart.outside t _ euid _ password e rfl hthread (by omega) t' hpending
  · intro state hwritten
    rcases hadv.state_cases with hsame | ⟨euid, password, e, hthread⟩
    · rw [hsame]
      exact (h t').eq_state hwritten
    · exact hapart.alone t _ euid _ password e rfl hthread t' state hwritten

/-- One step. -/
theorem Passed.step {a : Action} (h : w.Passed sha256) (hapart : w.Apart a) :
    (w.step sha256 a).Passed sha256 := by
  cases a with
  | call t c =>
    by_cases haccepts : (w.machine.threads t).accepts = true
    · rw [step_call haccepts]
      intro t'
      by_cases ht : t' = t
      · subst ht
        simp only [Function.update_self]
        exact hapart.notPrint t' c rfl
      · simpa [ht] using h t'
    · rwa [step_call_refused haccepts]
  | advance t =>
    cases hthread : w.machine.threads t with
    | running euid call pc =>
      obtain ⟨s, thread, hadvance, hstep⟩ := h.exists_callStep hthread
      rw [w.step_advance t hadvance]
      intro t'
      by_cases ht : t' = t
      · subst ht
        simpa using hstep.passed
      · have hadv := advance_spec sha256 ((w.envs t).stepEnv (w.machine.threads t))
          w.machine.shared (w.machine.threads t)
        rw [hadvance] at hadv
        simpa [ht] using h.others hapart hadv
    | _ => rwa [step_advance_over (by rw [hthread]; trivial)]

/-- What is seen of a step of a thread in a call. -/
theorem emits_advance {euid : ℕ} {call : Syscall} {pc : Pc} {s : Shared} {thread : Thread}
    (hthread : w.machine.threads t = .running euid call pc)
    (h : StackReferenceMonitor.advance sha256 ((w.envs t).stepEnv (w.machine.threads t))
      w.machine.shared (w.machine.threads t) = (s, thread)) :
    w.emits sha256 (.advance t) = thread.response t := by
  simp [emits, hthread, w.step_advance t h]

/-- The step of a thread in a call, before a linearization of the rest. -/
theorem linearizes_advance {euid : ℕ} {call : Syscall} {pc : Pc} {s : Shared} {thread : Thread}
    (hthread : w.machine.threads t = .running euid call pc)
    (hstep : CallStep sha256 (w.envs t) w.machine.shared euid call pc (s, thread))
    {hist : List (Event Invocation ℤ)} {rf : ReferenceMonitor}
    (hrest : Linearizes (Invocation.Returns sha256)
      (Function.update w.phases t (thread.phase (w.envs t))) s.rf hist rf) :
    Linearizes (Invocation.Returns sha256) w.phases w.machine.shared.rf
      (thread.response t ++ hist) rf := by
  have hphase : w.phases t = (Thread.running euid call pc).phase (w.envs t) := by
    rw [World.phases, hthread]
  cases hstep with
  | goesOn hrf hwritten _ =>
    -- the phase is the same as before
    rw [Thread.phase, hwritten, ← Thread.phase, ← hphase, Function.update_eq_self, hrf] at hrest
    exact hrest
  | switches hpending hwritten hreturns _ =>
    rw [Thread.phase, hpending] at hphase
    rw [Thread.phase, hwritten] at hrest
    exact .commit t hphase hreturns hrest
  | returns hpending hreturns =>
    rw [Thread.phase, hpending] at hphase
    exact .commit_respond hphase hreturns hrest
  | responds hwritten =>
    rw [Thread.phase, hwritten] at hphase
    exact .respond hphase hrest
  | stops hpending =>
    rw [Thread.phase, hpending] at hphase
    exact .abandon t hphase hrest

/-- Every step that meets the condition, before a linearization of the rest. -/
theorem linearizes_step {a : Action} (h : w.Passed sha256)
    {hist : List (Event Invocation ℤ)} {rf : ReferenceMonitor}
    (hrest : Linearizes (Invocation.Returns sha256) (w.step sha256 a).phases
      (w.step sha256 a).machine.shared.rf hist rf) :
    Linearizes (Invocation.Returns sha256) w.phases w.machine.shared.rf
      (w.emits sha256 a ++ hist) rf := by
  cases a with
  | call t c =>
    by_cases haccepts : (w.machine.threads t).accepts = true
    · have hphases : (w.step sha256 (.call t c)).phases =
          Function.update w.phases t (.pending c) := by
        rw [step_call haccepts]
        funext t'
        by_cases ht : t' = t
        · subst ht
          simp only [World.phases, Function.update_self]
          exact phase_called c.env c.euid c.call
        · simp [World.phases, ht]
      have hidle : w.phases t = .idle := by
        cases hthread : w.machine.threads t <;>
          simp_all [World.phases, Thread.accepts, Thread.phase]
      rw [hphases, step_call haccepts] at hrest
      rw [emits, if_pos haccepts]
      exact .invoke hidle hrest
    · rw [step_call_refused haccepts] at hrest
      rwa [emits, if_neg haccepts]
  | advance t =>
    cases hthread : w.machine.threads t with
    | running euid call pc =>
      obtain ⟨s, thread, hadvance, hstep⟩ := h.exists_callStep hthread
      rw [w.step_advance t hadvance, phases_update] at hrest
      rw [emits_advance hthread hadvance]
      exact linearizes_advance hthread hstep hrest
    | _ =>
      rw [step_advance_over (by rw [hthread]; trivial)] at hrest
      rw [emits, hthread]
      exact hrest

end World

/-- In every run of the system calls after `init_module`, by any threads and in any order of their
steps, in which no switch writes a state in between the checks and the effect of another call: the
calls and their values are those of the same calls made at once, each at a point between its begin
and its return, and the monitor is in the state that these calls leave. -/
theorem calls_linearizable (sha256 : List UInt8 → Vector UInt8 32) (env : EncryptEnv)
    (password : CStr) (envs : ℕ → CallEnv) (as : List World.Action)
    (h : Run.EachStep (World.step sha256) World.Apart (World.init sha256 env password envs) as) :
    Linearizes (Invocation.Returns sha256) (fun _ => .idle) (initModule sha256 env password).rf
      ((World.init sha256 env password envs).history sha256 as)
      (Run.exec (World.step sha256) (World.init sha256 env password envs)
        as).machine.shared.rf := by
  have hstart : (World.init sha256 env password envs).Passed sha256 := fun _ => trivial
  have hstep : ∀ w a, World.Passed sha256 w → World.Apart w a →
      World.Passed sha256 (World.step sha256 w a) := fun _ _ hw ha => hw.step ha
  exact linearizes_history (fun w => w.machine.shared.rf) World.phases hstep
    (fun _ _ hw _ _ _ hrest => World.linearizes_step hw hrest) hstart h

/-- A switch to REC_ON, and then an addition by one thread that begins before an addition by another
and ends after it. -/
def overlappingAdds : List World.Action :=
  .call 0 ⟨0, .switchRfState rfRecOn 2, sampleCallEnv⟩ :: List.replicate 15 (.advance 0) ++
    [.call 1 ⟨0, .addToBlacklist 0 2, sampleCallEnv⟩, .advance 1,
      .call 2 ⟨0, .addToBlacklist 0 2, sampleCallEnv⟩, .advance 1, .advance 2, .advance 2,
      .advance 2, .advance 2, .advance 1, .advance 1]

/-- The one that was made first finds the path there, as if it was made after the other. -/
theorem calls_linearizable_overlappingAdds :
    Linearizes (Invocation.Returns sampleSha256) (fun _ => .idle) sampleInit.shared.rf
        ((World.init sampleSha256 sampleEncrypt ⟨[], by decide⟩ fun _ => sampleCallEnv).history
          sampleSha256 overlappingAdds)
        (Run.exec (World.step sampleSha256)
          (World.init sampleSha256 sampleEncrypt ⟨[], by decide⟩ fun _ => sampleCallEnv)
          overlappingAdds).machine.shared.rf := by
  refine calls_linearizable sampleSha256 sampleEncrypt ⟨[], by decide⟩ _ _ ?_
  have hcalls : ∀ t c, World.Action.call t c ∈ overlappingAdds →
      c.call = .switchRfState rfRecOn 2 ∨ c.call = .addToBlacklist 0 2 := by
    intro t c hmem
    simp only [overlappingAdds, List.cons_append, List.mem_cons, World.Action.call.injEq,
      List.mem_append, List.mem_replicate, reduceCtorEq, and_false, false_or, List.not_mem_nil,
      or_false] at hmem
    rcases hmem with ⟨-, rfl⟩ | ⟨-, rfl⟩ | ⟨-, rfl⟩ <;> simp
  have hover : ∀ t, ((World.init sampleSha256 sampleEncrypt ⟨[], by decide⟩
      fun _ => sampleCallEnv).machine.threads t).Over := fun _ => trivial
  refine World.eachStep_apart rfRecOn (by decide) hover ?_ ?_
  · intro t c hmem state' password hcall
    rcases hcalls t c hmem with h | h <;> simp_all
  · intro t c hmem buf n hcall
    rcases hcalls t c hmem with h | h <;> simp_all

end StackReferenceMonitor
