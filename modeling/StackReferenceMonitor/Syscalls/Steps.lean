import StackReferenceMonitor.Syscalls.Defs
import StackReferenceMonitor.Foundations.Runs

/-!
# What a step of a system call can do

`advance_spec` says once what the next step of a thread can be, with what its checks have
established. The invariants of the machine are derived from it.

## Main definitions

* `Advance`: the kinds of steps.

## Main results

* `advance_spec`: every step is one of them;
* `Machine.step_cases`: what a step of the machine can be.
-/

namespace StackReferenceMonitor

/-- The thread is not in a call. -/
def Thread.Over : Thread → Prop
  | .running _ _ _ => False
  | _ => True

/-- The state on whose behalf the thread loops over the probes, and the probe it has come to. -/
def Thread.loop : Thread → Option (ℤ × Fin numKretprobes)
  | .running _ (.switchRfState state _) (.probing i) => some (state, i)
  | _ => none

/-- The thread is in the loop over the probes, at the probe `i`, on behalf of a switch to
`state`. -/
def Thread.Probing (state : ℤ) (i : Fin numKretprobes) (thread : Thread) : Prop :=
  thread.loop = some (state, i)

theorem Thread.probing_iff {thread : Thread} {state : ℤ} {i : Fin numKretprobes} :
    thread.Probing state i ↔
      ∃ euid password, thread = .running euid (.switchRfState state password) (.probing i) := by
  constructor
  · intro h
    unfold Thread.Probing Thread.loop at h
    split at h
    · obtain ⟨rfl, rfl⟩ := Prod.mk.inj (Option.some.inj h)
      exact ⟨_, _, rfl⟩
    · exact absurd h (by simp)
  · rintro ⟨euid, password, rfl⟩
    rfl

theorem Thread.Over.not_probing {thread : Thread} (h : thread.Over) {state : ℤ}
    {i : Fin numKretprobes} : ¬thread.Probing state i := by
  cases thread with
  | running euid call pc => exact h.elim
  | _ => simp [Thread.Probing, Thread.loop]

/-- `password_check` of the call's password, in this environment, has returned `0`, and the string
of the evidence is the one that it has copied. -/
def Evidence.Supplied (sha256 : List UInt8 → Vector UInt8 32) (env : PasswordEnv)
    (rf : ReferenceMonitor) (call : Syscall) (e : Evidence) : Prop :=
  ∃ password, call.password = some password ∧ passwordCheck sha256 env password rf = some 0 ∧
    e.supplied = env.copied password

/-- The string has the stored digest. -/
theorem Evidence.Supplied.digest {sha256 : List UInt8 → Vector UInt8 32} {env : PasswordEnv}
    {rf : ReferenceMonitor} {call : Syscall} {e : Evidence}
    (h : e.Supplied sha256 env rf call) :
    rf.password = some (hexString (sha256 e.supplied.bytes)) := by
  obtain ⟨password, -, hcheck, hsupplied⟩ := h
  rw [hsupplied]
  exact passwordCheck_eq_zero hcheck

/-- The next step of a thread: the shared state and the thread after it. -/
inductive Advance (sha256 : List UInt8 → Vector UInt8 32) (env : StepEnv) (s : Shared) :
    Thread → Shared × Thread → Prop
  /-- A thread that is not in a call takes no step. -/
  | stays {thread : Thread} (h : thread.Over) : Advance sha256 env s thread (s, thread)
  /-- The call ends, by an error, a fault or its last step. No thread in a loop over the probes
  does. -/
  | ends {thread next : Thread} (hnext : next.Over)
      (hprobing : ∀ state i, ¬thread.Probing state i) : Advance sha256 env s thread (s, next)
  /-- The first check has passed. -/
  | stateChecked {euid : ℕ} {call : Syscall}
      (hswitch : ∀ state password, call = .switchRfState state password → 0 ≤ state ∧ state ≤ 3)
      (hrec : call.reconfigures = true → 2 ≤ s.rf.state) :
      Advance sha256 env s (.running euid call .called)
        (s, .running euid call (.stateChecked s.rf.state))
  /-- The password has the stored digest. -/
  | passwordChecked {euid : ℕ} {call : Syscall} {e : Evidence}
      (hsupplied : e.Supplied sha256 env.password s.rf call) :
      Advance sha256 env s (.running euid call (.stateChecked e.observed))
        (s, .running euid call (.passwordChecked e))
  /-- The caller is root. -/
  | authorised {call : Syscall} {e : Evidence} :
      Advance sha256 env s (.running 0 call (.passwordChecked e))
        (s, .running 0 call (.authorised e))
  /-- The state is written. -/
  | switched {euid password : ℕ} {state : ℤ} {e : Evidence} :
      Advance sha256 env s (.running euid (.switchRfState state password) (.authorised e))
        ({ s with rf := { s.rf with state } },
          .running euid (.switchRfState state password) (.probing ⟨0, by decide⟩))
  /-- The blacklist is changed. -/
  | reconfigured {euid : ℕ} {call : Syscall} {e : Evidence} {blacklist : Blacklist} {next : Thread}
      (hcall : call.reconfigures = true) (hnext : next.Over) :
      Advance sha256 env s (.running euid call (.authorised e))
        ({ s with rf := { s.rf with blacklist } }, next)
  /-- A probe is enabled or disabled. -/
  | probed {euid password : ℕ} {state : ℤ} {i : Fin numKretprobes} :
      Advance sha256 env s (.running euid (.switchRfState state password) (.probing i))
        ({ s with
            probes := if env.probe then Function.update s.probes i (arms state) else s.probes },
          .running euid (.switchRfState state password) (nextProbe i))

/-- The thread of a step. -/
def Action.thread : Action → ℕ
  | .invoke t _ _ => t
  | .advance t _ => t

section Advance

variable {sha256 : List UInt8 → Vector UInt8 32} {env : StepEnv} {s : Shared}

theorem Thread.over_returnState (rf : ReferenceMonitor) : (returnState env rf).Over := by
  unfold returnState
  split_ifs <;> trivial

/-- A check, and then what comes after it when it has passed. -/
theorem Advance.check {thread next : Thread} {ret : ℤ}
    (hprobing : ∀ state i, ¬thread.Probing state i)
    (hnext : ret = 0 → Advance sha256 env s thread (s, next)) :
    Advance sha256 env s thread (s, .check ret next) := by
  unfold Thread.check
  split_ifs with hret
  · exact .ends trivial hprobing
  · exact hnext (not_not.mp hret)

/-- The first step of a call. -/
theorem firstStep_spec (euid : ℕ) (call : Syscall) :
    Advance sha256 env s (.running euid call .called) (s, firstStep env s euid call) := by
  have hprobing : ∀ state i, ¬(Thread.running euid call .called).Probing state i := by
    intro state i
    cases call <;> simp [Thread.Probing, Thread.loop]
  cases call with
  | switchRfState state password =>
    refine .check hprobing fun hret => .stateChecked ?_ (by simp [Syscall.reconfigures])
    intro state' password' heq
    simp only [Syscall.switchRfState.injEq] at heq
    rw [← heq.1]
    exact (rfStateCheck_eq_zero_iff state).mp hret
  | addToBlacklist path password =>
    refine .check hprobing fun hret => .stateChecked (by simp) fun _ => ?_
    exact (isRfRec_eq_zero_iff _).mp hret
  | removeFromBlacklist path password =>
    refine .check hprobing fun hret => .stateChecked (by simp) fun _ => ?_
    exact (isRfRec_eq_zero_iff _).mp hret
  | getRfState => exact .ends (Thread.over_returnState _) hprobing
  | getBlacklistSize => exact .ends trivial hprobing
  | printBlacklist buf size =>
    refine .ends ?_ hprobing
    simp only [firstStep]
    split <;> trivial

/-- `password_check`. -/
theorem passwordStep_spec (euid : ℕ) (call : Syscall) (observed : ℤ) :
    Advance sha256 env s (.running euid call (.stateChecked observed))
      (s, passwordStep sha256 env s euid call observed) := by
  have hprobing : ∀ state i, ¬(Thread.running euid call (.stateChecked observed)).Probing state i :=
    by
    intro state i
    cases call <;> simp [Thread.Probing, Thread.loop]
  unfold passwordStep
  split
  · exact .ends trivial hprobing
  case h_2 password hpassword =>
    split
    · exact .ends trivial hprobing
    case h_2 ret hret =>
      refine .check hprobing fun hzero => ?_
      subst hzero
      have hsupplied : Evidence.Supplied sha256 env.password s.rf call
          ⟨observed, env.password.copied password⟩ :=
        ⟨password, hpassword, hret, rfl⟩
      exact .passwordChecked hsupplied

/-- The section under the lock. -/
theorem lockedStep_spec (euid : ℕ) (call : Syscall) (e : Evidence) :
    Advance sha256 env s (.running euid call (.authorised e)) (lockedStep env s euid call) := by
  have hprobing : ∀ state i, ¬(Thread.running euid call (.authorised e)).Probing state i := by
    intro state i
    cases call <;> simp [Thread.Probing, Thread.loop]
  cases call with
  | switchRfState state password => exact .switched
  | addToBlacklist path password =>
    simp only [lockedStep]
    split
    · exact .ends trivial hprobing
    · exact .reconfigured rfl trivial
  | removeFromBlacklist path password =>
    simp only [lockedStep]
    split
    · exact .ends trivial hprobing
    · exact .reconfigured rfl trivial
  | getRfState => exact .ends trivial hprobing
  | getBlacklistSize => exact .ends trivial hprobing
  | printBlacklist buf size => exact .ends trivial hprobing

/-- One round of the loop over the probes. -/
theorem probeStep_spec (euid : ℕ) (call : Syscall) (i : Fin numKretprobes) :
    Advance sha256 env s (.running euid call (.probing i)) (probeStep env s euid call i) := by
  cases call with
  | switchRfState state password => exact .probed
  | _ => exact .ends trivial (by simp [Thread.Probing, Thread.loop])

/-- Every step of a thread is one of the kinds of `Advance`. -/
theorem advance_spec (sha256 : List UInt8 → Vector UInt8 32) (env : StepEnv) (s : Shared)
    (thread : Thread) : Advance sha256 env s thread (advance sha256 env s thread) := by
  cases thread with
  | idle => exact .stays trivial
  | returned ret => exact .stays trivial
  | oops => exact .stays trivial
  | running euid call pc =>
    cases pc with
    | called => exact firstStep_spec euid call
    | stateChecked observed => exact passwordStep_spec euid call observed
    | passwordChecked e =>
      refine .check (fun state i => ?_) fun hret => ?_
      · cases call <;> simp [Thread.Probing, Thread.loop]
      · rw [(euidCheck_eq_zero_iff euid).mp hret]
        exact .authorised
    | authorised e => exact lockedStep_spec euid call e
    | probing i => exact probeStep_spec euid call i
    | probed =>
      refine .ends (Thread.over_returnState _) fun state i => ?_
      cases call <;> simp [Thread.Probing, Thread.loop]

section Shared

variable {s' : Shared} {thread thread' : Thread}

/-- No step changes the stored digest. -/
theorem Advance.password_eq (h : Advance sha256 env s thread (s', thread')) :
    s'.rf.password = s.rf.password := by
  cases h <;> rfl

/-- A step that changes the state is the locked section of a switch. -/
theorem Advance.state_cases (h : Advance sha256 env s thread (s', thread')) :
    s'.rf.state = s.rf.state ∨
      ∃ euid password e,
        thread = .running euid (.switchRfState s'.rf.state password) (.authorised e) := by
  cases h with
  | switched => exact Or.inr ⟨_, _, _, rfl⟩
  | _ => exact Or.inl rfl

/-- A step that changes the blacklist is the locked section of an addition or a removal. -/
theorem Advance.blacklist_cases (h : Advance sha256 env s thread (s', thread')) :
    s'.rf.blacklist = s.rf.blacklist ∨
      ∃ euid call e, call.reconfigures = true ∧ thread = .running euid call (.authorised e) := by
  cases h with
  | reconfigured hcall _ => exact Or.inr ⟨_, _, _, hcall, rfl⟩
  | _ => exact Or.inl rfl

/-- What a step does to the probes: nothing, outside the loops; a write of the state begins a loop
for that state; and a round sets one probe and goes on to the next. -/
theorem Advance.loop_cases (h : Advance sha256 env s thread (s', thread')) :
    (s'.rf.state = s.rf.state ∧ s'.probes = s.probes ∧ ∀ state i, ¬thread.Probing state i) ∨
      thread'.Probing s'.rf.state ⟨0, by decide⟩ ∨
      ∃ euid password state i,
        thread = .running euid (.switchRfState state password) (.probing i) ∧
        thread' = .running euid (.switchRfState state password) (nextProbe i) ∧
        s'.rf.state = s.rf.state ∧
        s'.probes = if env.probe then Function.update s.probes i (arms state) else s.probes := by
  cases h with
  | stays hover => exact Or.inl ⟨rfl, rfl, fun _ _ => hover.not_probing⟩
  | ends _ hprobing => exact Or.inl ⟨rfl, rfl, hprobing⟩
  | switched => exact Or.inr (Or.inl rfl)
  | probed => exact Or.inr (Or.inr ⟨_, _, _, _, rfl, rfl, rfl, rfl⟩)
  | _ => exact Or.inl ⟨rfl, rfl, by simp [Thread.Probing, Thread.loop]⟩

/-- A step does not change the call that a thread is in. -/
theorem Advance.call_eq (h : Advance sha256 env s thread (s', thread')) {euid : ℕ} {call : Syscall}
    {pc : Pc} (hrun : thread' = .running euid call pc) :
    ∃ pc', thread = .running euid call pc' := by
  subst hrun
  cases h with
  | stays hover => exact hover.elim
  | ends hover _ => exact hover.elim
  | reconfigured _ hover => exact hover.elim
  | _ => exact ⟨_, rfl⟩

end Shared

end Advance

namespace Machine

variable {sha256 : List UInt8 → Vector UInt8 32} {m : Machine}

/-- The thread `t` has moved on to `thread`, and the others are where they were. -/
structure Moves (m m' : Machine) (t : ℕ) (thread : Thread) : Prop where
  /-- The thread that has moved. -/
  self : m'.threads t = thread
  /-- The other threads. -/
  others : ∀ t', t' ≠ t → m'.threads t' = m.threads t'

theorem moves_update (m : Machine) (shared : Shared) (t : ℕ) (thread : Thread) :
    m.Moves { shared, threads := Function.update m.threads t thread } t thread :=
  ⟨Function.update_self t thread m.threads, fun _ ht => Function.update_of_ne ht thread m.threads⟩

/-- What holds of all threads before, and of the one that has moved, holds of all. -/
theorem Moves.forall {m' : Machine} {t : ℕ} {thread : Thread} (h : m.Moves m' t thread)
    {P : Thread → Prop} (hall : ∀ t, P (m.threads t)) (hthread : P thread) :
    ∀ t, P (m'.threads t) := by
  intro t'
  by_cases ht : t' = t
  · rw [ht, h.self]
    exact hthread
  · rw [h.others t' ht]
    exact hall t'

/-- A step of the machine: nothing happens, a call is made, or a thread takes its next step. -/
theorem step_cases (a : Action) :
    m.step sha256 a = m ∨
      (∃ t euid call, a = .invoke t euid call ∧ (m.threads t).Over ∧
        (m.step sha256 a).shared = m.shared ∧
        m.Moves (m.step sha256 a) t (.running euid call .called)) ∨
      ∃ t env thread, a = .advance t env ∧
        Advance sha256 env m.shared (m.threads t) ((m.step sha256 a).shared, thread) ∧
        m.Moves (m.step sha256 a) t thread := by
  cases a with
  | invoke t euid call =>
    have hmoves := m.moves_update m.shared t (.running euid call .called)
    simp only [step]
    split
    case h_1 hidle =>
      exact Or.inr (Or.inl ⟨t, euid, call, rfl, by rw [hidle]; trivial, rfl, hmoves⟩)
    case h_2 hret =>
      exact Or.inr (Or.inl ⟨t, euid, call, rfl, by rw [hret]; trivial, rfl, hmoves⟩)
    -- a thread that is in a call, or was stopped, makes none
    case h_3 => exact Or.inl rfl
  | advance t env =>
    exact Or.inr (Or.inr ⟨t, env, _, rfl, advance_spec sha256 env m.shared (m.threads t),
      m.moves_update _ t _⟩)

/-- The step of a thread, as a function. -/
theorem step_advance (m : Machine) (sha256 : List UInt8 → Vector UInt8 32) (t : ℕ)
    (env : StepEnv) :
    (m.step sha256 (.advance t env)).shared =
        (StackReferenceMonitor.advance sha256 env m.shared (m.threads t)).1 ∧
      m.Moves (m.step sha256 (.advance t env)) t
        (StackReferenceMonitor.advance sha256 env m.shared (m.threads t)).2 :=
  ⟨rfl, m.moves_update _ t _⟩

/-- What holds of every call that is made in a run holds of the calls that the threads are in. -/
theorem running_of_invoked {P : Syscall → Prop} {as : List Action}
    (has : ∀ t euid call, .invoke t euid call ∈ as → P call) (hm : ∀ t, (m.threads t).Over)
    {t euid : ℕ} {call : Syscall} {pc : Pc}
    (h : (Run.exec (step sha256) m as).threads t = .running euid call pc) : P call := by
  have hinvoked : Run.EachStep (step sha256)
      (fun _ a => ∀ t euid call, a = .invoke t euid call → P call) m as :=
    Run.eachStep_of_forall fun a ha t euid call heq => has t euid call (heq ▸ ha)
  have hstart : ∀ t euid call pc, m.threads t = .running euid call pc → P call := by
    intro t euid call pc hrun
    have hover := hm t
    rw [hrun] at hover
    exact hover.elim
  refine (Run.always_of_eachStep (P := fun m : Machine =>
    ∀ t euid call pc, m.threads t = .running euid call pc → P call) ?_ hstart hinvoked).exec
      t euid call pc h
  intro u a hu ha
  rcases u.step_cases a with hsame | ⟨t, euid, call, rfl, -, -, hmoves⟩ |
    ⟨t, env, thread, rfl, hadv, hmoves⟩
  · rw [hsame]
    exact hu
  · refine hmoves.forall
      (P := fun thread => ∀ euid call pc, thread = .running euid call pc → P call)
      hu fun euid' call' pc heq => ?_
    obtain ⟨-, rfl, -⟩ := Thread.running.inj heq
    exact ha t euid call rfl
  · refine hmoves.forall
      (P := fun thread => ∀ euid call pc, thread = .running euid call pc → P call)
      hu fun euid call pc heq => ?_
    obtain ⟨pc', hpc'⟩ := hadv.call_eq heq
    exact hu t euid call pc' hpc'

/-- Threads that take no step stay where they are. -/
theorem exec_threads_of_ne {as : List Action} {t : ℕ} (h : ∀ a ∈ as, a.thread ≠ t) :
    (Run.exec (step sha256) m as).threads t = m.threads t := by
  induction as generalizing m with
  | nil => rfl
  | cons a as ih =>
    have hne : t ≠ a.thread := fun heq => h a List.mem_cons_self heq.symm
    rw [Run.exec_cons, ih fun b hb => h b (List.mem_cons_of_mem a hb)]
    rcases m.step_cases a with hsame | ⟨u, euid, call, rfl, -, -, hmoves⟩ |
      ⟨u, env, thread, rfl, -, hmoves⟩
    · rw [hsame]
    · exact hmoves.others t hne
    · exact hmoves.others t hne

end Machine

/-! ### A caller for examples

Root, with the right password. All allocations succeed. -/

/-- A digest, the same for every string. -/
def sampleSha256 : List UInt8 → Vector UInt8 32 :=
  fun _ => Vector.replicate 32 0

/-- The outcomes in `encrypt_password`. -/
def sampleEncrypt : EncryptEnv :=
  { hashTfm := true
    desc := true
    digest := true
    ret := 0
    result := some (Vector.replicate 65 0)
    unset := true }

/-- The memory of the caller: the path `/a` at `0`, and an empty password at `2`. -/
def sampleMem : UserMem :=
  UserMem.ofList (Blacklist.pathA.bytes ++ List.replicate 40 0)

/-- What the steps of the caller meet. -/
def sampleEnv : StepEnv where
  password := ⟨sampleMem, some [], sampleEncrypt⟩
  add := ⟨sampleMem, some [], some none, true⟩
  remove := ⟨sampleMem, some []⟩
  print := ⟨true, fun _ => true, 0⟩
  probe := true
  stateString := true

/-- The machine after `init_module` with an empty password. -/
def sampleInit : Machine :=
  Machine.init sampleSha256 sampleEncrypt ⟨[], by decide⟩

/-- The first steps of a call: it is made, and it advances so many times. -/
def sampleSteps (t : ℕ) (call : Syscall) (n : ℕ) : List Action :=
  .invoke t 0 call :: List.replicate n (.advance t sampleEnv)

/-- They make that call only. -/
theorem eq_of_invoke_mem_sampleSteps {t t' euid n : ℕ} {call call' : Syscall}
    (h : .invoke t' euid call' ∈ sampleSteps t call n) : call' = call := by
  simp only [sampleSteps, List.mem_cons, Action.invoke.injEq, List.mem_replicate, reduceCtorEq,
    and_false, or_false] at h
  exact h.2.2

end StackReferenceMonitor
