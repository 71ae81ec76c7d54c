import StackReferenceMonitor.Syscalls.Steps

/-!
# Only authorised calls change the monitor

Whatever the threads and the order of their steps: the state is changed only by a switch call, and
the blacklist only by an addition or a removal, whose checks have all passed. The checks of a call
are separate steps of its thread, each in the memory and the state that it meets. So what they
establish is a fact about the run so far, and it has to be carried along with the thread until the
section under the lock (`Machine.Cleared`).

## Main definitions

* `Machine.Took`: in the call that it is in, a thread has taken a step in some state and
  environment.
* `Machine.Observed`, `Machine.Presented`: the steps of the first check and of `password_check`.
* `Machine.Cleared`: what the checks that a thread has behind it have established.
* `OnlyAuthorised`: a step that changes the state or the blacklist is the locked section of a call
  that was authorised.

## Main results

* `Machine.Cleared.advance`: every step of a thread keeps it;
* `only_authorised_changes`: over all runs from `init_module`.
-/

namespace StackReferenceMonitor

variable {sha256 : List UInt8 → Vector UInt8 32}

/-- What the first check of a call establishes. -/
structure Syscall.Admissible (call : Syscall) (observed : ℤ) : Prop where
  /-- A switch asks for one of the four states. -/
  requested : ∀ state password, call = .switchRfState state password → 0 ≤ state ∧ state ≤ 3
  /-- An addition or a removal has seen REC_ON or REC_OFF. -/
  observed : call.reconfigures = true → 2 ≤ observed

/-! ### The steps of a call that a thread has behind it -/

namespace Machine

/-- The state after the run `as` from `m`. -/
def after (sha256 : List UInt8 → Vector UInt8 32) (m : Machine) (as : List Action) : Machine :=
  Run.exec (step sha256) m as

/-- In the run `as` from `m`, the thread `t` has taken the step at `pc` of this call, in a state and
an environment that meet `C`. It has been in the call ever since. -/
def Took (sha256 : List UInt8 → Vector UInt8 32) (m : Machine) (as : List Action) (t euid : ℕ)
    (call : Syscall) (pc : Pc) (C : Machine → StepEnv → Prop) : Prop :=
  ∃ before env since, as = before ++ .advance t env :: since ∧
    (m.after sha256 before).threads t = .running euid call pc ∧
    C (m.after sha256 before) env ∧
    ∀ ys, ys <+: since →
      ∃ pc', (m.after sha256 (before ++ .advance t env :: ys)).threads t = .running euid call pc'

/-- The first check of the call has seen the state `observed`. -/
def Observed (sha256 : List UInt8 → Vector UInt8 32) (m : Machine) (as : List Action) (t euid : ℕ)
    (call : Syscall) (observed : ℤ) : Prop :=
  m.Took sha256 as t euid call .called fun m' _ => m'.shared.rf.state = observed

/-- `password_check` of the call, in the environment of its own step, has returned `0` for the
string that it has copied there. -/
def Presented (sha256 : List UInt8 → Vector UInt8 32) (m : Machine) (as : List Action) (t euid : ℕ)
    (call : Syscall) (e : Evidence) : Prop :=
  m.Took sha256 as t euid call (.stateChecked e.observed) fun m' env =>
    e.Supplied sha256 env.password m'.shared.rf call

section Took

variable {m : Machine} {as : List Action} {t euid : ℕ} {call : Syscall} {pc pc' : Pc}
  {C : Machine → StepEnv → Prop}

theorem after_concat (m : Machine) (as : List Action) (a : Action) :
    m.after sha256 (as ++ [a]) = (m.after sha256 as).step sha256 a :=
  Run.exec_concat m as a

/-- The step that is taken now. -/
theorem Took.now {env : StepEnv}
    (hthread : (m.after sha256 as).threads t = .running euid call pc)
    (hC : C (m.after sha256 as) env)
    (hnext : (m.after sha256 (as ++ [.advance t env])).threads t = .running euid call pc') :
    m.Took sha256 (as ++ [.advance t env]) t euid call pc C := by
  refine ⟨as, env, [], rfl, hthread, hC, fun ys hys => ?_⟩
  rw [List.prefix_nil.mp hys]
  exact ⟨pc', hnext⟩

/-- A step behind a thread stays behind it, as long as the thread is in the call. -/
theorem Took.later (h : m.Took sha256 as t euid call pc C) {a : Action}
    (hnext : (m.after sha256 (as ++ [a])).threads t = .running euid call pc') :
    m.Took sha256 (as ++ [a]) t euid call pc C := by
  obtain ⟨before, env, since, rfl, hthread, hC, hsince⟩ := h
  refine ⟨before, env, since ++ [a], by simp, hthread, hC, fun ys hys => ?_⟩
  rcases List.prefix_concat_iff.mp hys with rfl | hys
  · exact ⟨pc', by simpa using hnext⟩
  · exact hsince ys hys

end Took

/-- What the checks that the thread `t` has behind it have established. -/
def Cleared (sha256 : List UInt8 → Vector UInt8 32) (m : Machine) (as : List Action) (t : ℕ)
    (stored : Option CStr) : Thread → Prop
  | .running euid call (.stateChecked observed) =>
    call.Admissible observed ∧ m.Observed sha256 as t euid call observed
  | .running euid call (.passwordChecked e) =>
    call.Admissible e.observed ∧ m.Observed sha256 as t euid call e.observed ∧
      m.Presented sha256 as t euid call e ∧
      stored = some (hexString (sha256 e.supplied.bytes))
  | .running euid call (.authorised e) =>
    euid = 0 ∧ call.Admissible e.observed ∧ m.Observed sha256 as t euid call e.observed ∧
      m.Presented sha256 as t euid call e ∧
      stored = some (hexString (sha256 e.supplied.bytes))
  | _ => True

end Machine

section Cleared

variable {m : Machine} {as : List Action} {a : Action} {t : ℕ} {thread : Thread}
  {stored : Option CStr}

theorem Thread.Over.cleared (h : thread.Over) : m.Cleared sha256 as t stored thread := by
  cases thread with
  | running euid call pc => exact h.elim
  | _ => trivial

/-- What is established stays so while the thread stays where it is. -/
theorem Machine.Cleared.later (h : m.Cleared sha256 as t stored thread)
    (hnext : (m.after sha256 (as ++ [a])).threads t = thread) :
    m.Cleared sha256 (as ++ [a]) t stored thread := by
  cases thread with
  | running euid call pc =>
    cases pc with
    | stateChecked observed =>
      obtain ⟨hadm, hobserved⟩ := h
      exact ⟨hadm, hobserved.later hnext⟩
    | passwordChecked e =>
      obtain ⟨hadm, hobserved, hpresented, hdigest⟩ := h
      exact ⟨hadm, hobserved.later hnext, hpresented.later hnext, hdigest⟩
    | authorised e =>
      obtain ⟨hroot, hadm, hobserved, hpresented, hdigest⟩ := h
      exact ⟨hroot, hadm, hobserved.later hnext, hpresented.later hnext, hdigest⟩
    | _ => trivial
  | _ => trivial

/-- Every step of a thread keeps what its checks have established, and adds what it checks. -/
theorem Machine.Cleared.advance {env : StepEnv} {s' : Shared} {thread' : Thread}
    (h : m.Cleared sha256 as t (m.after sha256 as).shared.rf.password
      ((m.after sha256 as).threads t))
    (hadv : Advance sha256 env (m.after sha256 as).shared ((m.after sha256 as).threads t)
      (s', thread'))
    (hnext : (m.after sha256 (as ++ [.advance t env])).threads t = thread') :
    m.Cleared sha256 (as ++ [.advance t env]) t (m.after sha256 as).shared.rf.password thread' := by
  generalize hthread : (m.after sha256 as).threads t = thread at h hadv
  cases hadv with
  | stays hover => exact hover.cleared
  | ends hover _ => exact hover.cleared
  | stateChecked hswitch hrec => exact ⟨⟨hswitch, hrec⟩, .now hthread rfl hnext⟩
  | passwordChecked hsupplied =>
    obtain ⟨hadm, hobserved⟩ := h
    exact ⟨hadm, hobserved.later hnext, .now hthread hsupplied hnext, hsupplied.digest⟩
  | authorised =>
    obtain ⟨hadm, hobserved, hpresented, hdigest⟩ := h
    exact ⟨rfl, hadm, hobserved.later hnext, hpresented.later hnext, hdigest⟩
  | switched => trivial
  | reconfigured _ hover => exact hover.cleared
  | probed =>
    unfold nextProbe
    split_ifs <;> trivial

end Cleared

/-! ### Runs -/

/-- The step `a` after the run `as` from `m`: if it changes the state, it is the locked section of a
switch by root to one of the four states; if it changes the blacklist, it is that of an addition or
a removal by root whose first check has itself seen REC_ON or REC_OFF. In both cases the thread has,
in this call and in the environment of its own earlier step, passed `password_check`, and the string
that was copied there has the stored digest. -/
def OnlyAuthorised (sha256 : List UInt8 → Vector UInt8 32) (m : Machine) (as : List Action)
    (a : Action) : Prop :=
  ((m.after sha256 (as ++ [a])).shared.rf.state ≠ (m.after sha256 as).shared.rf.state →
    ∃ t env state password e, a = .advance t env ∧
      (m.after sha256 as).threads t = .running 0 (.switchRfState state password) (.authorised e) ∧
      0 ≤ state ∧ state ≤ 3 ∧
      m.Presented sha256 as t 0 (.switchRfState state password) e ∧
      (m.after sha256 as).shared.rf.password = some (hexString (sha256 e.supplied.bytes)) ∧
      (m.after sha256 (as ++ [a])).shared.rf.state = state) ∧
  ((m.after sha256 (as ++ [a])).shared.rf.blacklist ≠ (m.after sha256 as).shared.rf.blacklist →
    ∃ t env call e, a = .advance t env ∧
      (m.after sha256 as).threads t = .running 0 call (.authorised e) ∧
      call.reconfigures = true ∧ 2 ≤ e.observed ∧
      m.Observed sha256 as t 0 call e.observed ∧ m.Presented sha256 as t 0 call e ∧
      (m.after sha256 as).shared.rf.password = some (hexString (sha256 e.supplied.bytes)))

/-- After the run `as` from `m`, every thread is cleared, the stored digest is the first one, and
the state is one of the four. -/
structure Machine.Authorised (sha256 : List UInt8 → Vector UInt8 32) (m : Machine)
    (as : List Action) : Prop where
  /-- The threads. -/
  cleared : ∀ t, m.Cleared sha256 as t (m.after sha256 as).shared.rf.password
    ((m.after sha256 as).threads t)
  /-- The digest. -/
  password : (m.after sha256 as).shared.rf.password = m.shared.rf.password
  /-- The state. -/
  state : 0 ≤ (m.after sha256 as).shared.rf.state ∧ (m.after sha256 as).shared.rf.state ≤ 3

section Steps

variable {m : Machine} {as : List Action}

/-- One more step of the run. -/
theorem Machine.Authorised.concat (h : m.Authorised sha256 as) (a : Action) :
    m.Authorised sha256 (as ++ [a]) := by
  have hafter : m.after sha256 (as ++ [a]) = (m.after sha256 as).step sha256 a :=
    m.after_concat as a
  rcases (m.after sha256 as).step_cases a with hsame | ⟨t, euid, call, rfl, -, hshared, hmoves⟩ |
    ⟨t, env, thread, rfl, hadv, hmoves⟩
  · rw [hsame] at hafter
    refine ⟨fun t => ?_, by rw [hafter]; exact h.password, by rw [hafter]; exact h.state⟩
    have hstays := (h.cleared t).later (a := a) (by rw [hafter])
    rwa [← hafter] at hstays
  · rw [← hafter] at hshared hmoves
    refine ⟨fun t' => ?_, by rw [hshared]; exact h.password, by rw [hshared]; exact h.state⟩
    rw [hshared]
    by_cases ht : t' = t
    · rw [ht, hmoves.self]
      trivial
    · rw [hmoves.others t' ht]
      exact (h.cleared t').later (hmoves.others t' ht)
  · rw [← hafter] at hadv hmoves
    refine ⟨fun t' => ?_, hadv.password_eq.trans h.password, ?_⟩
    · rw [hadv.password_eq]
      by_cases ht : t' = t
      · subst ht
        rw [hmoves.self]
        exact (h.cleared t').advance hadv hmoves.self
      · rw [hmoves.others t' ht]
        exact (h.cleared t').later (hmoves.others t' ht)
    · -- a new state is the one that an authorised switch asks for
      rcases hadv.state_cases with hstate | ⟨euid, password, e, hthread⟩
      · rw [hstate]
        exact h.state
      · have hauth := h.cleared t
        rw [hthread] at hauth
        exact hauth.2.1.requested _ _ rfl

/-- What one more step changes, it was authorised to change. -/
theorem Machine.Authorised.onlyAuthorised (h : m.Authorised sha256 as) (a : Action) :
    OnlyAuthorised sha256 m as a := by
  have hafter : m.after sha256 (as ++ [a]) = (m.after sha256 as).step sha256 a :=
    m.after_concat as a
  rcases (m.after sha256 as).step_cases a with hsame | ⟨t, euid, call, -, -, hshared, -⟩ |
    ⟨t, env, thread, rfl, hadv, -⟩
  · rw [hsame] at hafter
    exact ⟨fun hne => absurd (by rw [hafter]) hne, fun hne => absurd (by rw [hafter]) hne⟩
  · rw [← hafter] at hshared
    exact ⟨fun hne => absurd (by rw [hshared]) hne, fun hne => absurd (by rw [hshared]) hne⟩
  · rw [← hafter] at hadv
    have hauth := h.cleared t
    constructor
    · intro hne
      obtain ⟨euid, password, e, hthread⟩ := hadv.state_cases.resolve_left hne
      rw [hthread] at hauth
      obtain ⟨rfl, hadm, -, hpresented, hdigest⟩ := hauth
      obtain ⟨hlow, hhigh⟩ := hadm.requested _ _ rfl
      exact ⟨t, env, _, password, e, rfl, hthread, hlow, hhigh, hpresented, hdigest, rfl⟩
    · intro hne
      obtain ⟨euid, call, e, hcall, hthread⟩ := hadv.blacklist_cases.resolve_left hne
      rw [hthread] at hauth
      obtain ⟨rfl, hadm, hobserved, hpresented, hdigest⟩ := hauth
      exact ⟨t, env, call, e, rfl, hthread, hcall, hadm.observed hcall, hobserved, hpresented,
        hdigest⟩

/-- Every run from `init_module`, by induction on its last step. -/
theorem authorised_of_run (sha256 : List UInt8 → Vector UInt8 32) (env : EncryptEnv)
    (password : CStr) (as : List Action) :
    (Machine.init sha256 env password).Authorised sha256 as := by
  induction as using List.reverseRecOn with
  | nil => exact ⟨fun _ => trivial, rfl, by simp [Machine.after, Machine.init, initModule]⟩
  | append_singleton as a ih => exact ih.concat a

end Steps

/-- In every run of the six system calls after `init_module`, by any threads and in any order of
their steps: each step that changes the state or the blacklist is the locked section of an
authorised call, the stored digest never changes, and the state is always one of the four. -/
theorem only_authorised_changes (sha256 : List UInt8 → Vector UInt8 32) (env : EncryptEnv)
    (password : CStr) (as : List Action) :
    (∀ xs a, xs ++ [a] <+: as → OnlyAuthorised sha256 (Machine.init sha256 env password) xs a) ∧
      Run.Always (Machine.step sha256)
        (fun m => m.shared.rf.password = (initModule sha256 env password).rf.password ∧
          0 ≤ m.shared.rf.state ∧ m.shared.rf.state ≤ 3) (Machine.init sha256 env password) as := by
  have hreach := authorised_of_run sha256 env password
  exact ⟨fun xs a _ => (hreach xs).onlyAuthorised a,
    fun xs _ => ⟨(hreach xs).password, (hreach xs).state⟩⟩

end StackReferenceMonitor
