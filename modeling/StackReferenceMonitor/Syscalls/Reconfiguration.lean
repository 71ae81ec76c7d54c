import StackReferenceMonitor.Syscalls.Authorisation

/-!
# Reconfiguring while the monitor is reconfigurable

An addition or a removal looks at the state once, before it checks the password and the user, and
takes the lock only after that. It does not look again. So a switch by another thread that comes
between the check and the locked section lets it change the list in ON or OFF.

## Main definitions

* `Relinked`: a node was linked into the list or unlinked from it.
* `Thread.Pending`: an addition or a removal between its check of the state and its locked section.
* `SwitchesOutsideWindows`: the condition under which the check is enough.

## Main results

* `pendingInRec_iff_switchesOutsideWindows`: calls that are past their check are in REC_ON or
  REC_OFF all along a run, exactly when the condition holds of its steps;
* `reconfigured_in_rec`: in every run in which no switch to ON or OFF comes between the check and
  the locked section of another call, nodes are linked and unlinked in REC_ON and REC_OFF only.
-/

namespace StackReferenceMonitor

variable {sha256 : List UInt8 → Vector UInt8 32}

/-- The head of the list, or the `next` field of a node, has changed. -/
def Relinked (bl bl' : Blacklist) : Prop :=
  bl'.head ≠ bl.head ∨ ∃ a < bl.nodes.length, bl'.nodes[a]? ≠ bl.nodes[a]?

/-- If the step links or unlinks a node, the state is REC_ON or REC_OFF at that step. -/
def ReconfiguresInRec (sha256 : List UInt8 → Vector UInt8 32) (m : Machine) (a : Action) : Prop :=
  Relinked m.shared.rf.blacklist (m.step sha256 a).shared.rf.blacklist →
    m.shared.rf.state = rfRecOn ∨ m.shared.rf.state = rfRecOff

/-- The thread is in an addition or a removal, after its check of the state and before the end of
its locked section. -/
def Thread.Pending : Thread → Prop
  | .running _ call (.stateChecked _) => call.reconfigures = true
  | .running _ call (.passwordChecked _) => call.reconfigures = true
  | .running _ call (.authorised _) => call.reconfigures = true
  | _ => False

/-- The step does not write ON or OFF while another thread is between its check of the state and
its locked section. -/
def SwitchesOutsideWindows (m : Machine) (a : Action) : Prop :=
  ∀ t env euid state password e, a = .advance t env →
    m.threads t = .running euid (.switchRfState state password) (.authorised e) → state < 2 →
    ∀ t', ¬(m.threads t').Pending

theorem not_relinked_self {bl : Blacklist} : ¬Relinked bl bl := by
  rintro (hhead | ⟨a, -, hnode⟩)
  · exact hhead rfl
  · exact hnode rfl

theorem Thread.Over.not_pending {thread : Thread} (h : thread.Over) : ¬thread.Pending := by
  cases thread with
  | running euid call pc => exact h.elim
  | _ => exact id

/-- While an addition or a removal is pending, the state is REC_ON or REC_OFF. -/
def PendingInRec (m : Machine) : Prop :=
  ∀ t, (m.threads t).Pending → 2 ≤ m.shared.rf.state

/-- One step of a thread: if it is pending after it, the state is REC_ON or REC_OFF. -/
theorem pending_advance {env : StepEnv} {s s' : Shared} {thread thread' : Thread}
    (h : thread.Pending → 2 ≤ s.rf.state) (hadv : Advance sha256 env s thread (s', thread'))
    (hpending : thread'.Pending) : 2 ≤ s'.rf.state := by
  cases hadv with
  | stays hover => exact absurd hpending hover.not_pending
  | ends hover _ => exact absurd hpending hover.not_pending
  | stateChecked _ hrec =>
    -- `is_rf_rec` has just looked at this state
    exact hrec hpending
  | passwordChecked _ => exact h hpending
  | authorised => exact h hpending
  | switched => exact hpending.elim
  | reconfigured _ hover => exact absurd hpending hover.not_pending
  | probed =>
    unfold nextProbe at hpending
    split_ifs at hpending <;> exact hpending.elim

/-- One step of the machine. -/
theorem PendingInRec.step {m : Machine} {a : Action} (h : PendingInRec m)
    (ha : SwitchesOutsideWindows m a) : PendingInRec (m.step sha256 a) := by
  rcases m.step_cases a with hsame | ⟨t, euid, call, -, -, hshared, hmoves⟩ |
    ⟨t, env, thread, rfl, hadv, hmoves⟩
  · rw [hsame]
    exact h
  · unfold PendingInRec
    rw [hshared]
    exact hmoves.forall (P := fun thread => thread.Pending → 2 ≤ m.shared.rf.state) h False.elim
  · intro t' hpending
    by_cases ht : t' = t
    · rw [ht, hmoves.self] at hpending
      exact pending_advance (h t) hadv hpending
    · rw [hmoves.others t' ht] at hpending
      -- another thread is pending: the state is the same, or it is written outside the window
      rcases hadv.state_cases with hstate | ⟨euid, password, e, hthread⟩
      · rw [hstate]
        exact h t' hpending
      · by_contra hlow
        exact ha t env euid _ password e rfl hthread (by omega) t' hpending

/-- Conversely, a step that writes ON or OFF while another thread is pending leaves it pending in
that state. -/
theorem switchesOutsideWindows_of_pendingInRec {m : Machine} {a : Action}
    (h : PendingInRec (m.step sha256 a)) : SwitchesOutsideWindows m a := by
  rintro t env euid state password e rfl hthread hlow t' hpending
  obtain ⟨hshared, hmoves⟩ := m.step_advance sha256 t env
  rw [hthread] at hshared
  have hne : t' ≠ t := by
    rintro rfl
    rw [hthread] at hpending
    exact absurd hpending (by simp [Thread.Pending, Syscall.reconfigures])
  have hhigh := h t' (by rw [hmoves.others t' hne]; exact hpending)
  rw [hshared] at hhigh
  exact absurd hhigh (Int.not_le.mpr hlow)

/-- No addition or removal is pending in ON or OFF at any moment of a run, exactly when no step of
it writes ON or OFF within a window. -/
theorem pendingInRec_iff_switchesOutsideWindows (env : EncryptEnv) (password : CStr)
    (as : List Action) :
    Run.Always (Machine.step sha256) PendingInRec (Machine.init sha256 env password) as ↔
      Run.EachStep (Machine.step sha256) SwitchesOutsideWindows (Machine.init sha256 env password)
        as := by
  have hstart : PendingInRec (Machine.init sha256 env password) := fun _ hpending => hpending.elim
  exact Run.always_iff_eachStep (fun _ hm => hm) (fun _ _ hm ha => hm.step ha)
    (fun _ _ _ hnext => switchesOutsideWindows_of_pendingInRec hnext) hstart as

/-- In every run of the system calls after `init_module`: if no step writes ON or OFF while another
thread is between its check of the state and its locked section, then at every step that links or
unlinks a node the state is REC_ON or REC_OFF. -/
theorem reconfigured_in_rec (sha256 : List UInt8 → Vector UInt8 32) (env : EncryptEnv)
    (password : CStr) (as : List Action)
    (h : Run.EachStep (Machine.step sha256) SwitchesOutsideWindows
      (Machine.init sha256 env password) as) :
    Run.EachStep (Machine.step sha256) (ReconfiguresInRec sha256)
      (Machine.init sha256 env password) as := by
  have hrec := (pendingInRec_iff_switchesOutsideWindows env password as).mpr h
  intro xs a hxs hlinked
  have hpending := hrec xs ((List.prefix_append xs [a]).trans hxs)
  have hhigh : (Run.exec (Machine.step sha256) (Machine.init sha256 env password)
      xs).shared.rf.state ≤ 3 :=
    (authorised_of_run sha256 env password xs).state.2
  generalize Run.exec (Machine.step sha256) (Machine.init sha256 env password) xs = m at *
  -- the thread whose step it is was pending
  have hlow : 2 ≤ m.shared.rf.state := by
    rcases m.step_cases a with hsame | ⟨t, euid, call, -, -, hshared, -⟩ |
      ⟨t, env, thread, -, hadv, -⟩
    · rw [hsame] at hlinked
      exact absurd hlinked not_relinked_self
    · rw [hshared] at hlinked
      exact absurd hlinked not_relinked_self
    · rcases hadv.blacklist_cases with hsame | ⟨euid, call, e, hcall, hthread⟩
      · rw [hsame] at hlinked
        exact absurd hlinked not_relinked_self
      · refine hpending t ?_
        rw [hthread]
        exact hcall
  rw [rfRecOn, rfRecOff]
  omega

/-- A switch to REC_ON and an addition after it. -/
theorem reconfigured_in_rec_add :
    Run.EachStep (Machine.step sampleSha256) (ReconfiguresInRec sampleSha256) sampleInit
      (sampleSteps 0 (.switchRfState rfRecOn 2) 15 ++ sampleSteps 1 (.addToBlacklist 0 2) 4) := by
  refine reconfigured_in_rec sampleSha256 sampleEncrypt ⟨[], by decide⟩ _ ?_
  intro xs a hxs t env euid state password e _ hthread hlow
  -- the only switch of the run asks for REC_ON
  have hrec : ∀ s p, Syscall.switchRfState state password = .switchRfState s p → s = rfRecOn := by
    refine Machine.running_of_invoked (m := sampleInit)
      (P := fun call => ∀ s p, call = .switchRfState s p → s = rfRecOn) ?_ (fun _ => trivial)
      hthread
    intro t euid call hmem s p hcall
    have hmem' := hxs.subset (List.mem_append_left [a] hmem)
    rcases List.mem_append.mp hmem' with hfirst | hsecond
    · rw [eq_of_invoke_mem_sampleSteps hfirst] at hcall
      exact (Syscall.switchRfState.inj hcall).1.symm
    · rw [eq_of_invoke_mem_sampleSteps hsecond] at hcall
      exact absurd hcall (by simp)
  rw [hrec state password rfl] at hlow
  exact absurd hlow (by decide)

/-- One thread switches to REC_ON and back to ON, after another has begun an addition. -/
def windowRun : List Action :=
  sampleSteps 0 (.switchRfState rfRecOn 2) 15 ++ sampleSteps 1 (.addToBlacklist 0 2) 1 ++
    sampleSteps 0 (.switchRfState rfOn 2) 4 ++ List.replicate 2 (.advance 1 sampleEnv)

/-- The addition goes on and links its node in ON. -/
theorem linked_in_on_windowRun :
    ¬Run.EachStep (Machine.step sampleSha256) (ReconfiguresInRec sampleSha256) sampleInit
      (windowRun ++ [.advance 1 sampleEnv]) := by
  intro h
  have hlinked : Relinked
      (Run.exec (Machine.step sampleSha256) sampleInit windowRun).shared.rf.blacklist
      ((Run.exec (Machine.step sampleSha256) sampleInit windowRun).step sampleSha256
        (.advance 1 sampleEnv)).shared.rf.blacklist := by
    refine Or.inl ?_
    decide +kernel
  have hstate : (Run.exec (Machine.step sampleSha256) sampleInit windowRun).shared.rf.state =
      rfOn := by
    decide +kernel
  have hrec := h.last hlinked
  rw [hstate] at hrec
  exact absurd hrec (by decide)

end StackReferenceMonitor
