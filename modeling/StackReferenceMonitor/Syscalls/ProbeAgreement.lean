import StackReferenceMonitor.Syscalls.Authorisation

/-!
# The probes and the state

A switch writes the state under the lock, and then goes through the probes one by one, outside it.
So the loops of two switches may overlap, and the loop of the switch that has written its state
first may be the last to come to a probe.

## Main definitions

* `Thread.switching`: a switch between its write of the state and its return.
* `ProbesAgree`: while there is no such switch, all probes are as the state says.
* `RoundsInTime`: no probe is set against the state unless a loop for the state is still to come
  to it.

## Main results

* `settling_iff_roundsInTime`: every probe is as the state says or will be set so, all along a run,
  exactly when every round of a loop is in time;
* `probes_agree`: in every run of which every round of a loop is in time, `ProbesAgree` holds of
  every state.
-/

namespace StackReferenceMonitor

variable {sha256 : List UInt8 → Vector UInt8 32}

/-- The thread is in a switch, between its write of the state and its return. -/
def Thread.switching : Thread → Bool
  | .running _ (.switchRfState _ _) (.probing _) => true
  | .running _ (.switchRfState _ _) .probed => true
  | _ => false

/-- If no switch is between its write of the state and its return, then all probes are enabled in ON
and in REC_ON, and all are disabled in OFF and in REC_OFF. -/
def ProbesAgree (m : Machine) : Prop :=
  (∀ t, (m.threads t).switching = false) →
    ((m.shared.rf.state = rfOn ∨ m.shared.rf.state = rfRecOn) → ∀ i, m.shared.probes i = true) ∧
      ((m.shared.rf.state = rfOff ∨ m.shared.rf.state = rfRecOff) →
        ∀ i, m.shared.probes i = false)

/-- A loop that sets the probes as the state says is still to come to the probe `i`. -/
def Machine.Awaits (m : Machine) (i : Fin numKretprobes) : Prop :=
  ∃ t state j, (m.threads t).Probing state j ∧ j ≤ i ∧ arms state = arms m.shared.rf.state

/-- A round of a loop sets its probe as the state says, or a loop that does so is still to come to
that probe. -/
def RoundsInTime (m : Machine) (a : Action) : Prop :=
  ∀ t env state i, a = .advance t env → (m.threads t).Probing state i →
    arms state = arms m.shared.rf.state ∨ m.Awaits i

/-- In the step, enabling or disabling a probe succeeds. -/
def Action.ProbeSucceeds (a : Action) : Prop :=
  ∀ t env, a = .advance t env → env.probe = true

/-- Every probe is as the state says, or a loop that sets it so is still to come to it. -/
def Machine.Settling (m : Machine) : Prop :=
  ∀ i, m.shared.probes i = arms m.shared.rf.state ∨ m.Awaits i

section Loops

variable {m m' : Machine} {t : ℕ} {thread : Thread} {i : Fin numKretprobes}

/-- A loop that is at the probe `i` is still to come to the later ones. -/
theorem probing_nextProbe {j : Fin numKretprobes} (h : i < j) (euid password : ℕ) (state : ℤ) :
    ∃ k ≤ j,
      (Thread.running euid (.switchRfState state password) (nextProbe i)).Probing state k := by
  have hnext : i.val + 1 < numKretprobes := Nat.lt_of_le_of_lt h j.isLt
  refine ⟨⟨i.val + 1, hnext⟩, h, ?_⟩
  rw [nextProbe, dif_pos hnext]
  rfl

/-- The probe `i` is awaited after a step that leaves the state as it is, if the thread of the step
has not come past `i` in it. -/
theorem Machine.Awaits.of_moves (h : m.Awaits i) (hmoves : m.Moves m' t thread)
    (hstate : m'.shared.rf.state = m.shared.rf.state)
    (ht : ∀ state j, (m.threads t).Probing state j → j ≤ i →
      arms state = arms m.shared.rf.state → ∃ k ≤ i, thread.Probing state k) : m'.Awaits i := by
  obtain ⟨t', state, j, hprobing, hle, harms⟩ := h
  by_cases heq : t' = t
  · -- the awaited loop is that of the thread that has moved
    subst heq
    obtain ⟨k, hk, hprobing'⟩ := ht state j hprobing hle harms
    exact ⟨t', state, k, by rw [hmoves.self]; exact hprobing', hk, by rw [hstate]; exact harms⟩
  · exact ⟨t', state, j, by rw [hmoves.others t' heq]; exact hprobing, hle, by
      rw [hstate]; exact harms⟩

/-- A step outside the loops that writes neither the state nor a probe. -/
theorem Machine.Settling.of_moves (h : m.Settling) (hmoves : m.Moves m' t thread)
    (hstate : m'.shared.rf.state = m.shared.rf.state) (hprobes : m'.shared.probes = m.shared.probes)
    (ht : ∀ state j, ¬(m.threads t).Probing state j) : m'.Settling := by
  intro i
  rcases h i with hright | hawaits
  · left
    rw [hprobes, hstate]
    exact hright
  · right
    refine hawaits.of_moves hmoves hstate ?_
    exact fun state j hprobing => absurd hprobing (ht state j)

/-- A write of the state: a loop for it begins at the first probe. -/
theorem Machine.settling_of_switched (hmoves : m.Moves m' t thread)
    (hthread : thread.Probing m'.shared.rf.state ⟨0, by decide⟩) : m'.Settling := by
  intro i
  exact Or.inr ⟨t, _, _, by rw [hmoves.self]; exact hthread, Nat.zero_le _, rfl⟩

/-- A round of a loop that is in time. -/
theorem Machine.Settling.probed (h : m.Settling) {euid password : ℕ} {state : ℤ}
    (hthread : m.threads t = .running euid (.switchRfState state password) (.probing i))
    (htime : arms state = arms m.shared.rf.state ∨ m.Awaits i)
    (hmoves : m.Moves m' t (.running euid (.switchRfState state password) (nextProbe i)))
    (hstate : m'.shared.rf.state = m.shared.rf.state)
    (hprobes : m'.shared.probes = Function.update m.shared.probes i (arms state)) :
    m'.Settling := by
  -- the thread is at `i`, for `state`
  have hloop : ∀ state' j, (m.threads t).Probing state' j → state' = state ∧ j = i := by
    intro state' j hprobing
    rw [hthread] at hprobing
    obtain ⟨rfl, rfl⟩ := Prod.mk.inj (Option.some.inj hprobing)
    exact ⟨rfl, rfl⟩
  intro j
  by_cases hj : j = i
  · subst hj
    by_cases harms : arms state = arms m.shared.rf.state
    · -- the probe is set as the state says
      left
      rw [hprobes, Function.update_self, hstate]
      exact harms
    · -- the probe is set against the state, and the loop that is awaited is another one
      refine Or.inr ((htime.resolve_left harms).of_moves hmoves hstate ?_)
      intro state' k hprobing _ harms'
      rw [(hloop state' k hprobing).1] at harms'
      exact absurd harms' harms
  · rcases h j with hright | hawaits
    · left
      rw [hprobes, Function.update_of_ne hj, hstate]
      exact hright
    · -- a loop that was at `i` has moved on, and is not past `j`
      refine Or.inr (hawaits.of_moves hmoves hstate ?_)
      intro state' k hprobing hle _
      obtain ⟨rfl, rfl⟩ := hloop state' k hprobing
      have hlt : k < j := Nat.lt_of_le_of_ne hle fun heq => hj (Fin.ext heq.symm)
      exact probing_nextProbe hlt euid password _

end Loops

/-- One step of the machine. -/
theorem Machine.Settling.step {m : Machine} {a : Action} (h : m.Settling) (ha : RoundsInTime m a)
    (hprobe : a.ProbeSucceeds) : (m.step sha256 a).Settling := by
  rcases m.step_cases a with hsame | ⟨t, euid, call, -, hover, hshared, hmoves⟩ |
    ⟨t, env, thread, rfl, hadv, hmoves⟩
  · rw [hsame]
    exact h
  · exact h.of_moves hmoves (by rw [hshared]) (by rw [hshared]) fun _ _ => hover.not_probing
  · rcases hadv.loop_cases with ⟨hstate, hprobes, hnone⟩ | hbegun |
      ⟨euid, password, state, i, hthread, rfl, hstate, hprobes⟩
    · exact h.of_moves hmoves hstate hprobes hnone
    · exact settling_of_switched hmoves hbegun
    · rw [if_pos (hprobe t env rfl)] at hprobes
      have htime := ha t env state i rfl (by rw [hthread]; rfl)
      exact h.probed hthread htime hmoves hstate hprobes

/-- Conversely, a round that is too late leaves its probe set against the state, with no loop to
come that sets it right. -/
theorem roundsInTime_of_settling {m : Machine} {a : Action} (h : (m.step sha256 a).Settling)
    (hprobe : a.ProbeSucceeds) : RoundsInTime m a := by
  rintro t env state i rfl hprobing
  by_contra hlate
  rw [not_or] at hlate
  obtain ⟨euid, password, hthread⟩ := Thread.probing_iff.mp hprobing
  obtain ⟨hshared, hmoves⟩ := m.step_advance sha256 t env
  rw [hthread] at hshared hmoves
  have hstate : (m.step sha256 (.advance t env)).shared.rf.state = m.shared.rf.state := by
    rw [hshared]
    rfl
  have hset : (m.step sha256 (.advance t env)).shared.probes i = arms state := by
    rw [hshared]
    show (if env.probe then Function.update m.shared.probes i (arms state) else _) i = _
    rw [if_pos (hprobe t env rfl), Function.update_self]
  rcases h i with hright | ⟨t', state', j, hprobing', hle, harms⟩
  · rw [hset, hstate] at hright
    exact hlate.1 hright
  · rw [hstate] at harms
    by_cases ht : t' = t
    · -- the loop of the thread itself, which sets probes against the state
      rw [ht, hmoves.self] at hprobing'
      obtain ⟨euid', password', heq⟩ := Thread.probing_iff.mp hprobing'
      obtain ⟨-, hcall, -⟩ := Thread.running.inj heq
      obtain ⟨rfl, -⟩ := Syscall.switchRfState.inj hcall
      exact hlate.1 harms
    · rw [hmoves.others t' ht] at hprobing'
      exact hlate.2 ⟨t', state', j, hprobing', hle, harms⟩

/-- Every probe is right or awaited all along a run exactly when every round of it is in time. -/
theorem settling_iff_roundsInTime (env : EncryptEnv) (password : CStr) {as : List Action}
    (hprobe : ∀ a ∈ as, a.ProbeSucceeds) :
    Run.Always (Machine.step sha256) Machine.Settling (Machine.init sha256 env password) as ↔
      Run.EachStep (Machine.step sha256) RoundsInTime (Machine.init sha256 env password) as := by
  have hmem : ∀ {xs a}, xs ++ [a] <+: as → a.ProbeSucceeds :=
    fun hxs => hprobe _ (hxs.subset (by simp))
  constructor
  · intro h xs a hxs
    have hnext := h (xs ++ [a]) hxs
    rw [Run.exec_concat] at hnext
    exact roundsInTime_of_settling hnext (hmem hxs)
  · intro h
    have hstart : (Machine.init sha256 env password).Settling := fun _ => Or.inl rfl
    have hstep : Run.EachStep (Machine.step sha256)
        (fun m a => RoundsInTime m a ∧ a.ProbeSucceeds) (Machine.init sha256 env password) as :=
      fun xs a hxs => ⟨h xs a hxs, hmem hxs⟩
    exact Run.always_of_eachStep (fun _ _ hm ha => hm.step ha.1 ha.2) hstart hstep

/-- When no loop is under way, the probes are as the state says. -/
theorem Machine.Settling.probesAgree {m : Machine} (h : m.Settling) : ProbesAgree m := by
  intro hswitching
  have hright : ∀ i, m.shared.probes i = arms m.shared.rf.state := by
    intro i
    refine (h i).resolve_right ?_
    -- a loop that is awaited is one of a switch that has not returned
    rintro ⟨t, state, j, hprobing, -, -⟩
    obtain ⟨euid, password, hthread⟩ := Thread.probing_iff.mp hprobing
    have hnot := hswitching t
    rw [hthread] at hnot
    exact absurd hnot (by simp [Thread.switching])
  constructor
  · rintro (hstate | hstate) i
    all_goals rw [hright i, hstate]; rfl
  · rintro (hstate | hstate) i
    all_goals rw [hright i, hstate]; rfl

/-- In every run of the system calls after `init_module` in which enabling and disabling a probe
succeeds: if every round of a loop over the probes sets its probe as the state says, or comes before
the round of a loop that does so, then the probes agree with the state in every state reached. -/
theorem probes_agree (sha256 : List UInt8 → Vector UInt8 32) (env : EncryptEnv) (password : CStr)
    (as : List Action) (hprobe : ∀ a ∈ as, a.ProbeSucceeds)
    (h : Run.EachStep (Machine.step sha256) RoundsInTime (Machine.init sha256 env password) as) :
    Run.Always (Machine.step sha256) ProbesAgree (Machine.init sha256 env password) as := by
  have hsettling := (settling_iff_roundsInTime env password hprobe).mpr h
  exact hsettling.mono fun _ hm => hm.probesAgree

/-- The steps of a caller succeed. -/
theorem probeSucceeds_of_mem_sampleSteps {t n : ℕ} {call : Syscall} {a : Action}
    (h : a ∈ sampleSteps t call n) : a.ProbeSucceeds := by
  rintro t' env rfl
  rcases List.mem_cons.mp h with heq | hmem
  · exact absurd heq (by simp)
  · obtain ⟨-, rfl⟩ := Action.advance.inj (List.eq_of_mem_replicate hmem)
    rfl

/-- A switch to ON writes its state, and so does a switch to OFF. Then the loop of the first one
goes over the probes, and after it the loop of the second one. -/
def trailingRun : List Action :=
  sampleSteps 0 (.switchRfState rfOn 2) 4 ++ sampleSteps 1 (.switchRfState rfOff 2) 4 ++
    List.replicate 11 (.advance 0 sampleEnv) ++ List.replicate 11 (.advance 1 sampleEnv)

theorem probeSucceeds_of_mem_trailingRun {a : Action} (h : a ∈ trailingRun) : a.ProbeSucceeds := by
  have hadvance : ∀ t, ∀ a ∈ List.replicate 11 (Action.advance t sampleEnv), a.ProbeSucceeds := by
    rintro t a ha t' env rfl
    obtain ⟨-, rfl⟩ := Action.advance.inj (List.eq_of_mem_replicate ha)
    rfl
  simp only [trailingRun, List.mem_append] at h
  rcases h with ((h | h) | h) | h
  · exact probeSucceeds_of_mem_sampleSteps h
  · exact probeSucceeds_of_mem_sampleSteps h
  · exact hadvance 0 a h
  · exact hadvance 1 a h

/-- The rounds for ON come while the state is OFF, and all of them before those for OFF. -/
theorem probes_agree_trailingRun :
    Run.Always (Machine.step sampleSha256) ProbesAgree sampleInit trailingRun := by
  refine probes_agree sampleSha256 sampleEncrypt ⟨[], by decide⟩ _
    (fun a ha => probeSucceeds_of_mem_trailingRun ha) ?_
  intro xs a hxs t env state i heq hprobing
  have hxs' := (List.prefix_append xs [a]).trans hxs
  have hthread : t < 2 := by
    have hmoved : ∀ a ∈ trailingRun, a.thread < 2 := by decide
    exact hmoved (.advance t env) (heq ▸ hxs.subset (by simp))
  -- the moments of the run, one by one
  have hlen : xs.length < 33 := Nat.lt_succ_of_le hxs'.length_le
  rw [List.prefix_iff_eq_take.mp hxs'] at hprobing ⊢
  have hall : ∀ n < 33, ∀ t < 2, ∀ loop ∈ ((Run.exec (Machine.step sampleSha256) sampleInit
      (trailingRun.take n)).threads t).loop,
      arms loop.1 = arms (Run.exec (Machine.step sampleSha256) sampleInit
          (trailingRun.take n)).shared.rf.state ∨
        ∃ t' < 2, ∃ loop' ∈ ((Run.exec (Machine.step sampleSha256) sampleInit
          (trailingRun.take n)).threads t').loop, loop'.2 ≤ loop.2 ∧
            arms loop'.1 = arms (Run.exec (Machine.step sampleSha256) sampleInit
              (trailingRun.take n)).shared.rf.state := by
    decide +kernel
  refine (hall xs.length hlen t hthread (state, i) hprobing).imp_right ?_
  rintro ⟨t', -, ⟨state', j⟩, hprobing', hle, harms⟩
  exact ⟨t', state', j, hprobing', hle, harms⟩

/-- A switch to ON writes its state, a switch to OFF comes and goes, and then the first one goes on
with its loop. -/
def overlapRun : List Action :=
  sampleSteps 0 (.switchRfState rfOn 2) 4 ++ sampleSteps 1 (.switchRfState rfOff 2) 15 ++
    List.replicate 11 (.advance 0 sampleEnv)

/-- At the end all calls are over, the state is OFF, and a probe is enabled. -/
theorem probes_disagree_overlapRun :
    ¬Run.Always (Machine.step sampleSha256) ProbesAgree sampleInit overlapRun := by
  intro h
  have hswitching : ∀ t, ((Run.exec (Machine.step sampleSha256) sampleInit overlapRun).threads
      t).switching = false := by
    -- the other threads have made no call
    have hmoved : ∀ a ∈ overlapRun, a.thread < 2 := by decide
    intro t
    by_cases ht : t < 2
    · revert t
      decide +kernel
    · have hne : ∀ a ∈ overlapRun, a.thread ≠ t := by
        rintro a ha rfl
        exact ht (hmoved a ha)
      rw [Machine.exec_threads_of_ne hne]
      rfl
  have hoff : (Run.exec (Machine.step sampleSha256) sampleInit overlapRun).shared.rf.state =
      rfOff := by
    decide +kernel
  have hprobe := (h.exec hswitching).2 (Or.inl hoff) ⟨0, by decide⟩
  exact absurd hprobe (by decide +kernel)

end StackReferenceMonitor
