import StackReferenceMonitor.Probes.Coverage
import StackReferenceMonitor.Syscalls.Sequential

/-!
# The verdict in a reachable state

`is_blacklisted` has two shortcuts: a size of `0`, and a state in which nothing is protected. The
size is a counter that drifts from the list, and the entries are compared with bounds that depend on
their last byte. Over all the states that system calls lead to, what comes out is the plain
definition: the monitor enforces, and an entry, less one trailing slash, starts the path.

## Main definitions

* `Invocation.Regular`: the node of the call comes zeroed, and `blacklist_size` does not overflow.
* `ReferenceMonitor.Reachable`: the monitors that such calls lead to, from `init_module`.

## Main results

* `ReferenceMonitor.Reachable.state_range`, `ReferenceMonitor.Reachable.blacklist`: what every such
  monitor keeps;
* `isBlacklisted_eq_one_iff`: its verdict.
-/

namespace StackReferenceMonitor

/-! ### Reachable monitors -/

/-- What a call leaves. -/
def Invocation.after (sha256 : List UInt8 → Vector UInt8 32) (array : KprobeArray) (s : Shared)
    (c : Invocation) : Shared :=
  (c.run sha256 array s).2

/-- The conditions on a call, in the state in which it is made. -/
structure Invocation.Regular (sha256 : List UInt8 → Vector UInt8 32) (array : KprobeArray)
    (s : Shared) (c : Invocation) : Prop where
  /-- The node that is allocated, if one is, comes zeroed. -/
  zeroed : ∀ next, c.env.add.new = some next → next = none
  /-- An addition that succeeds has room for its increment of `blacklist_size`. -/
  room : ∀ path password, c.call = .addToBlacklist path password →
    (c.run sha256 array s).1 = some 0 → s.rf.blacklist.size + 1 < 2 ^ 31

/-- The monitors that sequences of calls lead to, from the loading of the module on, while
`blacklist_size` does not overflow. -/
def ReferenceMonitor.Reachable (rf : ReferenceMonitor) : Prop :=
  ∃ (sha256 : List UInt8 → Vector UInt8 32) (array : KprobeArray) (env : EncryptEnv)
    (password : CStr) (cs : List Invocation),
    Run.EachStep (Invocation.after sha256 array) (Invocation.Regular sha256 array)
        (initModule sha256 env password) cs ∧
      rf = (Run.exec (Invocation.after sha256 array) (initModule sha256 env password) cs).rf

/-- What every call keeps: the state is one of the four, and the list is one that calls reach. -/
private structure Sound (s : Shared) : Prop where
  state : 0 ≤ s.rf.state ∧ s.rf.state ≤ 3
  blacklist : s.rf.blacklist.Reachable

section Step

variable {sha256 : List UInt8 → Vector UInt8 32} {array : KprobeArray} {s : Shared}

/-- A call of `add_to_blacklist` or `remove_from_blacklist` leaves a list that calls reach. -/
private theorem Sound.of_run (hs : Sound s) {c : Blacklist.Call} (hz : c.Zeroed) {ret : ℤ}
    {blacklist : Blacklist} (hrun : c.run s.rf.blacklist = some (ret, blacklist))
    (hroom : ∀ new, c.linking = some new → ret = 0 → s.rf.blacklist.size + 1 < 2 ^ 31) :
    Sound { s with rf := { s.rf with blacklist } } := by
  have hrespond : Blacklist.respond s.rf.blacklist c = (some ret, blacklist) := by
    rw [Blacklist.respond, hrun]
  refine ⟨hs.state, ?_⟩
  have hstep : Blacklist.step s.rf.blacklist c = blacklist := congrArg Prod.snd hrespond
  rw [← hstep]
  refine .call hs.blacklist hz fun new hnew hret => hroom new hnew ?_
  rw [hrespond] at hret
  exact Option.some.inj hret

/-- One call. -/
private theorem Sound.after (hs : Sound s) {c : Invocation} (hc : c.Regular sha256 array s) :
    Sound (c.after sha256 array s) := by
  obtain ⟨hzeroed, hroom⟩ := hc
  obtain ⟨euid, call, env⟩ := c
  cases call with
  | switchRfState state password =>
    refine checked_elim (P := fun result => Sound result.2) (rfStateCheck_nonpos state)
      (fun _ _ => hs) fun hstate _ _ => ?_
    have hrange := (rfStateCheck_eq_zero_iff state).mp hstate
    rw [enable_or_disable]
    cases setKprobes array env.probe (arms state) s.probes with
    | none => exact ⟨hrange, hs.blacklist⟩
    | some probes => exact ⟨hrange, hs.blacklist⟩
  | addToBlacklist path password =>
    have hroom' := hroom path password rfl
    revert hroom'
    refine checked_elim (P := fun result =>
      (result.1 = some 0 → s.rf.blacklist.size + 1 < 2 ^ 31) → Sound result.2)
      (isRfRec_nonpos s.rf) (fun _ _ _ => hs) fun _ _ _ hroom' => ?_
    cases hrun : Blacklist.addToBlacklist env.add path s.rf.blacklist with
    | none => exact hs
    | some result =>
      rw [hrun] at hroom'
      have hz : (Blacklist.Call.add env.add path).Zeroed := hzeroed
      exact hs.of_run hz hrun fun _ _ hret => hroom' (congrArg some hret)
  | removeFromBlacklist path password =>
    refine checked_elim (P := fun result => Sound result.2) (isRfRec_nonpos s.rf)
      (fun _ _ => hs) fun _ _ _ => ?_
    cases hrun : Blacklist.removeFromBlacklist env.remove path s.rf.blacklist with
    | none => exact hs
    | some result =>
      have hz : (Blacklist.Call.remove env.remove path).Zeroed := trivial
      exact hs.of_run hz hrun fun _ hnew _ => absurd hnew (by simp [Blacklist.Call.linking])
  | getRfState => exact hs
  | printBlacklist buf size => exact hs
  | getBlacklistSize => exact hs

end Step

namespace ReferenceMonitor

variable {rf : ReferenceMonitor}

/-- Every run of calls. -/
private theorem Reachable.sound (h : rf.Reachable) : ∃ s : Shared, Sound s ∧ s.rf = rf := by
  obtain ⟨sha256, array, env, password, cs, hcs, rfl⟩ := h
  have hoff : (0 : ℤ) ≤ 1 ∧ (1 : ℤ) ≤ 3 := by decide
  have hinit : Sound (initModule sha256 env password) := ⟨hoff, .empty⟩
  have hstep : ∀ s c, Sound s → Invocation.Regular sha256 array s c →
      Sound (Invocation.after sha256 array s c) :=
    fun _ _ hs hc => hs.after hc
  exact ⟨_, (Run.always_of_eachStep hstep hinit hcs).exec, rfl⟩

/-- The state is one of the four. -/
theorem Reachable.state_range (h : rf.Reachable) : 0 ≤ rf.state ∧ rf.state ≤ 3 := by
  obtain ⟨s, hs, rfl⟩ := h.sound
  exact hs.state

/-- The list is one that additions and removals reach. -/
theorem Reachable.blacklist (h : rf.Reachable) : rf.blacklist.Reachable := by
  obtain ⟨s, hs, rfl⟩ := h.sound
  exact hs.blacklist

end ReferenceMonitor

/-! ### A monitor for examples -/

/-- Root switches to REC_ON and adds `/a`. -/
def sampleCalls : List Invocation :=
  [⟨0, .switchRfState 2 2, sampleCallEnv⟩, ⟨0, .addToBlacklist 0 2, sampleCallEnv⟩]

/-- The monitor after these calls. -/
def sampleMonitor : ReferenceMonitor :=
  (Run.exec (Invocation.after sampleSha256 (some fun _ => true)) sampleInit.shared
    sampleCalls).rf

theorem sampleMonitor_reachable : sampleMonitor.Reachable := by
  have hzeroed : ∀ next : Option ℕ, sampleCallEnv.add.new = some next → next = none := by
    rintro next hnext
    exact (Option.some.inj hnext).symm
  refine ⟨sampleSha256, some fun _ => true, sampleEncrypt, ⟨[], by decide⟩, sampleCalls, ?_, rfl⟩
  refine Run.eachStep_cons.mpr ⟨⟨hzeroed, ?_⟩, Run.eachStep_cons.mpr ⟨⟨hzeroed, ?_⟩, ?_⟩⟩
  · intro path password hcall
    exact absurd hcall (by simp)
  · intro _ _ _ _
    decide +kernel
  · exact Run.eachStep_nil

/-- It is in REC_ON, and its list has the entry `/a` only. -/
theorem sampleMonitor_eq : sampleMonitor.state = rfRecOn ∧
    sampleMonitor.blacklist = Blacklist.listOf Blacklist.pathA := by
  decide +kernel

theorem sampleMonitor_enforcing : sampleMonitor.Enforcing :=
  Or.inr sampleMonitor_eq.1

theorem sampleMonitor_hasEntry : sampleMonitor.blacklist.HasEntry Blacklist.pathA := by
  rw [sampleMonitor_eq.2]
  exact ⟨_, Blacklist.listOf_lists Blacklist.pathA, by simp⟩

/-! ### The verdict -/

variable {rf : ReferenceMonitor}

/-- The entries of a list are the paths of its chain. -/
theorem Blacklist.exists_hasEntry_iff {bl : Blacklist} {xs : List (ℕ × CStr)} (hxs : bl.Lists xs)
    (P : CStr → Prop) : (∃ entry, bl.HasEntry entry ∧ P entry) ↔ ∃ x ∈ xs, P x.2 := by
  constructor
  · rintro ⟨entry, ⟨ys, hys, hmem⟩, hP⟩
    obtain rfl := hys.unique hxs
    obtain ⟨x, hx, rfl⟩ := List.mem_map.mp hmem
    exact ⟨x, hx, hP⟩
  · rintro ⟨x, hx, hP⟩
    exact ⟨x.2, ⟨xs, hxs, List.mem_map_of_mem hx⟩, hP⟩

/-- In a reachable state that enforces, the verdict is about the entries of the list. -/
theorem isBlacklisted_of_reachable (hrf : rf.Enforcing) (hbl : rf.blacklist.Reachable)
    (path : List UInt8) :
    (isBlacklisted rf (some path) = some 1 ↔
        ∃ entry, rf.blacklist.HasEntry entry ∧ Covers entry (CString.chars path)) ∧
      (isBlacklisted rf (some path) = some 1 ∨ isBlacklisted rf (some path) = some 0) := by
  obtain ⟨xs, hxs⟩ := hbl.counted
  rw [isBlacklisted_eq hrf hxs, Blacklist.exists_hasEntry_iff hxs.lists]
  split_ifs with hcov
  · exact ⟨iff_of_true rfl hcov, Or.inl rfl⟩
  · exact ⟨iff_of_false (by simp) hcov, Or.inr rfl⟩

/-- In the other two states a shortcut is taken. -/
theorem isBlacklisted_of_not_enforcing (hrf : rf.Reachable) (henf : ¬rf.Enforcing)
    (path : Option (List UInt8)) : isBlacklisted rf path = some 0 := by
  have hstate : rf.state = 1 ∨ rf.state = 3 := by
    have hrange := hrf.state_range
    rw [ReferenceMonitor.Enforcing, rfOn, rfRecOn] at henf
    omega
  rw [isBlacklisted, if_pos hstate, ite_self]

/-- In every reachable state `is_blacklisted` answers `1` or `0`, and `1` exactly when the state is
ON or REC_ON and an entry of the list, less one trailing slash, starts the path. In particular it
answers: no byte is read before the first one of an empty entry. -/
theorem isBlacklisted_eq_one_iff (hrf : rf.Reachable) (path : List UInt8) :
    (isBlacklisted rf (some path) = some 1 ↔ rf.Enforcing ∧
        ∃ entry, rf.blacklist.HasEntry entry ∧ Covers entry (CString.chars path)) ∧
      (isBlacklisted rf (some path) = some 1 ∨ isBlacklisted rf (some path) = some 0) := by
  by_cases henf : rf.Enforcing
  · obtain ⟨hone, hvalue⟩ := isBlacklisted_of_reachable henf hrf.blacklist path
    exact ⟨by rw [hone, and_iff_right henf], hvalue⟩
  · rw [isBlacklisted_of_not_enforcing hrf henf]
    exact ⟨iff_of_false (by simp) fun h => henf h.1, Or.inr rfl⟩

/-- In REC_ON with `/a` on the list, `/a/` is found. -/
theorem isBlacklisted_eq_one_sampleMonitor :
    isBlacklisted sampleMonitor (some [47, 97, 47]) = some 1 := by
  refine (isBlacklisted_eq_one_iff sampleMonitor_reachable _).1.mpr
    ⟨sampleMonitor_enforcing, Blacklist.pathA, sampleMonitor_hasEntry, ?_⟩
  decide

end StackReferenceMonitor
