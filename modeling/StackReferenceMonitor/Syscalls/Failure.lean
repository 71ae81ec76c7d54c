import StackReferenceMonitor.Syscalls.Reconfiguration
import StackReferenceMonitor.Syscalls.Sequential

/-!
# Calls that fail

A system call that fails should leave the monitor as it was. All checks of the calls come before
their first change, with one exception. A switch writes the state and sets the probes, and then
allocates a string for the audit. When that allocation fails the call returns `-ENOMEM`, with
everything done.

## Main definitions

* `Syscall.Failed`: the values by which a call says that it has failed.
* `Unchanged`: the state, the digest, the list, its size and the probes are the same.
* `LateFailure`: a switch that passes its checks, changes something, and has no memory for the
  string.

## Main results

* `failed_unchanged_iff`: a failed call changes nothing exactly when it is not a late failure.
-/

namespace StackReferenceMonitor

/-- A negative value, or `1` from a removal, which is a path that was not found. -/
def Syscall.Failed (ret : ℤ) : Syscall → Prop
  | .removeFromBlacklist _ _ => ret < 0 ∨ ret = 1
  | _ => ret < 0

/-- Nothing that a call may change has changed. A node that was allocated and not linked is no
change. -/
structure Unchanged (s s' : Shared) : Prop where
  /-- The state. -/
  state : s'.rf.state = s.rf.state
  /-- The stored digest. -/
  password : s'.rf.password = s.rf.password
  /-- The head of the list and the nodes that it had. -/
  links : ¬Relinked s.rf.blacklist s'.rf.blacklist
  /-- The paths on the list. -/
  lists : ∀ xs, s.rf.blacklist.Lists xs → s'.rf.blacklist.Lists xs
  /-- `blacklist_size`. -/
  size : s'.rf.blacklist.size = s.rf.blacklist.size
  /-- The probes. -/
  probes : s'.probes = s.probes

/-- A switch that passes its checks, has a state to write or a probe to set, and fails after
that. -/
structure LateFailure (sha256 : List UInt8 → Vector UInt8 32) (array : KprobeArray) (env : CallEnv)
    (euid : ℕ) (s : Shared) (state : ℤ) (password : ℕ) : Prop where
  /-- The state is one of the four. -/
  admissible : 0 ≤ state ∧ state ≤ 3
  /-- The password is the right one. -/
  password : passwordCheck sha256 env.password password s.rf = some 0
  /-- The caller is root. -/
  root : euid = 0
  /-- There is no memory for `state_string`. -/
  stateString : env.stateString = false
  /-- There is an array to loop over, and the state is another one or a probe is set to what it was
  not. -/
  changes : ∃ registered, array = some registered ∧
    (state ≠ s.rf.state ∨ ∃ i, registered i ∧ env.probe i ∧ s.probes i ≠ arms state)

/-- The call is such a switch. -/
def Syscall.FailsLate (sha256 : List UInt8 → Vector UInt8 32) (array : KprobeArray) (env : CallEnv)
    (euid : ℕ) (s : Shared) : Syscall → Prop
  | .switchRfState state password => LateFailure sha256 array env euid s state password
  | _ => False

variable {sha256 : List UInt8 → Vector UInt8 32} {array : KprobeArray} {env : CallEnv} {euid : ℕ}
  {s : Shared}

theorem unchanged_refl (s : Shared) : Unchanged s s :=
  ⟨rfl, rfl, not_relinked_self, fun _ h => h, rfl, rfl⟩

/-- An allocation alone is no change. -/
theorem unchanged_alloc (s : Shared) (new : BlacklistNode) :
    Unchanged s { s with rf := { s.rf with
      blacklist := { s.rf.blacklist with
        nodes := LinkedList.alloc s.rf.blacklist.nodes new } } } where
  state := rfl
  password := rfl
  links := by
    rintro (hhead | ⟨a, ha, hnode⟩)
    · exact hhead rfl
    · exact hnode (LinkedList.getElem?_alloc_of_lt ha new)
  lists := fun _ h => LinkedList.Segment.alloc h new
  size := rfl
  probes := rfl

/-- What a switch past its checks leaves is what was there, when there is nothing to write and
nothing to set. -/
theorem unchanged_switch_iff {state : ℤ} {registered probes : Fin numKretprobes → Bool}
    (h : setKprobes (some registered) env.probe (arms state) s.probes = some probes) :
    Unchanged s ⟨{ s.rf with state }, probes⟩ ↔
      state = s.rf.state ∧ ∀ i, registered i → env.probe i → s.probes i = arms state := by
  -- a probe that is not set, or is set to what it was, is as before
  have hprobes : probes = s.probes ↔ ∀ i, registered i → env.probe i → s.probes i = arms state := by
    rw [funext_iff]
    refine forall_congr' fun i => ?_
    rw [setKprobes_apply h]
    split_ifs with hi
    · exact ⟨fun heq _ _ => heq.symm, fun heq => (heq hi.1 hi.2).symm⟩
    · exact iff_of_true rfl fun hr hs => absurd ⟨hr, hs⟩ hi
  rw [← hprobes]
  constructor
  · intro hu
    exact ⟨hu.state, hu.probes⟩
  · rintro ⟨hstate, hprobes⟩
    exact ⟨hstate, rfl, not_relinked_self, fun _ h => h, rfl, hprobes⟩

/-- A switch past its checks that has no memory for the string fails late when it changes
something. -/
theorem lateFailure_iff {state : ℤ} {password : ℕ} {registered probes : Fin numKretprobes → Bool}
    (hstate : 0 ≤ state ∧ state ≤ 3)
    (hpassword : passwordCheck sha256 env.password password s.rf = some 0)
    (hstring : env.stateString = false)
    (hprobes : setKprobes (some registered) env.probe (arms state) s.probes = some probes) :
    LateFailure sha256 (some registered) env 0 s state password ↔
      ¬Unchanged s ⟨{ s.rf with state }, probes⟩ := by
  rw [unchanged_switch_iff hprobes]
  constructor
  · rintro ⟨-, -, -, -, _, hregistered, hchange⟩ ⟨hsame, hset⟩
    obtain rfl := Option.some.inj hregistered
    rcases hchange with hne | ⟨i, hi, hok, hne⟩
    · exact hne hsame
    · exact hne (hset i hi hok)
  · intro hne
    refine ⟨hstate, hpassword, rfl, hstring, registered, rfl, ?_⟩
    by_contra hall
    push Not at hall
    exact hne hall

/-- An addition that fails changes nothing. -/
theorem add_failed_unchanged {path password : ℕ} {ret : ℤ}
    (hret : (sysAddToBlacklist sha256 env euid s path password).1 = some ret) (hfailed : ret < 0) :
    Unchanged s (sysAddToBlacklist sha256 env euid s path password).2 := by
  revert hret
  refine checked_elim (P := fun result => result.1 = some ret → Unchanged s result.2)
    (isRfRec_nonpos s.rf) (fun _ _ _ => unchanged_refl s) fun _ _ _ => ?_
  cases hadd : Blacklist.addToBlacklist env.add path s.rf.blacklist with
  | none => exact fun _ => unchanged_refl s
  | some result =>
    obtain ⟨value, blacklist⟩ := result
    intro hret
    obtain rfl : value = ret := Option.some.inj hret
    rcases Blacklist.addToBlacklist_failed hadd hfailed.ne with rfl | ⟨new, rfl⟩
    · exact unchanged_refl s
    · -- the path is a duplicate, and its node stays allocated
      exact unchanged_alloc s new

/-- A removal that fails, or does not find its path, changes nothing. -/
theorem remove_failed_unchanged {path password : ℕ} {ret : ℤ}
    (hret : (sysRemoveFromBlacklist sha256 env euid s path password).1 = some ret)
    (hfailed : ret < 0 ∨ ret = 1) :
    Unchanged s (sysRemoveFromBlacklist sha256 env euid s path password).2 := by
  revert hret
  refine checked_elim (P := fun result => result.1 = some ret → Unchanged s result.2)
    (isRfRec_nonpos s.rf) (fun _ _ _ => unchanged_refl s) fun _ _ _ => ?_
  cases hremove : Blacklist.removeFromBlacklist env.remove path s.rf.blacklist with
  | none => exact fun _ => unchanged_refl s
  | some result =>
    obtain ⟨value, blacklist⟩ := result
    intro hret
    have hvalue : (if value = -EINVAL then 1 else value) = ret := Option.some.inj hret
    -- success is `0`, which is neither negative nor `1`
    have hne : value ≠ 0 := by
      rintro rfl
      obtain rfl : 0 = ret := hvalue
      omega
    obtain rfl := Blacklist.removeFromBlacklist_failed hremove hne
    exact unchanged_refl s

/-- A switch that fails changes nothing exactly when it does not fail late. -/
theorem switch_failed_unchanged_iff (state : ℤ) (password : ℕ) :
    (∀ ret, (sysSwitchRfState sha256 array env euid s state password).1 = some ret → ret < 0 →
        Unchanged s (sysSwitchRfState sha256 array env euid s state password).2) ↔
      ¬LateFailure sha256 array env euid s state password := by
  by_cases hpass : (0 ≤ state ∧ state ≤ 3) ∧
      passwordCheck sha256 env.password password s.rf = some 0 ∧ euid = 0
  · obtain ⟨hstate, hpassword, rfl⟩ := hpass
    cases array with
    | none =>
      -- the loop does not end, and the call does not return
      refine iff_of_true ?_ ?_
      · unfold sysSwitchRfState
        rw [checked_eq_body _ ((rfStateCheck_eq_zero_iff state).mpr hstate) hpassword rfl,
          enable_or_disable]
        intro ret hret
        exact absurd hret (by simp [setKprobes])
      · rintro ⟨-, -, -, -, registered, harray, -⟩
        exact absurd harray (by simp)
    | some registered =>
      obtain ⟨probes, hprobes, heq⟩ := sysSwitchRfState_eq registered hstate hpassword
      rw [heq]
      cases hstring : env.stateString with
      | true =>
        -- with memory for the string it returns the state, which is not negative
        refine iff_of_true (fun ret hret hneg => ?_) fun hlate => ?_
        · obtain rfl : state = ret := Option.some.inj hret
          omega
        · exact absurd (hlate.stateString.symm.trans hstring) (by decide)
      | false =>
        -- it returns `-ENOMEM`, and has done what it was asked for
        rw [lateFailure_iff hstate hpassword hstring hprobes, not_not]
        exact ⟨fun h => h _ rfl (by simp [ENOMEM]), fun h _ _ _ => h⟩
  · -- a switch that does not pass its checks changes nothing
    refine iff_of_true (fun ret _ _ => ?_) fun hlate =>
      hpass ⟨hlate.admissible, hlate.password, hlate.root⟩
    refine checked_elim (P := fun result => Unchanged s result.2) (rfStateCheck_nonpos state)
      (fun _ _ => unchanged_refl s) fun hfirst hpassword hroot => ?_
    exact absurd ⟨(rfStateCheck_eq_zero_iff state).mp hfirst, hpassword, hroot⟩ hpass

/-- For every state of the monitor and the probes, every call with its arguments, every caller and
every outcome of the allocations and copies: the call leaves all unchanged if it fails, exactly when
it is not a switch that fails late. -/
theorem failed_unchanged_iff (sha256 : List UInt8 → Vector UInt8 32) (array : KprobeArray)
    (env : CallEnv) (euid : ℕ) (s : Shared) (call : Syscall) :
    (∀ ret, (call.run sha256 array env euid s).1 = some ret → call.Failed ret →
        Unchanged s (call.run sha256 array env euid s).2) ↔
      ¬call.FailsLate sha256 array env euid s := by
  cases call with
  | switchRfState state password => exact switch_failed_unchanged_iff state password
  | addToBlacklist path password =>
    exact iff_of_true (fun _ hret hfailed => add_failed_unchanged hret hfailed) id
  | removeFromBlacklist path password =>
    exact iff_of_true (fun _ hret hfailed => remove_failed_unchanged hret hfailed) id
  -- the calls that only read
  | _ => exact iff_of_true (fun _ _ _ => unchanged_refl s) id

/-- After `init_module`, root switches to ON with the right password, and there is no memory for the
string. -/
def lateSwitch : Option ℤ × Shared :=
  (Syscall.switchRfState rfOn 2).run sampleSha256 (some fun _ => true)
    { sampleCallEnv with stateString := false } 0 sampleInit.shared

/-- The call returns `-ENOMEM`, the state is ON and all probes are enabled. -/
theorem switch_fails_switched :
    lateSwitch.1 = some (-ENOMEM) ∧ (Syscall.switchRfState rfOn 2).Failed (-ENOMEM) ∧
      lateSwitch.2.rf.state = rfOn ∧ (∀ i, lateSwitch.2.probes i = true) ∧
      ¬Unchanged sampleInit.shared lateSwitch.2 := by
  refine ⟨by decide +kernel, show -ENOMEM < 0 by decide, by decide +kernel, by decide +kernel,
    fun h => ?_⟩
  exact absurd h.state (by decide +kernel)

end StackReferenceMonitor
