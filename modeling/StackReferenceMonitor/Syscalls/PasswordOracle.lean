import StackReferenceMonitor.Syscalls.Sequential

/-!
# What a caller who is not root learns about the password

The password is checked before the user is. A caller who is not root is denied in either case, but
with `-EACCES` for a wrong password and with `-EPERM` for the right one. So the value tells whether
a guess was right.

Two monitors are compared that differ in the stored digest only, under the same calls.

## Main definitions

* `SameButPassword`: two monitors that differ in the digest.
* `Invocation.compared`: the digest that a call compares with the stored one.

## Main results

* `outputs_eq_iff`: without root, the values returned are the same for both monitors exactly when no
  call compares a digest that is stored in one of them.
-/

namespace StackReferenceMonitor

/-- The monitors agree on the state and the blacklist, with its size, and have different digests. -/
structure SameButPassword (s₁ s₂ : Shared) (d₁ d₂ : CStr) : Prop where
  /-- The state. -/
  state : s₁.rf.state = s₂.rf.state
  /-- The blacklist and its size. -/
  blacklist : s₁.rf.blacklist = s₂.rf.blacklist
  /-- The digest in the first monitor. -/
  first : s₁.rf.password = some d₁
  /-- The digest in the second. -/
  second : s₂.rf.password = some d₂
  /-- The digests differ. -/
  ne : d₁ ≠ d₂

/-- The digest that `password_check` compares with the stored one: that of the string it has copied,
if it can be copied and the allocations succeed. -/
def PasswordEnv.compared (sha256 : List UInt8 → Vector UInt8 32) (env : PasswordEnv)
    (password : ℕ) : Option CStr :=
  if env.kernelPassword = none ∨ (env.mem.copyFromUser password passwLen).2 ≠ 0 then none
  else encryptPassword sha256 env.encrypt (env.copied password)

/-- The digest that a call compares with the stored one, in the state `state`, if it comes to
that. -/
def Invocation.compared (sha256 : List UInt8 → Vector UInt8 32) (state : ℤ) (c : Invocation) :
    Option CStr :=
  match c.call with
  | .switchRfState requested password =>
    if 0 ≤ requested ∧ requested ≤ 3 then c.env.password.compared sha256 password else none
  | .addToBlacklist _ password | .removeFromBlacklist _ password =>
    if 2 ≤ state then c.env.password.compared sha256 password else none
  | _ => none

section Checks

variable {sha256 : List UInt8 → Vector UInt8 32} {env : PasswordEnv} {password : ℕ}

/-- A password that is compared passes when it has the stored digest. -/
theorem passwordCheck_of_compared {rf : ReferenceMonitor} {stored digest : CStr}
    (hstored : rf.password = some stored) (h : env.compared sha256 password = some digest) :
    passwordCheck sha256 env password rf = some (if digest = stored then 0 else -EACCES) := by
  unfold PasswordEnv.compared at h
  split_ifs at h with hfails
  rw [not_or, not_not] at hfails
  unfold passwordCheck
  rw [if_neg hfails.1, if_neg (not_not.mpr hfails.2), h, hstored]
  show (if CString.strcmp stored.bytes digest.bytes ≠ 0 then some (-EACCES) else some 0) = _
  by_cases heq : digest = stored
  · simp [heq]
  · have hne : stored ≠ digest := fun h => heq h.symm
    simp [heq, CString.strcmp_bytes_eq_zero_iff, hne]

/-- Otherwise the outcome does not depend on the stored digest. -/
theorem passwordCheck_of_not_compared {rf₁ rf₂ : ReferenceMonitor}
    (h : env.compared sha256 password = none) :
    passwordCheck sha256 env password rf₁ = passwordCheck sha256 env password rf₂ := by
  unfold passwordCheck
  -- the digest is computed before the stored one is looked at
  split_ifs with hnull hcopy
  · rfl
  · rfl
  · have hdigest : encryptPassword sha256 env.encrypt (env.copied password) = none := by
      rwa [PasswordEnv.compared, if_neg (by simp [hnull, hcopy])] at h
    rw [hdigest]
    rfl

end Checks

section Calls

variable {sha256 : List UInt8 → Vector UInt8 32} {array : KprobeArray} {env : CallEnv} {euid : ℕ}
  {s : Shared}

/-- What the checks return to a caller who is not root. -/
theorem checked_of_not_root (hroot : euid ≠ 0) (first : ℤ) (password : ℕ)
    (body : Option ℤ × Shared) :
    (checked sha256 env euid s first password body).1 =
      if first ≠ 0 then some first
      else (passwordCheck sha256 env.password password s.rf).map
        fun ret => if ret ≠ 0 then ret else -EPERM := by
  unfold checked
  by_cases hfirst : first = 0
  · rw [if_neg (not_not.mpr hfirst), if_neg (not_not.mpr hfirst)]
    cases passwordCheck sha256 env.password password s.rf with
    | none => rfl
    | some ret =>
      by_cases hret : ret = 0
      · -- the right password leads on to `euid_check`, which denies
        simp [hret, euidCheck, hroot, EPERM]
      · simp [hret]
  · rw [if_pos hfirst, if_pos hfirst]

/-- A caller who is not root changes nothing. -/
theorem run_of_not_root (hroot : euid ≠ 0) (call : Syscall) :
    (call.run sha256 array env euid s).2 = s := by
  have hchecks : ∀ first password body, first ≤ 0 →
      (checked sha256 env euid s first password body).2 = s := by
    intro first password body hfirst
    refine checked_elim (P := fun result => result.2 = s) hfirst (fun _ _ => rfl) ?_
    exact fun _ _ h => absurd h hroot
  cases call with
  | switchRfState state password => exact hchecks _ _ _ (rfStateCheck_nonpos state)
  | addToBlacklist path password | removeFromBlacklist path password =>
    exact hchecks _ _ _ (isRfRec_nonpos s.rf)
  -- the others only read
  | _ => rfl

end Calls

section TwoRuns

variable {sha256 : List UInt8 → Vector UInt8 32} {s₁ s₂ : Shared} {d₁ d₂ : CStr}

/-- The checks return the same for both monitors, unless the digest is one of the two. -/
theorem checked_eq_iff (h : SameButPassword s₁ s₂ d₁ d₂) {env : CallEnv} {euid : ℕ}
    (hroot : euid ≠ 0) (first : ℤ) (password : ℕ) (body₁ body₂ : Option ℤ × Shared) :
    (checked sha256 env euid s₁ first password body₁).1 =
        (checked sha256 env euid s₂ first password body₂).1 ↔
      ∀ d, first = 0 → env.password.compared sha256 password = some d → d ≠ d₁ ∧ d ≠ d₂ := by
  rw [checked_of_not_root hroot, checked_of_not_root hroot]
  by_cases hfirst : first = 0
  · rw [if_neg (not_not.mpr hfirst), if_neg (not_not.mpr hfirst)]
    cases hcompared : env.password.compared sha256 password with
    | none =>
      rw [passwordCheck_of_not_compared hcompared]
      exact iff_of_true rfl fun d _ hd => absurd hd (by simp)
    | some d =>
      rw [passwordCheck_of_compared h.first hcompared, passwordCheck_of_compared h.second hcompared]
      -- the two values are `-EPERM` for the digest of the monitor, and `-EACCES` otherwise
      have hne := h.ne
      by_cases hd₁ : d = d₁
      · simp [hfirst, hd₁, hne, EPERM, EACCES]
      · by_cases hd₂ : d = d₂
        · simp [hfirst, hd₂, hne.symm, EPERM, EACCES]
        · simp [hfirst, hd₁, hd₂, EACCES]
  · rw [if_pos hfirst, if_pos hfirst]
    exact iff_of_true rfl fun d hzero => absurd hzero hfirst

/-- One call of a caller who is not root. -/
theorem run_eq_iff (h : SameButPassword s₁ s₂ d₁ d₂) (array : KprobeArray) {c : Invocation}
    (hroot : c.euid ≠ 0) :
    (c.run sha256 array s₁).1 = (c.run sha256 array s₂).1 ↔
      ∀ d, c.compared sha256 s₁.rf.state = some d → d ≠ d₁ ∧ d ≠ d₂ := by
  obtain ⟨euid, call, env⟩ := c
  have hrec : isRfRec s₂.rf = isRfRec s₁.rf := by
    rw [isRfRec, isRfRec, h.state]
  cases call with
  | switchRfState requested password =>
    refine (checked_eq_iff h hroot _ password _ _).trans (forall_congr' fun d => ?_)
    simp [Invocation.compared, rfStateCheck_eq_zero_iff, Option.ite_none_right_eq_some]
  | addToBlacklist path password | removeFromBlacklist path password =>
    show (checked ..).1 = (checked sha256 env euid s₂ (isRfRec s₂.rf) password _).1 ↔ _
    rw [hrec]
    refine (checked_eq_iff h hroot _ password _ _).trans (forall_congr' fun d => ?_)
    simp [Invocation.compared, isRfRec_eq_zero_iff, Option.ite_none_right_eq_some]
  -- the calls that check no password read the same state and the same list
  | _ =>
    refine iff_of_true ?_ fun d hd => absurd hd (by simp [Invocation.compared])
    simp [Invocation.run, Syscall.run, sysGetRfState, sysGetBlacklistSize, h.state, h.blacklist]

/-- For every sequence of calls of callers who are not root, and two monitors that differ in their
stored digests only: the values returned are the same exactly when no call compares a digest that is
stored in one of the monitors. -/
theorem outputs_eq_iff (sha256 : List UInt8 → Vector UInt8 32) (array : KprobeArray)
    {s₁ s₂ : Shared} {d₁ d₂ : CStr} (h : SameButPassword s₁ s₂ d₁ d₂) (cs : List Invocation)
    (hroot : ∀ c ∈ cs, c.euid ≠ 0) :
    Run.outputs (Invocation.run sha256 array) s₁ cs =
        Run.outputs (Invocation.run sha256 array) s₂ cs ↔
      ∀ c ∈ cs, ∀ d, c.compared sha256 s₁.rf.state = some d → d ≠ d₁ ∧ d ≠ d₂ := by
  -- no call changes anything, so each is answered in the first state
  rw [Run.outputs_of_unchanged fun c hc => run_of_not_root (hroot c hc) c.call,
    Run.outputs_of_unchanged fun c hc => run_of_not_root (hroot c hc) c.call, List.map_inj_left]
  exact forall₂_congr fun c hc => run_eq_iff h array (hroot c hc)

end TwoRuns

/-! ### A guess -/

/-- A digest that depends on the first byte only. -/
def firstByteSha256 (bytes : List UInt8) : Vector UInt8 32 :=
  Vector.replicate 32 (bytes.headD 0)

/-- The monitor after `init_module` with the given password. -/
def monitorWith (password : CStr) : Shared :=
  initModule firstByteSha256 sampleEncrypt password

/-- Two monitors with different passwords. -/
theorem sameButPassword_monitorWith :
    SameButPassword (monitorWith ⟨[], by decide⟩) (monitorWith ⟨[97], by decide⟩)
      (hexString (firstByteSha256 [])) (hexString (firstByteSha256 [97])) where
  state := rfl
  blacklist := rfl
  first := by decide +kernel
  second := by decide +kernel
  ne := by decide +kernel

/-- An ordinary user asks for ON, with the password at an address. -/
def guess (password : ℕ) : Invocation :=
  ⟨1000, .switchRfState rfOn password, sampleCallEnv⟩

/-- A guess that is wrong for both monitors. -/
theorem outputs_eq_iff_wrong_guess :
    Run.outputs (Invocation.run firstByteSha256 (some fun _ => true))
        (monitorWith ⟨[], by decide⟩) [guess 0] =
      Run.outputs (Invocation.run firstByteSha256 (some fun _ => true))
        (monitorWith ⟨[97], by decide⟩) [guess 0] := by
  refine (outputs_eq_iff firstByteSha256 (some fun _ => true) sameButPassword_monitorWith [guess 0]
    (by decide)).mpr ?_
  intro c hc d hd
  obtain rfl := List.mem_singleton.mp hc
  -- the guess is the path at that address, which begins with a slash
  have hdigest : (guess 0).compared firstByteSha256 rfOff =
      some (hexString (firstByteSha256 Blacklist.pathA.bytes)) := by
    decide +kernel
  obtain rfl := Option.some.inj (hdigest.symm.trans hd)
  decide +kernel

/-- A guess that is right for the first monitor: it is told so. -/
theorem outputs_tell_guess :
    SameButPassword (monitorWith ⟨[], by decide⟩) (monitorWith ⟨[97], by decide⟩)
        (hexString (firstByteSha256 [])) (hexString (firstByteSha256 [97])) ∧
      Run.outputs (Invocation.run firstByteSha256 (some fun _ => true))
        (monitorWith ⟨[], by decide⟩) [guess 2] = [some (-EPERM)] ∧
      Run.outputs (Invocation.run firstByteSha256 (some fun _ => true))
        (monitorWith ⟨[97], by decide⟩) [guess 2] = [some (-EACCES)] := by
  refine ⟨sameButPassword_monitorWith, ?_, ?_⟩
  · decide +kernel
  · decide +kernel

end StackReferenceMonitor
