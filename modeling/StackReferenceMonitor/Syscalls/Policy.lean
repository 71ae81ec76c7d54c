import StackReferenceMonitor.Blacklist.Refinement
import StackReferenceMonitor.Blacklist.UserStrings
import StackReferenceMonitor.Syscalls.PasswordCheck
import StackReferenceMonitor.Verdict.Reachable

/-!
# What the monitor is for

`Policy` is the reference monitor as its administrator sees it: a mode, an ordered set of protected
paths, and the number that `sys_get_blacklist_size` reports. A request is refused or granted in view
of the mode, the password and the user, and what a policy stops is a matter of its mode and its
paths alone.

The system calls refine it: whatever calls are made one after the other, with strings that can be
read and memory that can be allocated, they return what the policy answers, `is_blacklisted` finds
what the policy stops, and the probes are enabled exactly in the modes that enforce.

The number that is reported is part of the policy because it is not the number of paths: it is not
decremented when a path other than the first is removed.

## Main definitions

* `Mode`, `Policy`, `Policy.serve`: the abstract monitor and its answers.
* `Policy.Stops`: the paths that it stops.
* `Invocation.Carries`: a system call that brings a request.
* `Enacts`: the shared state is that of a policy.

## Main results

* `enacts_run`: one system call refines one request;
* `calls_refine_policy`: every run of system calls refines a run of requests.
-/

namespace StackReferenceMonitor

open Blacklist (PathSet)

/-! ### The abstract monitor -/

/-- The four states of the monitor. -/
inductive Mode where
  /-- Paths are protected. -/
  | on
  /-- Nothing is protected. -/
  | off
  /-- Paths are protected, and may be added and removed. -/
  | reconfOn
  /-- Nothing is protected, and paths may be added and removed. -/
  | reconfOff
  deriving DecidableEq

namespace Mode

/-- The number of a mode. -/
def toInt : Mode → ℤ
  | on => rfOn
  | off => rfOff
  | reconfOn => rfRecOn
  | reconfOff => rfRecOff

/-- The mode with a number. -/
def ofInt (state : ℤ) : Option Mode :=
  if state = rfOn then some on
  else if state = rfOff then some off
  else if state = rfRecOn then some reconfOn
  else if state = rfRecOff then some reconfOff
  else none

/-- The modes in which paths are protected. -/
def enforces : Mode → Bool
  | on | reconfOn => true
  | off | reconfOff => false

/-- The modes in which paths may be added and removed. -/
def reconfigurable : Mode → Bool
  | reconfOn | reconfOff => true
  | on | off => false

theorem ofInt_eq_some {state : ℤ} {mode : Mode} (h : ofInt state = some mode) :
    state = mode.toInt := by
  unfold ofInt at h
  split_ifs at h with h0 h1 h2 h3 <;> cases Option.some.inj h <;> assumption

theorem ofInt_eq_none_iff (state : ℤ) : ofInt state = none ↔ rfStateCheck state ≠ 0 := by
  rw [Ne, rfStateCheck_eq_zero_iff, ofInt, rfOn, rfOff, rfRecOn, rfRecOff]
  split_ifs <;> simp <;> omega

theorem toInt_reconfigurable (mode : Mode) : mode.reconfigurable = true ↔ 2 ≤ mode.toInt := by
  cases mode <;> decide

theorem arms_toInt (mode : Mode) : arms mode.toInt = mode.enforces := by
  cases mode <;> decide

end Mode

/-- The monitor as its administrator sees it. -/
structure Policy where
  /-- The mode. -/
  mode : Mode
  /-- The protected paths. -/
  entries : PathSet
  /-- The number of entries that is reported. -/
  count : ℤ

/-- What may be asked of the monitor. -/
inductive Request where
  /-- Switch to the mode with this number. -/
  | switch (state : ℤ)
  /-- Tell the mode. -/
  | mode
  /-- Protect a path. -/
  | add (p : CStr)
  /-- Protect a path no longer. -/
  | remove (p : CStr)
  /-- Tell the number of entries. -/
  | count

/-- A request with what its caller is known by. -/
structure Petition where
  /-- The effective user id. -/
  euid : ℕ
  /-- The password that comes with the request. -/
  password : CStr
  /-- The request. -/
  request : Request

namespace Policy

/-- The policy of a monitor that was just loaded. -/
def initial : Policy :=
  { mode := .off, entries := .empty, count := 0 }

/-- A path is stopped if the mode enforces and an entry covers the path. -/
def Stops (policy : Policy) (path : List UInt8) : Prop :=
  policy.mode.enforces = true ∧ ∃ entry ∈ policy.entries.paths, Covers entry path

instance (policy : Policy) (path : List UInt8) : Decidable (policy.Stops path) :=
  inferInstanceAs (Decidable (_ ∧ ∃ entry ∈ policy.entries.paths, Covers entry path))

/-- Only root with the right password is granted anything. -/
def authorise (accepts : CStr → Bool) (policy : Policy) (q : Petition) (granted : ℤ × Policy) :
    ℤ × Policy :=
  if !accepts q.password then (-EACCES, policy)
  else if q.euid ≠ 0 then (-EPERM, policy)
  else granted

/-- The policy with one path more. -/
def add (policy : Policy) (p : CStr) : ℤ × Policy :=
  if p ∈ policy.entries.paths then (-EEXIST, policy)
  else (0, { policy with entries := (policy.entries.add p).2, count := policy.count + 1 })

/-- The policy with one path less. Only the first path is subtracted from the number of entries. -/
def remove (policy : Policy) (p : CStr) : ℤ × Policy :=
  if p ∈ policy.entries.paths then
    (0, { policy with
      entries := (policy.entries.remove p).2
      count := if policy.entries.paths.head? = some p then policy.count - 1 else policy.count })
  else (1, policy)

theorem mode_add (policy : Policy) (p : CStr) : (policy.add p).2.mode = policy.mode := by
  unfold add
  split_ifs <;> rfl

theorem mode_remove (policy : Policy) (p : CStr) : (policy.remove p).2.mode = policy.mode := by
  unfold remove
  split_ifs <;> rfl

/-- The answer to a request and the policy after it. -/
def serve (accepts : CStr → Bool) (policy : Policy) (q : Petition) : ℤ × Policy :=
  match q.request with
  | .switch state =>
    match Mode.ofInt state with
    | none => (-EINVAL, policy)
    | some mode => policy.authorise accepts q (state, { policy with mode })
  | .mode => (policy.mode.toInt, policy)
  | .add p =>
    if policy.mode.reconfigurable then policy.authorise accepts q (policy.add p)
    else (-EPERM, policy)
  | .remove p =>
    if policy.mode.reconfigurable then policy.authorise accepts q (policy.remove p)
    else (-EPERM, policy)
  | .count => (policy.count, policy)

end Policy

/-! ### The calls that bring a request -/

/-- The check finds the password `s` at the address, and can copy it. -/
structure PasswordEnv.Brings (env : PasswordEnv) (password : ℕ) (s : CStr) : Prop where
  /-- The allocations and the hashing succeed. -/
  works : env.Works
  /-- The string is there. -/
  has : env.mem.HasString password s
  /-- It fits the buffer. -/
  short : s.bytes.length < passwLen
  /-- As many bytes as the buffer has can be read. -/
  readable : (env.mem.readable password passwLen).length = passwLen

/-- The system call brings the request. -/
def Syscall.Carries (env : CallEnv) (password : CStr) : Syscall → Request → Prop
  | .switchRfState state addr, .switch state' => state' = state ∧ env.password.Brings addr password
  | .getRfState, .mode => True
  | .addToBlacklist path addr, .add p =>
    Blacklist.Performs (.add env.add path) (.add p) ∧ env.password.Brings addr password
  | .removeFromBlacklist path addr, .remove p =>
    Blacklist.Performs (.remove env.remove path) (.remove p) ∧ env.password.Brings addr password
  | .getBlacklistSize, .count => True
  | _, _ => False

/-- The system call brings the petition, and what it needs of the kernel succeeds. -/
structure Invocation.Carries (c : Invocation) (q : Petition) : Prop where
  /-- The caller. -/
  euid : q.euid = c.euid
  /-- The request, with its strings. -/
  request : c.call.Carries c.env q.password q.request
  /-- The probes can be enabled and disabled. -/
  probe : ∀ i, c.env.probe i = true
  /-- There is memory for the string of the audit. -/
  stateString : c.env.stateString = true

/-! ### The two functions that change the list -/

namespace Blacklist

/-- The list is that of the policy. -/
def Keeps (bl : Blacklist) (policy : Policy) : Prop :=
  (∃ xs, bl.Counted xs ∧ xs.map Prod.snd = policy.entries.paths) ∧ bl.size = policy.count

variable {bl : Blacklist} {policy : Policy} {p : CStr}

/-- An addition, when there is room for the increment of `blacklist_size`. -/
theorem add_refines (h : bl.Keeps policy) (hroom : bl.size + 1 < 2 ^ 31) {env : AddEnv} {path : ℕ}
    (hp : Performs (.add env path) (.add p)) :
    ∃ bl', addToBlacklist env path bl = some ((policy.add p).1, bl') ∧
      bl'.Keeps (policy.add p).2 := by
  obtain ⟨⟨xs, hxs, hpaths⟩, hsize⟩ := h
  have hz : (Call.add env path).Zeroed := by
    intro next hnext
    exact Option.some.inj (hnext.symm.trans hp.2.2.2.1)
  obtain ⟨hret, ys, hys, hpaths'⟩ := respond_refines ⟨xs, hxs.lists, hpaths⟩ hp
  obtain ⟨zs, hzs⟩ := hxs.step hz fun _ _ _ => hroom
  have heff := respond_effect hxs.lists (.add env path)
  obtain ⟨ret, bl', hrespond⟩ : ∃ ret bl', respond bl (.add env path) = (ret, bl') := ⟨_, _, rfl⟩
  rw [Blacklist.step] at hzs
  rw [hrespond] at hret hys hzs heff
  obtain rfl := hys.unique hzs.lists
  refine ⟨bl', (run_of_respond (hrespond.trans (Prod.ext hret rfl))).trans ?_,
    ⟨ys, hzs, hpaths'.trans ?_⟩, ?_⟩
  · by_cases hmem : p ∈ policy.entries.paths <;>
      simp [Policy.add, PathSet.apply, PathSet.add, hmem]
  · by_cases hmem : p ∈ policy.entries.paths <;>
      simp [Policy.add, PathSet.apply, PathSet.add, hmem]
  · obtain ⟨hlink, hunlink⟩ := hp.linking
    clear hret
    cases heff with
    | kept _ hdup _ _ hkept _ =>
      have hmem := (hdup _ hlink).1
      rw [hpaths] at hmem
      rw [Policy.add, if_pos hmem, hkept, hsize]
    | linked hnew hnot _ hcount _ =>
      obtain rfl := Option.some.inj (hlink.symm.trans hnew)
      rw [hpaths] at hnot
      have hlen := hxs.length_le
      rw [Policy.add, if_neg hnot, hcount, toInt32_of_mem (by omega) hroom, hsize]
    | unlinked hgone => exact absurd (hunlink.symm.trans hgone) (by simp)

/-- A removal, with the value that the system call makes of it. -/
theorem remove_refines (h : bl.Keeps policy) {env : RemoveEnv} {path : ℕ}
    (hp : Performs (.remove env path) (.remove p)) :
    ∃ ret bl', removeFromBlacklist env path bl = some (ret, bl') ∧
      (if ret = -EINVAL then 1 else ret) = (policy.remove p).1 ∧ bl'.Keeps (policy.remove p).2 := by
  obtain ⟨⟨xs, hxs, hpaths⟩, hsize⟩ := h
  obtain ⟨hret, ys, hys, hpaths'⟩ := respond_refines ⟨xs, hxs.lists, hpaths⟩ hp
  have hover : NoOverflow bl (.remove env path) := by
    intro new hnew
    exact absurd hnew (by simp [Call.linking])
  obtain ⟨zs, hzs⟩ := hxs.step (c := .remove env path) trivial hover
  have heff := respond_effect hxs.lists (.remove env path)
  obtain ⟨ret, bl', hrespond⟩ : ∃ ret bl', respond bl (.remove env path) = (ret, bl') :=
    ⟨_, _, rfl⟩
  rw [Blacklist.step] at hzs
  rw [hrespond] at hret hys hzs heff
  obtain rfl := hys.unique hzs.lists
  refine ⟨_, bl', run_of_respond (hrespond.trans (Prod.ext hret rfl)), ?_,
    ⟨ys, hzs, hpaths'.trans ?_⟩, ?_⟩
  · by_cases hmem : p ∈ policy.entries.paths <;>
      simp [Policy.remove, PathSet.apply, PathSet.remove, hmem, EINVAL]
  · by_cases hmem : p ∈ policy.entries.paths <;>
      simp [Policy.remove, PathSet.apply, PathSet.remove, hmem]
  · obtain ⟨hunlink, hlink⟩ := hp.unlinking
    have hlen := hxs.length_le
    have hlt := hxs.size_lt
    clear hret
    cases heff with
    | kept _ _ hmissing _ hkept _ =>
      have hnot := (hmissing _ hunlink).1
      rw [hpaths] at hnot
      rw [Policy.remove, if_neg hnot, hkept, hsize]
    | linked hnew => exact absurd (hlink.symm.trans hnew) (by simp)
    | @unlinked _ us vs a _ hgone hsplit hnot _ hcount _ =>
      obtain rfl := Option.some.inj (hunlink.symm.trans hgone)
      subst hsplit
      rw [List.map_append, List.map_cons] at hpaths
      have hmem : p ∈ policy.entries.paths := by simp [← hpaths]
      rw [Policy.remove, if_pos hmem, hcount, ← hpaths]
      -- the first path is the only one that is subtracted
      cases us with
      | nil =>
        simp only [List.length_append, List.length_cons] at hlen
        have hcut : toInt32 (bl.size - 1) = bl.size - 1 := toInt32_of_mem (by omega) (by omega)
        simp [← hsize, hcut]
      | cons u us =>
        have hne : u.2 ≠ p := fun heq => hnot (by simp [heq])
        simp [hne, hsize]

end Blacklist

/-! ### The refinement -/

/-- The shared state is that of the policy, with the digest of `secret` stored. -/
structure Enacts (sha256 : List UInt8 → Vector UInt8 32) (secret : CStr) (s : Shared)
    (policy : Policy) : Prop where
  /-- The state. -/
  state : s.rf.state = policy.mode.toInt
  /-- The digest. -/
  password : s.rf.password = some (hexString (sha256 secret.bytes))
  /-- The list. -/
  blacklist : s.rf.blacklist.Keeps policy
  /-- The probes. -/
  probes : ∀ i, s.probes i = policy.mode.enforces

/-- The passwords with the digest of `secret`. -/
def sameDigest (sha256 : List UInt8 → Vector UInt8 32) (secret s : CStr) : Bool :=
  sha256 s.bytes = sha256 secret.bytes

section Refinement

variable {sha256 : List UInt8 → Vector UInt8 32} {secret : CStr} {s : Shared} {policy : Policy}
  {env : CallEnv} {euid password : ℕ} {q : Petition}

/-- The check of a password that was brought. -/
theorem passwordCheck_of_brings (h : Enacts sha256 secret s policy) {w : CStr}
    (hw : env.password.Brings password w) :
    passwordCheck sha256 env.password password s.rf =
      some (if sameDigest sha256 secret w then 0 else -EACCES) := by
  have hcopied : env.password.copied password = w :=
    UserMem.ofMem_copyFromUser hw.has hw.short _
  rw [passwordCheck_of_readable hw.works h.password hw.readable, hcopied, sameDigest]
  simp

/-- The checks of a call, against those of the policy: what comes after both is related, so the
whole is. -/
theorem checked_refines (h : Enacts sha256 secret s policy)
    (hw : env.password.Brings password q.password) (heuid : q.euid = euid)
    {body : Option ℤ × Shared} {granted : ℤ × Policy}
    (hbody : body.1 = some granted.1 ∧ Enacts sha256 secret body.2 granted.2) :
    (checked sha256 env euid s 0 password body).1 =
        some (policy.authorise (sameDigest sha256 secret) q granted).1 ∧
      Enacts sha256 secret (checked sha256 env euid s 0 password body).2
        (policy.authorise (sameDigest sha256 secret) q granted).2 := by
  rw [checked, passwordCheck_of_brings h hw, Policy.authorise, heuid]
  by_cases haccepts : sameDigest sha256 secret q.password = true
  · by_cases hroot : euid = 0
    · simpa [haccepts, hroot, euidCheck] using hbody
    · simpa [haccepts, hroot, euidCheck, EPERM] using h
  · simpa [haccepts, EACCES] using h

/-- An error of the first check. -/
theorem checked_of_first {first : ℤ} (hfirst : first ≠ 0) (body : Option ℤ × Shared) :
    checked sha256 env euid s first password body = (some first, s) := by
  rw [checked, if_pos hfirst]

/-- One system call refines one request, when there is room for the increment of
`blacklist_size`. -/
theorem enacts_run {c : Invocation} (h : Enacts sha256 secret s policy) (hc : c.Carries q)
    (hroom : policy.count + 1 < 2 ^ 31) :
    (c.run sha256 (some fun _ => true) s).1 =
        some (policy.serve (sameDigest sha256 secret) q).1 ∧
      Enacts sha256 secret (c.run sha256 (some fun _ => true) s).2
        (policy.serve (sameDigest sha256 secret) q).2 := by
  obtain ⟨euid, call, env⟩ := c
  obtain ⟨euid', w, request⟩ := q
  obtain ⟨heuid, hrequest, hprobe, hstring⟩ := hc
  dsimp only at heuid hrequest hprobe hstring
  have hroom' : s.rf.blacklist.size + 1 < 2 ^ 31 := by
    rw [h.blacklist.2]
    exact hroom
  -- the check of the state, for the two calls that change the list
  have hrec : isRfRec s.rf = if policy.mode.reconfigurable then 0 else -EPERM := by
    have hlow := policy.mode.toInt_reconfigurable
    rw [isRfRec, h.state]
    split_ifs with hstate hmode hmode
    · exact absurd (hlow.mp hmode) (by omega)
    · rfl
    · rfl
    · exact absurd (hlow.mpr (by omega)) hmode
  cases call with
  | switchRfState state addr =>
    cases request with
    | switch state' =>
      obtain ⟨rfl, hw⟩ := hrequest
      simp only [Invocation.run, Syscall.run, sysSwitchRfState, Policy.serve, enable_or_disable]
      cases hmode : Mode.ofInt state' with
      | none =>
        have hfirst := (Mode.ofInt_eq_none_iff state').mp hmode
        have hvalue : rfStateCheck state' = -EINVAL := by
          unfold rfStateCheck at hfirst ⊢
          split_ifs at hfirst ⊢ with hrange
          · rfl
          · exact absurd rfl hfirst
        rw [checked_of_first hfirst, hvalue]
        exact ⟨rfl, h⟩
      | some mode =>
        have hstate := Mode.ofInt_eq_some hmode
        have hfirst : rfStateCheck state' = 0 := by
          by_contra hne
          exact absurd ((Mode.ofInt_eq_none_iff state').mpr hne) (by simp [hmode])
        rw [hfirst]
        refine checked_refines h hw heuid ?_
        simp only [setKprobes, Option.map_some, hstring, if_true]
        refine ⟨trivial, ⟨hstate, h.password, h.blacklist, ?_⟩⟩
        intro i
        simp [foldl_setKprobe_apply, hprobe, hstate, mode.arms_toInt]
    | _ => exact hrequest.elim
  | addToBlacklist path addr =>
    cases request with
    | add p =>
      obtain ⟨hp, hw⟩ := hrequest
      simp only [Invocation.run, Syscall.run, sysAddToBlacklist, Policy.serve, hrec]
      split_ifs with hmode
      · obtain ⟨bl', hrun, hkeeps⟩ := Blacklist.add_refines h.blacklist hroom' hp
        rw [hrun]
        refine checked_refines h hw heuid ⟨rfl, ⟨?_, h.password, hkeeps, ?_⟩⟩
        · rw [Policy.mode_add]
          exact h.state
        · rw [Policy.mode_add]
          exact h.probes
      · rw [checked_of_first (by decide)]
        exact ⟨rfl, h⟩
    | _ => exact hrequest.elim
  | removeFromBlacklist path addr =>
    cases request with
    | remove p =>
      obtain ⟨hp, hw⟩ := hrequest
      simp only [Invocation.run, Syscall.run, sysRemoveFromBlacklist, Policy.serve, hrec]
      split_ifs with hmode
      · obtain ⟨ret, bl', hrun, hret, hkeeps⟩ := Blacklist.remove_refines h.blacklist hp
        rw [hrun]
        refine checked_refines h hw heuid ⟨congrArg some hret, ⟨?_, h.password, hkeeps, ?_⟩⟩
        · rw [Policy.mode_remove]
          exact h.state
        · rw [Policy.mode_remove]
          exact h.probes
      · rw [checked_of_first (by decide)]
        exact ⟨rfl, h⟩
    | _ => exact hrequest.elim
  | getRfState =>
    cases request with
    | mode =>
      refine ⟨?_, h⟩
      simp [Invocation.run, Syscall.run, sysGetRfState, hstring, Policy.serve, h.state]
    | _ => exact hrequest.elim
  | getBlacklistSize =>
    cases request with
    | count => exact ⟨congrArg some h.blacklist.2, h⟩
    | _ => exact hrequest.elim
  | printBlacklist buf n => cases request <;> exact hrequest.elim

/-- The paths that `is_blacklisted` finds are those that the policy stops, and the probes are
enabled exactly when its mode enforces. -/
structure Behaves (s : Shared) (policy : Policy) : Prop where
  /-- The verdicts. -/
  verdict : ∀ path, isBlacklisted s.rf (some path) =
    some (if policy.Stops (CString.chars path) then 1 else 0)
  /-- The probes. -/
  probes : ∀ i, s.probes i = policy.mode.enforces

/-- What the policy stops, `is_blacklisted` finds. -/
theorem Enacts.isBlacklisted (h : Enacts sha256 secret s policy) (path : List UInt8) :
    isBlacklisted s.rf (some path) =
      some (if policy.Stops (CString.chars path) then 1 else 0) := by
  obtain ⟨⟨xs, hxs, hpaths⟩, -⟩ := h.blacklist
  have hentries : (∃ entry ∈ policy.entries.paths, Covers entry (CString.chars path)) ↔
      ∃ x ∈ xs, Covers x.2 (CString.chars path) := by
    rw [← hpaths]
    constructor
    · rintro ⟨entry, hmem, hcov⟩
      obtain ⟨x, hx, rfl⟩ := List.mem_map.mp hmem
      exact ⟨x, hx, hcov⟩
    · rintro ⟨x, hx, hcov⟩
      exact ⟨x.2, List.mem_map_of_mem hx, hcov⟩
  by_cases henf : policy.mode.enforces = true
  · have hrf : s.rf.Enforcing := by
      rw [ReferenceMonitor.Enforcing, h.state]
      cases hmode : policy.mode <;> simp_all [Mode.enforces, Mode.toInt]
    rw [isBlacklisted_eq hrf hxs]
    simp only [Policy.Stops, henf, true_and, hentries]
  · have hshortcut : s.rf.state = 1 ∨ s.rf.state = 3 := by
      rw [h.state]
      cases hmode : policy.mode <;> simp_all [Mode.enforces, Mode.toInt, rfOff, rfRecOff]
    rw [StackReferenceMonitor.isBlacklisted, if_pos hshortcut, ite_self,
      if_neg fun hstops => henf hstops.1]

/-- The shared state after `init_module`, if the digest of the module's password was stored. -/
theorem enacts_initModule (sha256 : List UInt8 → Vector UInt8 32) (secret : CStr)
    {encrypt : EncryptEnv} (h : (encryptPassword sha256 encrypt secret).isSome) :
    Enacts sha256 secret (initModule sha256 encrypt secret) .initial := by
  obtain ⟨digest, hdigest⟩ := Option.isSome_iff_exists.mp h
  refine ⟨rfl, ?_, ⟨Blacklist.Reachable.empty.counted.imp fun xs hxs => ⟨hxs, ?_⟩, rfl⟩,
    fun _ => rfl⟩
  · rw [← encryptPassword_eq_some hdigest]
    exact hdigest
  · rw [hxs.lists.unique Blacklist.lists_empty]
    rfl

/-- The shared state and the policy, while there is room for `n` increments of
`blacklist_size`. -/
def EnactsFor (sha256 : List UInt8 → Vector UInt8 32) (secret : CStr) (n : ℕ) (s : Shared)
    (policy : Policy) : Prop :=
  Enacts sha256 secret s policy ∧ policy.count + n < 2 ^ 31

/-- No request adds more than one to the number of entries. -/
theorem Policy.count_serve_le (accepts : CStr → Bool) (policy : Policy) (q : Petition) :
    (policy.serve accepts q).2.count ≤ policy.count + 1 := by
  have hauthorise : ∀ granted : ℤ × Policy, granted.2.count ≤ policy.count + 1 →
      (policy.authorise accepts q granted).2.count ≤ policy.count + 1 := by
    intro granted hgranted
    unfold Policy.authorise
    split_ifs
    · exact Int.le_add_one le_rfl
    · exact Int.le_add_one le_rfl
    · exact hgranted
  have hself : policy.count ≤ policy.count + 1 := Int.le_add_one le_rfl
  unfold Policy.serve
  split
  · split
    · exact hself
    · exact hauthorise _ hself
  · exact hself
  · split_ifs
    · refine hauthorise _ ?_
      unfold Policy.add
      split_ifs
      · exact hself
      · exact le_rfl
    · exact hself
  · split_ifs
    · refine hauthorise _ ?_
      unfold Policy.remove
      split_ifs
      · show policy.count - 1 ≤ policy.count + 1
        omega
      · exact hself
      · exact hself
    · exact hself
  · exact hself

end Refinement

/-- Every run of fewer than `2 ^ 31` system calls, one after the other, from a module that was
loaded with the password `secret`: they return what the policy answers to the requests they bring,
and after every call the paths that `is_blacklisted` finds are those that the policy stops, and all
probes are enabled if the mode enforces, and disabled if it does not. -/
theorem calls_refine_policy (sha256 : List UInt8 → Vector UInt8 32) (secret : CStr)
    (encrypt : EncryptEnv) (hencrypt : (encryptPassword sha256 encrypt secret).isSome)
    (cs : List Invocation) (qs : List Petition) (h : List.Forall₂ Invocation.Carries cs qs)
    (hlen : cs.length < 2 ^ 31) :
    Run.outputs (Invocation.run sha256 (some fun _ => true)) (initModule sha256 encrypt secret) cs =
        (Run.outputs (Policy.serve (sameDigest sha256 secret)) .initial qs).map some ∧
      ∀ n, Behaves
        (Run.exec (Invocation.after sha256 (some fun _ => true)) (initModule sha256 encrypt secret)
          (cs.take n))
        (Run.exec (fun policy q => (policy.serve (sameDigest sha256 secret) q).2) Policy.initial
          (qs.take n)) := by
  have hstep : ∀ n s policy c q, EnactsFor sha256 secret (n + 1) s policy →
      Invocation.Carries c q →
      (c.run sha256 (some fun _ => true) s).1 =
          some (policy.serve (sameDigest sha256 secret) q).1 ∧
        EnactsFor sha256 secret n (c.run sha256 (some fun _ => true) s).2
          (policy.serve (sameDigest sha256 secret) q).2 := by
    rintro n s policy c q ⟨henacts, hroom⟩ hc
    push_cast at hroom
    obtain ⟨hret, hafter⟩ := enacts_run henacts hc (by omega)
    have hcount := policy.count_serve_le (sameDigest sha256 secret) q
    exact ⟨hret, hafter, by omega⟩
  have hstart := enacts_initModule sha256 secret hencrypt
  have hroom : ∀ k : ℕ, k < 2 ^ 31 → Policy.initial.count + k < 2 ^ 31 := by
    intro k hk
    show (0 : ℤ) + k < 2 ^ 31
    omega
  constructor
  · exact (Run.simulation_counted (k := 0) hstep ⟨hstart, hroom _ hlen⟩ h).1
  · intro n
    -- a run that is cut after `n` calls is itself a run
    have hcut : (cs.take n).length + 0 < 2 ^ 31 := by
      rw [List.length_take]
      omega
    obtain ⟨-, henacts, -⟩ :=
      Run.simulation_counted (k := 0) hstep ⟨hstart, hroom _ hcut⟩ (List.forall₂_take n h)
    exact ⟨henacts.isBlacklisted, henacts.probes⟩

/-- Root switches to REC_ON, adds `/a`, adds it again and asks for the number of entries. -/
theorem calls_refine_policy_pathA :
    Run.outputs (Invocation.run sampleSha256 (some fun _ => true))
        (initModule sampleSha256 sampleEncrypt ⟨[], by decide⟩)
        [⟨0, .switchRfState 2 2, sampleCallEnv⟩, ⟨0, .addToBlacklist 0 2, sampleCallEnv⟩,
          ⟨0, .addToBlacklist 0 2, sampleCallEnv⟩, ⟨0, .getBlacklistSize, sampleCallEnv⟩] =
      [some 2, some 0, some (-17), some 1] := by
  have hpassword : sampleCallEnv.password.Brings 2 ⟨[], by decide⟩ :=
    ⟨⟨by decide, by decide, by decide, by decide⟩, by decide, by decide, by decide⟩
  have hadd : Blacklist.Performs (.add sampleCallEnv.add 0) (.add Blacklist.pathA) := by
    simp only [Blacklist.Performs]
    decide
  have hprobe : ∀ i, sampleCallEnv.probe i = true := fun _ => rfl
  have hcarries : List.Forall₂ Invocation.Carries
      [⟨0, .switchRfState 2 2, sampleCallEnv⟩, ⟨0, .addToBlacklist 0 2, sampleCallEnv⟩,
        ⟨0, .addToBlacklist 0 2, sampleCallEnv⟩, ⟨0, .getBlacklistSize, sampleCallEnv⟩]
      [⟨0, ⟨[], by decide⟩, .switch 2⟩, ⟨0, ⟨[], by decide⟩, .add Blacklist.pathA⟩,
        ⟨0, ⟨[], by decide⟩, .add Blacklist.pathA⟩, ⟨0, ⟨[], by decide⟩, .count⟩] := by
    refine .cons ⟨rfl, ⟨rfl, hpassword⟩, hprobe, rfl⟩ (.cons ⟨rfl, ⟨hadd, hpassword⟩, hprobe, rfl⟩
      (.cons ⟨rfl, ⟨hadd, hpassword⟩, hprobe, rfl⟩ (.cons ⟨rfl, trivial, hprobe, rfl⟩ .nil)))
  rw [(calls_refine_policy sampleSha256 ⟨[], by decide⟩ sampleEncrypt (by decide) _ _ hcarries
    (by decide)).1]
  decide

end StackReferenceMonitor
