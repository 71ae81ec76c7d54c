import Mathlib.Logic.Relation
import StackReferenceMonitor.Syscalls.Steps

/-!
# The system calls, one at a time

Each system call of `stack_reference_monitor.c` as one function, from the call to its return, for a
caller that no other thread comes in between. Unlike the steps of `Syscalls.Defs`, these functions
also say what happens when `kretprobe_init` has failed: `kprobe_array` may be `NULL`, and the probes
in it may not be registered.

A call that faults returns nothing. What it has written by then stays written.

## Main definitions

* `KprobeArray`, `enableKprobes`, `disableKprobes`: the loops over the probes.
* `sysSwitchRfState`, `sysGetRfState`, `sysAddToBlacklist`, `sysRemoveFromBlacklist`,
  `sysGetBlacklistSize`: the calls.
* `Syscall.run`, `Invocation.run`: a call with its arguments, and with its caller.

## Main results

* `checked_elim`: the three checks of a call that changes something, said once;
* `setKprobes_apply`: what the loops leave of each probe;
* `run_reached`: with registered probes, the steps of a thread that runs alone lead to what
  `Syscall.run` returns.
-/

namespace StackReferenceMonitor

/-! ### The loops over the probes -/

/-- `kprobe_array`: `NULL`, or for each of its probes whether it is registered. -/
abbrev KprobeArray := Option (Fin numKretprobes → Bool)

/-- One round of the loop. A probe that is not registered is neither enabled nor disabled, and of
the value that the kernel returns only `-1` is looked at, to print a line. -/
def setKprobe (registered succeeds : Fin numKretprobes → Bool) (enabled : Bool)
    (probes : Fin numKretprobes → Bool) (i : Fin numKretprobes) : Fin numKretprobes → Bool :=
  if registered i && succeeds i then Function.update probes i enabled else probes

/-- The loop over `kprobe_array`. `NULL` is dereferenced in its first round. -/
def setKprobes (array : KprobeArray) (succeeds : Fin numKretprobes → Bool) (enabled : Bool)
    (probes : Fin numKretprobes → Bool) : Option (Fin numKretprobes → Bool) :=
  array.map fun registered =>
    (List.finRange numKretprobes).foldl (setKprobe registered succeeds enabled) probes

/-- `enable_kprobes`. That the array is `NULL` is printed, and then it is dereferenced. -/
def enableKprobes (array : KprobeArray) (succeeds probes : Fin numKretprobes → Bool) :
    Option (Fin numKretprobes → Bool) :=
  setKprobes array succeeds true probes

/-- `disable_kprobes`. -/
def disableKprobes (array : KprobeArray) (succeeds probes : Fin numKretprobes → Bool) :
    Option (Fin numKretprobes → Bool) :=
  setKprobes array succeeds false probes

/-! ### The calls -/

/-- What one system call may meet. -/
structure CallEnv where
  /-- What `password_check` meets. -/
  password : PasswordEnv
  /-- What `add_to_blacklist` meets. -/
  add : Blacklist.AddEnv
  /-- What `remove_from_blacklist` meets. -/
  remove : Blacklist.RemoveEnv
  /-- What `sys_print_blacklist` meets. -/
  print : PrintEnv
  /-- Whether `enable_kretprobe` or `disable_kretprobe` of each probe succeeds. -/
  probe : Fin numKretprobes → Bool
  /-- Whether `kmalloc` of `state_string` succeeds. -/
  stateString : Bool

section Calls

variable (sha256 : List UInt8 → Vector UInt8 32) (array : KprobeArray) (env : CallEnv) (euid : ℕ)
  (s : Shared)

/-- The checks of a call that changes something, the first of which has the value `first`, and what
comes after them. -/
def checked (first : ℤ) (password : ℕ) (body : Option ℤ × Shared) : Option ℤ × Shared :=
  if first ≠ 0 then (some first, s)
  else
    match passwordCheck sha256 env.password password s.rf with
    | none => (none, s)
    | some ret =>
      if ret ≠ 0 then (some ret, s)
      else if euidCheck euid ≠ 0 then (some (euidCheck euid), s)
      else body

/-- `sys_switch_rf_state`. The string for the audit is allocated after all is done. -/
def sysSwitchRfState (state : ℤ) (password : ℕ) : Option ℤ × Shared :=
  checked sha256 env euid s (rfStateCheck state) password <|
    let rf := { s.rf with state }
    -- the lock is given back before the loops
    let probes :=
      if state = 0 ∨ state = 2 then enableKprobes array env.probe s.probes
      else disableKprobes array env.probe s.probes
    match probes with
    -- `kprobe_array` is `NULL`: the state is written, and the call never returns
    | none => (none, { s with rf })
    | some probes => (some (if env.stateString then rf.state else -ENOMEM), { rf, probes })

/-- `sys_get_rf_state`. -/
def sysGetRfState : Option ℤ × Shared :=
  (some (if env.stateString then s.rf.state else -ENOMEM), s)

/-- `sys_add_to_blacklist`. -/
def sysAddToBlacklist (path password : ℕ) : Option ℤ × Shared :=
  checked sha256 env euid s (isRfRec s.rf) password <|
    match Blacklist.addToBlacklist env.add path s.rf.blacklist with
    | none => (none, s)
    | some (ret, blacklist) => (some ret, { s with rf := { s.rf with blacklist } })

/-- `sys_remove_from_blacklist`. A path that is not found is `1`. -/
def sysRemoveFromBlacklist (path password : ℕ) : Option ℤ × Shared :=
  checked sha256 env euid s (isRfRec s.rf) password <|
    match Blacklist.removeFromBlacklist env.remove path s.rf.blacklist with
    | none => (none, s)
    | some (ret, blacklist) =>
      (some (if ret = -EINVAL then 1 else ret), { s with rf := { s.rf with blacklist } })

/-- `sys_get_blacklist_size`. -/
def sysGetBlacklistSize : Option ℤ × Shared :=
  (some s.rf.blacklist.size, s)

/-- A system call, by a caller with the effective user id `euid`: what it returns, if it does, and
what it leaves. -/
def Syscall.run : Syscall → Option ℤ × Shared
  | .switchRfState state password => sysSwitchRfState sha256 array env euid s state password
  | .getRfState => sysGetRfState env s
  | .addToBlacklist path password => sysAddToBlacklist sha256 env euid s path password
  | .removeFromBlacklist path password => sysRemoveFromBlacklist sha256 env euid s path password
  | .printBlacklist _ blacklistSize =>
    ((sysPrintBlacklist env.print s.rf.blacklist blacklistSize).map Prod.fst, s)
  | .getBlacklistSize => sysGetBlacklistSize s

end Calls

/-- A call that is made, with its caller and what it meets. -/
structure Invocation where
  /-- The effective user id of the caller. -/
  euid : ℕ
  /-- The call and its arguments. -/
  call : Syscall
  /-- The outcomes of allocations and copies. -/
  env : CallEnv

/-- The whole call. -/
def Invocation.run (sha256 : List UInt8 → Vector UInt8 32) (array : KprobeArray) (s : Shared)
    (c : Invocation) : Option ℤ × Shared :=
  c.call.run sha256 array c.env c.euid s

/-! ### What the loops leave -/

section Probes

variable {registered succeeds probes : Fin numKretprobes → Bool} {enabled : Bool}

/-- The loop over the probes `is` sets those of them that are registered and for which the kernel's
function succeeds. -/
theorem foldl_setKprobe_apply (is : List (Fin numKretprobes)) (i : Fin numKretprobes) :
    is.foldl (setKprobe registered succeeds enabled) probes i =
      if i ∈ is ∧ registered i ∧ succeeds i then enabled else probes i := by
  induction is generalizing probes with
  | nil => simp
  | cons j is ih =>
    rw [List.foldl_cons, ih]
    by_cases hi : i ∈ is ∧ registered i ∧ succeeds i
    · have hcons : i ∈ j :: is ∧ registered i ∧ succeeds i := ⟨List.mem_cons_of_mem j hi.1, hi.2⟩
      rw [if_pos hi, if_pos hcons]
    · rw [if_neg hi]
      -- no later round sets the probe: this one does, or none
      by_cases hij : i = j
      · subst hij
        by_cases hok : registered i ∧ succeeds i
        · simp [setKprobe, hok]
        · have hok' : ¬(registered i && succeeds i) := by simpa using hok
          rw [setKprobe, if_neg hok', if_neg fun h => hok h.2]
      · have hmem : i ∈ j :: is ↔ i ∈ is := by simp [hij]
        simp only [hmem, hi, if_false, setKprobe]
        split_ifs
        · exact Function.update_of_ne hij enabled probes
        · rfl

/-- A whole loop over the array. -/
theorem setKprobes_apply {probes' : Fin numKretprobes → Bool}
    (h : setKprobes (some registered) succeeds enabled probes = some probes')
    (i : Fin numKretprobes) :
    probes' i = if registered i ∧ succeeds i then enabled else probes i := by
  obtain rfl := Option.some.inj h
  show (List.finRange numKretprobes).foldl (setKprobe registered succeeds enabled) probes i = _
  rw [foldl_setKprobe_apply]
  simp

/-- The two branches of a switch are one loop. -/
theorem enable_or_disable (array : KprobeArray) (state : ℤ) :
    (if state = 0 ∨ state = 2 then enableKprobes array succeeds probes
      else disableKprobes array succeeds probes) =
      setKprobes array succeeds (arms state) probes := by
  unfold enableKprobes disableKprobes arms
  split_ifs with h <;> simp [h]

end Probes

/-! ### The checks -/

section Checks

variable {sha256 : List UInt8 → Vector UInt8 32} {env : CallEnv} {euid : ℕ} {s : Shared}

/-- What holds of every failure of a check, which changes nothing and gives a negative value or a
fault, and holds of what comes after the checks once all three have passed, holds of the call. -/
theorem checked_elim {P : Option ℤ × Shared → Prop} {first : ℤ} {password : ℕ}
    {body : Option ℤ × Shared} (hfirst : first ≤ 0)
    (hfails : ∀ value, (∀ ret, value = some ret → ret < 0) → P (value, s))
    (hbody : first = 0 → passwordCheck sha256 env.password password s.rf = some 0 → euid = 0 →
      P body) :
    P (checked sha256 env euid s first password body) := by
  have hneg : ∀ ret : ℤ, ret < 0 → P (some ret, s) := by
    intro ret hret
    refine hfails _ fun ret' heq => ?_
    rwa [← Option.some.inj heq]
  unfold checked
  by_cases hzero : first = 0
  · rw [if_neg (not_not.mpr hzero)]
    cases hcheck : passwordCheck sha256 env.password password s.rf with
    | none => exact hfails none fun ret h => absurd h (by simp)
    | some ret =>
      dsimp only
      split_ifs with hret hroot
      · exact hneg ret (lt_of_le_of_ne (passwordCheck_nonpos hcheck) hret)
      · -- the only error of `euid_check`
        have hvalue : euidCheck euid = -EPERM := if_pos (mt (euidCheck_eq_zero_iff euid).mpr hroot)
        rw [hvalue]
        exact hneg _ (by decide)
      · rw [not_not] at hret hroot
        subst hret
        exact hbody hzero hcheck ((euidCheck_eq_zero_iff euid).mp hroot)
  · rw [if_pos hzero]
    exact hneg first (lt_of_le_of_ne hfirst hzero)

/-- When the checks pass, the call goes on. -/
theorem checked_eq_body {first : ℤ} {password : ℕ} (body : Option ℤ × Shared) (hfirst : first = 0)
    (hpassword : passwordCheck sha256 env.password password s.rf = some 0) (hroot : euid = 0) :
    checked sha256 env euid s first password body = body := by
  simp [checked, hfirst, hpassword, hroot, euidCheck]

/-- A switch past its checks. -/
theorem sysSwitchRfState_eq (registered : Fin numKretprobes → Bool) {state : ℤ} {password : ℕ}
    (hstate : 0 ≤ state ∧ state ≤ 3)
    (hpassword : passwordCheck sha256 env.password password s.rf = some 0) :
    ∃ probes, setKprobes (some registered) env.probe (arms state) s.probes = some probes ∧
      sysSwitchRfState sha256 (some registered) env 0 s state password =
        (some (if env.stateString then state else -ENOMEM), ⟨{ s.rf with state }, probes⟩) := by
  refine ⟨_, rfl, ?_⟩
  unfold sysSwitchRfState
  rw [checked_eq_body _ ((rfStateCheck_eq_zero_iff state).mpr hstate) hpassword rfl,
    enable_or_disable]
  rfl

/-- A switch that returns no error has passed its checks, has gone through the loop, has had memory
for the string, and returns the state it was asked for. -/
theorem sysSwitchRfState_returned {array : KprobeArray} {state ret : ℤ} {password : ℕ}
    (h : (sysSwitchRfState sha256 array env euid s state password).1 = some ret) (hret : 0 ≤ ret) :
    passwordCheck sha256 env.password password s.rf = some 0 ∧ euid = 0 ∧
      env.stateString = true ∧ array ≠ none ∧ state = ret := by
  revert h
  refine checked_elim (P := fun result => result.1 = some ret → _) (rfStateCheck_nonpos state) ?_ ?_
  · intro value hneg h
    exact absurd (hneg ret h) (by omega)
  · intro _ hpassword hroot h
    rw [enable_or_disable] at h
    cases array with
    | none => exact absurd h (by simp [setKprobes])
    | some registered =>
      have hvalue : (if env.stateString then state else -ENOMEM) = ret := Option.some.inj h
      split_ifs at hvalue with hstring
      · exact ⟨hpassword, hroot, hstring, by simp, hvalue⟩
      · exact absurd hret (by rw [← hvalue]; decide)

end Checks

/-! ### The calls and their steps -/

/-- What the next step of the thread meets, in a call that meets `env`. -/
def CallEnv.stepEnv (env : CallEnv) (thread : Thread) : StepEnv where
  password := env.password
  add := env.add
  remove := env.remove
  print := env.print
  probe := match thread with
    | .running _ _ (.probing i) => env.probe i
    | _ => true
  stateString := env.stateString

/-- The thread after a call that has returned `ret`, or has not returned. -/
def Thread.ofReturn : Option ℤ → Thread
  | none => .oops
  | some ret => .returned ret

section Steps

variable (sha256 : List UInt8 → Vector UInt8 32) (env : CallEnv)

/-- One step of a thread that no other comes in between. -/
def AloneStep (c c' : Shared × Thread) : Prop :=
  advance sha256 (env.stepEnv c.2) c.1 c.2 = c'

/-- The steps lead from a thread in a call to its end: what it returns and what it leaves are
`result`. -/
def Ends (s : Shared) (thread : Thread) (result : Option ℤ × Shared) : Prop :=
  Relation.ReflTransGen (AloneStep sha256 env) (s, thread) (result.2, .ofReturn result.1)

variable {sha256 env} {euid : ℕ} {s : Shared} {thread : Thread} {result : Option ℤ × Shared}

/-- The first of the steps. -/
theorem Ends.head {s' : Shared} {thread' : Thread}
    (hstep : advance sha256 (env.stepEnv thread) s thread = (s', thread'))
    (h : Ends sha256 env s' thread' result) : Ends sha256 env s thread result :=
  Relation.ReflTransGen.head hstep h

/-- The last of them. -/
theorem Ends.of_step
    (h : advance sha256 (env.stepEnv thread) s thread = (result.2, .ofReturn result.1)) :
    Ends sha256 env s thread result :=
  Relation.ReflTransGen.single h

/-- The steps through the three checks. -/
theorem ends_checked {call : Syscall} {first : ℤ} {password : ℕ} {body : Option ℤ × Shared}
    (hfirst : ∀ stepEnv, firstStep stepEnv s euid call =
      .check first (.running euid call (.stateChecked s.rf.state)))
    (hpassword : call.password = some password)
    (hbody : ∀ e, Ends sha256 env s (.running euid call (.authorised e)) body) :
    Ends sha256 env s (.running euid call .called)
      (checked sha256 env euid s first password body) := by
  -- the first two steps, whatever the checks say
  have hcalled : advance sha256 (env.stepEnv (.running euid call .called)) s
      (.running euid call .called) =
        (s, .check first (.running euid call (.stateChecked s.rf.state))) :=
    congrArg (Prod.mk s) (hfirst _)
  have hchecked : advance sha256 (env.stepEnv (.running euid call (.stateChecked s.rf.state))) s
      (.running euid call (.stateChecked s.rf.state)) =
        (s, match passwordCheck sha256 env.password password s.rf with
          | none => .oops
          | some ret => .check ret (.running euid call
              (.passwordChecked ⟨s.rf.state, env.password.copied password⟩))) := by
    simp only [advance, passwordStep, hpassword]
    rfl
  unfold checked
  by_cases hzero : first = 0
  · rw [if_neg (not_not.mpr hzero)]
    rw [Thread.check, if_neg (not_not.mpr hzero)] at hcalled
    refine .head hcalled ?_
    cases hcheck : passwordCheck sha256 env.password password s.rf with
    | none =>
      rw [hcheck] at hchecked
      exact .of_step hchecked
    | some ret =>
      rw [hcheck] at hchecked
      by_cases hret : ret = 0
      · subst hret
        refine .head hchecked ?_
        by_cases hroot : euidCheck euid = 0
        · have hauthorised : advance sha256 (env.stepEnv (.running euid call (.passwordChecked
              ⟨s.rf.state, env.password.copied password⟩))) s (.running euid call
              (.passwordChecked ⟨s.rf.state, env.password.copied password⟩)) =
              (s, .running euid call (.authorised ⟨s.rf.state, env.password.copied password⟩)) := by
            simp [advance, Thread.check, hroot]
          simp only [hroot, ne_eq, not_true_eq_false, if_false]
          exact .head hauthorised (hbody _)
        · refine .of_step ?_
          simp [advance, Thread.check, hroot, Thread.ofReturn]
      · refine .of_step (hchecked.trans ?_)
        simp [Thread.check, hret, Thread.ofReturn]
  · refine .of_step (hcalled.trans ?_)
    simp [Thread.check, hzero, Thread.ofReturn]

/-- The last step of a switch, and the only one of `sys_get_rf_state`. -/
theorem returnState_stepEnv (thread : Thread) (rf : ReferenceMonitor) :
    returnState (env.stepEnv thread) rf =
      .ofReturn (some (if env.stateString then rf.state else -ENOMEM)) := by
  show (if env.stateString then Thread.returned rf.state else .returned (-ENOMEM)) = _
  split_ifs <;> rfl

/-- The steps of the loop over the probes, from the probe `k` on. -/
theorem ends_probing {state : ℤ} {password : ℕ} {rf : ReferenceMonitor} (ret : Option ℤ)
    (hend : ∀ probes, Ends sha256 env ⟨rf, probes⟩
      (.running euid (.switchRfState state password) .probed) (ret, ⟨rf, probes⟩))
    (n : ℕ) {k : ℕ} (hk : k < numKretprobes) (hn : numKretprobes - k = n)
    (probes : Fin numKretprobes → Bool) :
    Ends sha256 env ⟨rf, probes⟩ (.running euid (.switchRfState state password) (.probing ⟨k, hk⟩))
      (ret, ⟨rf, ((List.finRange numKretprobes).drop k).foldl
        (setKprobe (fun _ => true) env.probe (arms state)) probes⟩) := by
  -- on the number of probes that are left
  induction n generalizing k probes with
  | zero => omega
  | succ n ih =>
    have hlen : k < (List.finRange numKretprobes).length := by simpa using hk
    have hround : advance sha256 (env.stepEnv (.running euid (.switchRfState state password)
          (.probing ⟨k, hk⟩))) ⟨rf, probes⟩
          (.running euid (.switchRfState state password) (.probing ⟨k, hk⟩)) =
        (⟨rf, setKprobe (fun _ => true) env.probe (arms state) probes ⟨k, hk⟩⟩,
          .running euid (.switchRfState state password) (nextProbe ⟨k, hk⟩)) := by
      rw [setKprobe, Bool.true_and]
      rfl
    rw [List.drop_eq_getElem_cons hlen, List.foldl_cons, List.getElem_finRange]
    refine .head hround ?_
    unfold nextProbe
    by_cases hnext : k + 1 < numKretprobes
    · rw [dif_pos hnext]
      exact ih hnext (by omega) _
    · -- that was the last round
      have hdrop : (List.finRange numKretprobes).drop (k + 1) = [] := by
        rw [List.drop_eq_nil_iff, List.length_finRange]
        omega
      rw [dif_neg hnext, hdrop]
      exact hend _

/-- A thread that runs alone, on a machine whose probes are registered, comes to the end of its call
with what `Syscall.run` says. -/
theorem run_reached (sha256 : List UInt8 → Vector UInt8 32) (env : CallEnv) (euid : ℕ) (s : Shared)
    (call : Syscall) :
    Ends sha256 env s (.running euid call .called)
      (call.run sha256 (some fun _ => true) env euid s) := by
  cases call with
  | switchRfState state password =>
    refine ends_checked (fun _ => rfl) rfl fun e => ?_
    rw [enable_or_disable]
    -- the write of the state, the loop, and the string for the audit
    have hlocked : advance sha256 (env.stepEnv (.running euid (.switchRfState state password)
          (.authorised e))) s (.running euid (.switchRfState state password) (.authorised e)) =
        (⟨{ s.rf with state }, s.probes⟩,
          .running euid (.switchRfState state password) (.probing ⟨0, by decide⟩)) := rfl
    refine .head hlocked ?_
    refine ends_probing (some (if env.stateString then state else -ENOMEM))
      (fun probes => .of_step ?_) _ _ rfl _
    exact congrArg (Prod.mk _) (returnState_stepEnv _ _)
  | addToBlacklist path password =>
    refine ends_checked (fun _ => rfl) rfl fun e => .of_step ?_
    simp only [advance, lockedStep, CallEnv.stepEnv]
    cases Blacklist.addToBlacklist env.add path s.rf.blacklist <;> rfl
  | removeFromBlacklist path password =>
    refine ends_checked (fun _ => rfl) rfl fun e => .of_step ?_
    simp only [advance, lockedStep, CallEnv.stepEnv]
    cases Blacklist.removeFromBlacklist env.remove path s.rf.blacklist <;> rfl
  | getRfState => exact .of_step (congrArg (Prod.mk s) (returnState_stepEnv _ _))
  | printBlacklist buf size =>
    refine .of_step ?_
    simp only [advance, firstStep, Syscall.run, CallEnv.stepEnv]
    cases sysPrintBlacklist env.print s.rf.blacklist size <;> rfl
  | getBlacklistSize => exact .of_step rfl

end Steps

/-! ### A call for examples -/

/-- What a call of the caller of `sampleEnv` meets: all allocations succeed. -/
def sampleCallEnv : CallEnv where
  password := sampleEnv.password
  add := sampleEnv.add
  remove := sampleEnv.remove
  print := sampleEnv.print
  probe := fun _ => true
  stateString := true

end StackReferenceMonitor
