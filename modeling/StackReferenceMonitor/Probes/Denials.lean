import StackReferenceMonitor.Log.Defs
import StackReferenceMonitor.Probes.Messages

/-!
# Denials that take place

A call on a covered path is to end with `-EACCES`. Two things come in between. The entry handler
formats its message with `sprintf` into the 256 bytes of `error_message`, and does not return if the
message leaves them. And `ret_handler` calls `write_on_log`, which reads `current->mm` without a
test: a task without one, a kernel thread, is stopped there.

## Main definitions

* `ProbedCall.boundedEntryHandler`: the entry handler with its array.
* `loggingRetHandler`, `ProbedFunction.probe`: `ret_handler` with the log, and the probe with both.
* `ProbedCall.MessageFits`, `Recordable`: the message fits, and `write_on_log` returns.
* `ProbedCall.Denied`: the entry handler returns `0`, and the caller sees `-EACCES`.

## Main results

* `boundedEntryHandler_eq`: the array matters only to a message that does not fit;
* `covered_call_denied_iff`: a mediated call on a covered path is denied exactly when its message
  fits and the calling task can be recorded.
-/

namespace StackReferenceMonitor

open Blacklist
open PathString (render)

/-! ### The probes with what stops them -/

/-- The entry handler of the probe on the function that is called, with its `error_message`. -/
def ProbedCall.boundedEntryHandler (call : ProbedCall) (rf : ReferenceMonitor) (env : HandlerEnv) :
    Option (ℤ × ProbeData) :=
  call.function.entryHandler (some errorMessageSize) rf env call.regs

/-- `ret_handler`, run by `task`. The registers are written before `write_on_log` is called, and the
message is printed and freed, which may be `NULL` for both. -/
def loggingRetHandler (log : WriteOnLogEnv) (task : Task) (data : ProbeData) (regs : PtRegs) :
    Option PtRegs := do
  let regs := retHandler data regs
  let _ ← writeOnLog log task
  return regs

/-- The probe on a function, as `set_kretprobe` leaves it, for a call by `task`. -/
def ProbedFunction.probe (f : ProbedFunction) (rf : ReferenceMonitor) (env : HandlerEnv)
    (log : WriteOnLogEnv) (task : Task) : Kretprobe PtRegs ProbeData where
  entryHandler := f.entryHandler (some errorMessageSize) rf env
  handler := loggingRetHandler log task

/-- The message of the first look-up that finds an entry, if there is one, fits in
`error_message`. -/
def FoundFits (rf : ReferenceMonitor) : List Check → Prop
  | [] => True
  | check :: checks =>
    if isBlacklisted rf check.lookedUp.path = some 1 then check.Fits else FoundFits rf checks

/-- Decides `FoundFits`. -/
def decideFoundFits (rf : ReferenceMonitor) : (checks : List Check) →
    Decidable (FoundFits rf checks)
  | [] => isTrue trivial
  | check :: checks =>
    have := decideFoundFits rf checks
    inferInstanceAs (Decidable
      (if isBlacklisted rf check.lookedUp.path = some 1 then check.Fits else FoundFits rf checks))

instance foundFitsDecidable (rf : ReferenceMonitor) (checks : List Check) :
    Decidable (FoundFits rf checks) :=
  decideFoundFits rf checks

/-- The message of a call, if it is blacklisted, fits. -/
def ProbedCall.MessageFits (call : ProbedCall) (rf : ReferenceMonitor) (env : HandlerEnv) : Prop :=
  FoundFits rf (call.checks env)

instance ProbedCall.messageFitsDecidable (call : ProbedCall) (rf : ReferenceMonitor)
    (env : HandlerEnv) : Decidable (call.MessageFits rf env) :=
  inferInstanceAs (Decidable (FoundFits rf (call.checks env)))

/-- `write_on_log` does not come to an `mm` that is not there. -/
def Recordable (log : WriteOnLogEnv) (task : Task) : Prop :=
  log.logData = true → task.mm.isSome

instance recordableDecidable (log : WriteOnLogEnv) (task : Task) :
    Decidable (Recordable log task) :=
  inferInstanceAs (Decidable (_ → _))

theorem isSome_writeOnLog_iff (log : WriteOnLogEnv) (task : Task) :
    (writeOnLog log task).isSome ↔ Recordable log task := by
  cases hdata : log.logData <;> cases hmm : task.mm <;> simp [writeOnLog, Recordable, hdata, hmm]

section Probe

variable {rf : ReferenceMonitor} {env : HandlerEnv} {log : WriteOnLogEnv} {task : Task}

theorem sprintfInto_errorMessage (check : Check) :
    sprintfInto (some errorMessageSize) (messageText check.what check.named.path) =
      if check.Fits then some (messageText check.what check.named.path) else none := by
  rw [sprintfInto, sprintfWithin]
  exact if_congr (usable_sprintf_iff check) rfl rfl

/-- The array matters only to the message of the look-up that finds an entry. -/
theorem result_runChecks_bounded (checks : List Check) :
    (runChecks (some errorMessageSize) rf env checks).result =
      if FoundFits rf checks then (runChecks none rf env checks).result else none := by
  induction checks with
  | nil => rfl
  | cons check checks ih =>
    simp only [result_runChecks_cons, sprintfInto_errorMessage, FoundFits]
    cases hret : isBlacklisted rf check.lookedUp.path with
    | none => simp
    | some ret =>
      -- `sprintf` runs only when an entry was found
      by_cases hone : ret = 1
      · by_cases hfits : check.Fits <;> simp [hone, hfits, sprintfInto]
      · simp [hone, ih]

/-- The entry handler with its array is the one without, unless the message does not fit. -/
theorem boundedEntryHandler_eq (call : ProbedCall) :
    call.boundedEntryHandler rf env =
      if call.MessageFits rf env then call.entryHandler rf env else none := by
  rw [ProbedCall.boundedEntryHandler, ← result_runChecks, result_runChecks_bounded,
    result_runChecks]
  rfl

/-- A mediated call with a blacklisted path is answered with `0` exactly if the message fits. -/
theorem boundedEntryHandler_zero_iff {call : ProbedCall} (hcall : call.mediated = true)
    (h : anyBlacklisted rf (call.paths env) = some true) :
    (∃ data, call.boundedEntryHandler rf env = some (0, data)) ↔ call.MessageFits rf env := by
  rw [boundedEntryHandler_eq]
  by_cases hfits : call.MessageFits rf env
  · rw [if_pos hfits]
    exact iff_of_true (entryHandler_of_anyBlacklisted hcall h) hfits
  · rw [if_neg hfits]
    exact iff_of_false (by simp) hfits

/-- `ret_handler` returns exactly if the task can be recorded. -/
theorem isSome_loggingRetHandler_iff (data : ProbeData) (regs : PtRegs) :
    (loggingRetHandler log task data regs).isSome ↔ Recordable log task := by
  rw [← isSome_writeOnLog_iff]
  cases hlog : writeOnLog log task <;> simp [loggingRetHandler, hlog]

/-- And then it has written the error. -/
theorem ax_of_loggingRetHandler {data : ProbeData} {regs regs' : PtRegs}
    (h : loggingRetHandler log task data regs = some regs') : regs'.ax = -EACCES := by
  simp only [loggingRetHandler, Option.bind_eq_bind, Option.bind_eq_some_iff] at h
  obtain ⟨_, -, heq⟩ := h
  rw [← Option.some.inj heq]
  rfl

end Probe

/-! ### Calls on covered paths -/

/-- The entry handler returns `0`, and whatever the probed function does, its caller sees
`-EACCES`. -/
def ProbedCall.Denied (call : ProbedCall) (rf : ReferenceMonitor) (env : HandlerEnv)
    (log : WriteOnLogEnv) (task : Task) : Prop :=
  (∃ data, call.boundedEntryHandler rf env = some (0, data)) ∧
    ∀ (σ : Type) (body : σ → PtRegs × σ) (s : σ), ∃ regs s',
      (call.function.probe rf env log task).call call.regs body s = some (regs, s') ∧
        regs.ax = -EACCES

/-- A call that is answered with `0` is denied exactly if its task can be recorded. -/
theorem denied_iff {rf : ReferenceMonitor} {env : HandlerEnv} {log : WriteOnLogEnv} {task : Task}
    {call : ProbedCall} :
    call.Denied rf env log task ↔
      (∃ data, call.boundedEntryHandler rf env = some (0, data)) ∧ Recordable log task := by
  refine and_congr_right fun ⟨data, hentry⟩ => ?_
  have hcall : ∀ (σ : Type) (body : σ → PtRegs × σ) (s : σ),
      (call.function.probe rf env log task).call call.regs body s =
        (loggingRetHandler log task data (body s).1).map fun regs => (regs, (body s).2) :=
    fun σ body s => Kretprobe.call_of_zero hentry body s
  constructor
  · intro h
    -- of any body
    obtain ⟨regs, s', hreturns, -⟩ := h Unit (fun s => (call.regs, s)) ()
    rw [hcall] at hreturns
    refine (isSome_loggingRetHandler_iff data call.regs).mp ?_
    exact Option.isSome_map.symm.trans (by rw [hreturns]; rfl)
  · intro hlog σ body s
    obtain ⟨regs, hregs⟩ :=
      Option.isSome_iff_exists.mp ((isSome_loggingRetHandler_iff data (body s).1).mpr hlog)
    exact ⟨regs, (body s).2, by rw [hcall, hregs]; rfl, ax_of_loggingRetHandler hregs⟩

/-- In ON or REC_ON, with any reachable list: let the allocations and `dentry_path_raw` of a
mediated call succeed, and let one of its operands have a path that equals an entry, less at most
one trailing slash, or lies below it. Then the entry handler returns `0` and the caller sees
`-EACCES`, if and only if the message fits in `error_message`, and the calling task has an `mm` (or
`write_on_log` has no memory and gives up before it looks). -/
theorem covered_call_denied_iff {rf : ReferenceMonitor} (hrf : rf.Enforcing)
    (hlist : Reachable rf.blacklist) {env : HandlerEnv} (henv : env.Succeeds) {call : ProbedCall}
    (hcall : call.mediated = true)
    (hraw : ∀ dentry ∈ call.operands, (dentryPathRaw dentry pathMax).isSome)
    (hcov : call.Covered rf.blacklist) (log : WriteOnLogEnv) (task : Task) :
    call.Denied rf env log task ↔ call.MessageFits rf env ∧ Recordable log task := by
  have hfound := anyBlacklisted_of_covered hrf hlist henv hraw hcov
  rw [denied_iff, boundedEntryHandler_zero_iff hcall hfound]

/-- A user task that runs `/b`. -/
def sampleUser : Task :=
  { pid := 2, tgid := 2, uid := 1000, euid := 1000, mm := some [nameB] }

/-- `write_on_log` with all allocations. -/
def sampleLogEnv : WriteOnLogEnv :=
  { logData := true, path := ⟨true, some fun _ => 0⟩, kstrdup := true, defWork := true }

/-- A path at or below `/a`. -/
theorem covered_of_pathA {call : ProbedCall} (below : Dentry)
    (h : nameA :: below ∈ call.operands) : call.Covered (monitorOf pathA).blacklist := by
  refine ⟨_, h, pathA, ⟨_, listOf_lists pathA, by simp⟩, pathA.bytes, Or.inl rfl, ?_⟩
  cases below with
  | nil => exact Or.inl rfl
  | cons name below => exact Or.inr ⟨_, rfl⟩

/-- With `/a` on the list, `/b` cannot be renamed to `/a/b`. -/
theorem covered_call_denied_iff_rename_into_pathA :
    (ProbedCall.securityInodeRename [nameB] [nameA, nameB]).Denied (monitorOf pathA) strayEnv
      sampleLogEnv sampleUser := by
  have henv : strayEnv.Succeeds := ⟨⟨rfl, rfl⟩, ⟨rfl, rfl⟩⟩
  have hcov : (ProbedCall.securityInodeRename [nameB] [nameA, nameB]).Covered
      (monitorOf pathA).blacklist := covered_of_pathA [nameB] (by decide)
  refine (covered_call_denied_iff (Or.inl rfl) (listOf_reachable (by decide)) henv rfl (by decide)
    hcov sampleLogEnv sampleUser).mpr ⟨by decide +kernel, by decide⟩

/-- With `/a` on the list: a write to a file below it with a name of 200 letters is not denied, and
neither is one to `/a` by a kernel thread. -/
theorem covered_call_not_denied :
    ((ProbedCall.vfsWrite ⟨[nameA, longName], 0⟩).Covered (monitorOf pathA).blacklist ∧
        ¬(ProbedCall.vfsWrite ⟨[nameA, longName], 0⟩).Denied (monitorOf pathA) strayEnv sampleLogEnv
          sampleUser) ∧
      (ProbedCall.vfsWrite ⟨[nameA], 0⟩).Covered (monitorOf pathA).blacklist ∧
        ¬(ProbedCall.vfsWrite ⟨[nameA], 0⟩).Denied (monitorOf pathA) strayEnv sampleLogEnv
          { sampleUser with mm := none } := by
  refine ⟨⟨covered_of_pathA [longName] List.mem_cons_self, ?_⟩,
    covered_of_pathA [] List.mem_cons_self, ?_⟩
  · rintro ⟨⟨data, hentry⟩, -⟩
    have hnone : (ProbedCall.vfsWrite ⟨[nameA, longName], 0⟩).boundedEntryHandler (monitorOf pathA)
        strayEnv = none := by
      rw [boundedEntryHandler_eq, if_neg (by decide +kernel)]
    simp [hnone] at hentry
  · intro h
    exact absurd (denied_iff.mp h).2 (by decide)

end StackReferenceMonitor
