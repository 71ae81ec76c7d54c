import StackReferenceMonitor.Foundations.Traced
import StackReferenceMonitor.Verdict.Leftover

/-!
# The message of a denial

An entry handler passes what `get_path_from_dentry` returned to `is_blacklisted` without a test for
`NULL`, and formats its message with `sprintf` into an array of 256 bytes on the stack, with the
whole path in it. So a path that cannot be computed is dereferenced, and the message of a path of
about 200 characters leaves the array.

The ten handlers are one loop over the paths that they look up. This module has that loop with what
it does on the way, and the loop computes what the handlers compute.

## Main definitions

* `ProbeEvent`: a path is looked up, or a message is formatted.
* `ProbedCall.checks`, `runChecks`: the look-ups of each handler, and the loop.

## Main results

* `result_runChecks`: the loop is the entry handler;
* `usableMessage_iff`: when every path that is looked up was computed, and the message fits.
-/

namespace StackReferenceMonitor

open CString (text)
open PathString (render)
open Traced (emit ofOption)

/-! ### The handlers with what they do on the way -/

/-- What an entry handler does. -/
inductive ProbeEvent where
  /-- It calls `is_blacklisted` with this path. -/
  | isBlacklisted (path : Option (List UInt8))
  /-- It formats this text into `error_message`. -/
  | sprintf (message : List UInt8)

/-- A call of `get_path_from_dentry`. -/
structure PathCall where
  /-- What it meets. -/
  env : PathEnv
  /-- Its argument. -/
  dentry : Dentry

/-- What it returns. -/
def PathCall.path (p : PathCall) : Option (List UInt8) :=
  getPathFromDentry p.env p.dentry

/-- A look-up of a handler. -/
structure Check where
  /-- The operation in the message. -/
  what : String
  /-- The path that is looked up. -/
  lookedUp : PathCall
  /-- The path that the message names. -/
  named : PathCall

/-- A look-up whose message names the path that is looked up. -/
def Check.of (what : String) (p : PathCall) : Check :=
  ⟨what, p, p⟩

/-- The look-ups of the entry handler of a call. -/
def ProbedCall.checks (env : HandlerEnv) : ProbedCall → List Check
  | securityFileOpen file =>
    if writeFlags file.flags then [.of "vfs open on file" ⟨env.first, file.dentry⟩] else []
  | securityInodeUnlink dentry => [.of "Unlink on dir" ⟨env.first, dentry⟩]
  | securityInodeLink oldDentry newDentry =>
    [.of "Link on dir" ⟨env.first, oldDentry⟩, .of "Link on dir" ⟨env.second, newDentry⟩]
  | securityInodeSymlink dentry => [.of "Unlink on dir" ⟨env.first, dentry⟩]
  | securityInodeCreate dentry => [.of "Create on file" ⟨env.first, dentry⟩]
  | securityInodeMkdir dentry => [.of "Mkdir on file" ⟨env.first, dentry⟩]
  | securityInodeRename oldDentry newDentry =>
    [.of "Rename on dir" ⟨env.first, oldDentry⟩, .of "Link on dir" ⟨env.second, newDentry⟩]
  | securityInodeRmdir dentry =>
    -- the parent is looked up, and the message names the path itself
    [.of "Rmdir on file" ⟨env.first, dentry⟩,
      ⟨"Rmdir on file", ⟨env.second, dentry.dParent⟩, ⟨env.first, dentry⟩⟩]
  | vfsWrite file => [.of "Write on file" ⟨env.first, file.dentry⟩]
  | vfsLlseek file => [.of "Lseek on file" ⟨env.first, file.dentry⟩]

/-- Looking up one path after the other, until one is blacklisted, with `error_message` of this
size. -/
def runChecks (size : Option ℕ) (rf : ReferenceMonitor) (env : HandlerEnv) :
    List Check → Traced ProbeEvent (ℤ × ProbeData)
  | [] => return (1, none)
  | check :: checks => do
    emit (.isBlacklisted check.lookedUp.path)
    if (← ofOption (isBlacklisted rf check.lookedUp.path)) = 1 then
      let message := messageText check.what check.named.path
      emit (.sprintf message)
      let _ ← ofOption (sprintfInto size message)
      return (0, if env.kstrdup then some message else none)
    else runChecks size rf env checks

section Handlers

variable {size : Option ℕ} {rf : ReferenceMonitor} {env : HandlerEnv}

@[simp]
theorem result_runChecks_nil : (runChecks size rf env []).result = some (1, none) := rfl

@[simp]
theorem result_runChecks_cons (check : Check) (checks : List Check) :
    (runChecks size rf env (check :: checks)).result =
      (isBlacklisted rf check.lookedUp.path).bind fun ret =>
        if ret = 1 then
          (sprintfInto size (messageText check.what check.named.path)).bind fun _ =>
            some (0, errorMessage env check.what check.named.path)
        else (runChecks size rf env checks).result := by
  simp only [runChecks, Traced.result_bind, Traced.result_emit, Traced.result_ofOption,
    Option.bind_some]
  congr 1
  funext ret
  split_ifs <;> simp [errorMessage, *]

/-- The look-ups are those of the entry handler, with its return value and its message. -/
theorem result_runChecks (call : ProbedCall) :
    (runChecks size rf env (call.checks env)).result =
      call.function.entryHandler size rf env call.regs := by
  cases call with
  | securityFileOpen file =>
    by_cases hflags : writeFlags file.flags = true
    · simp [ProbedCall.checks, ProbedFunction.entryHandler, ProbedCall.function, ProbedCall.regs,
        openEntryHandler, Arg.asFile, hflags, pathEntryHandler, Check.of, PathCall.path]
    · simp [ProbedCall.checks, ProbedFunction.entryHandler, ProbedCall.function, ProbedCall.regs,
        openEntryHandler, Arg.asFile, hflags]
  | _ =>
    simp only [ProbedCall.checks, Check.of, PathCall.path, result_runChecks_cons,
      result_runChecks_nil]
    rfl

end Handlers

/-! ### Paths that are there, and messages that fit -/

/-- The path is not `NULL`, and the message, with its terminator, fits in `error_message`. -/
def ProbeEvent.Usable : ProbeEvent → Prop
  | isBlacklisted path => path.isSome
  | sprintf message => message.length + 1 ≤ errorMessageSize

instance : DecidablePred ProbeEvent.Usable
  | .isBlacklisted path => inferInstanceAs (Decidable (path.isSome = true))
  | .sprintf message => inferInstanceAs (Decidable (message.length + 1 ≤ errorMessageSize))

/-- All that the entry handler of a call does is usable. -/
def ProbedCall.UsableMessage (call : ProbedCall) (rf : ReferenceMonitor) (env : HandlerEnv) :
    Prop :=
  ∀ e ∈ (runChecks none rf env (call.checks env)).events, e.Usable

instance (call : ProbedCall) (rf : ReferenceMonitor) (env : HandlerEnv) :
    Decidable (call.UsableMessage rf env) :=
  inferInstanceAs (Decidable (∀ e ∈ _, _))

/-- The allocations succeed, and the path is not too long. -/
structure PathCall.Returns (p : PathCall) : Prop where
  /-- The allocations. -/
  env : p.env.Succeeds
  /-- The length, without the terminator. -/
  length_lt : (render p.dentry).length < pathMax

instance (p : PathCall) : Decidable p.Returns :=
  decidable_of_iff (p.env.Succeeds ∧ (render p.dentry).length < pathMax)
    ⟨fun h => ⟨h.1, h.2⟩, fun h => ⟨h.1, h.2⟩⟩

/-- What the unwritten byte of the buffer adds to the path: nothing if it is a NUL. -/
def PathCall.stray (p : PathCall) : List UInt8 :=
  match p.env.fullPath with
  | none => []
  | some junk =>
    if junk (render p.dentry).length = 0 then [] else [junk (render p.dentry).length]

/-- The string that a path is printed as. -/
def PathCall.string (p : PathCall) : List UInt8 :=
  if p.Returns then render p.dentry ++ p.stray else text "(null)"

theorem PathCall.Returns.path {p : PathCall} (h : p.Returns) :
    ∃ mem, p.path = some mem ∧ CString.chars mem = p.string := by
  obtain ⟨junk, hjunk⟩ := Option.isSome_iff_exists.mp h.env.fullPath
  refine ⟨_, getPathFromDentry_eq h.env.page hjunk h.length_lt, ?_⟩
  rw [chars_render_append, PathCall.string, if_pos h, PathCall.stray, hjunk]

theorem PathCall.path_eq_none {p : PathCall} (h : ¬p.Returns) : p.path = none := by
  by_contra hsome
  obtain ⟨mem, hmem⟩ := Option.ne_none_iff_exists'.mp hsome
  obtain ⟨henv, hlen⟩ := succeeds_of_getPathFromDentry hmem
  exact h ⟨henv, hlen⟩

theorem PathCall.isSome_path_iff (p : PathCall) : p.path.isSome ↔ p.Returns := by
  by_cases h : p.Returns
  · obtain ⟨mem, hmem, -⟩ := h.path
    simp [hmem, h]
  · simp [PathCall.path_eq_none h, h]

theorem PathCall.printfString_path (p : PathCall) : printfString p.path = p.string := by
  by_cases h : p.Returns
  · obtain ⟨mem, hmem, hchars⟩ := h.path
    rw [hmem, printfString, hchars]
  · rw [PathCall.path_eq_none h, printfString, PathCall.string, if_neg h]

/-- An entry of the list covers the string. -/
def Blacklist.CoversString (bl : Blacklist) (s : List UInt8) : Prop :=
  ∃ entry, bl.HasEntry entry ∧ Covers entry s

/-- The text around the path and the path leave room for a terminator. -/
def Check.Fits (check : Check) : Prop :=
  (text (modname ++ ": [ERROR] " ++ check.what ++ " ")).length + check.named.string.length +
    (text " blocked\n").length < errorMessageSize

instance (check : Check) : Decidable check.Fits :=
  inferInstanceAs (Decidable (_ < _))

/-- The look-ups that a handler comes to are of paths that are returned, and the message of the one
that finds an entry fits. -/
def AllUsable (bl : Blacklist) : List Check → Prop
  | [] => True
  | check :: checks =>
    check.lookedUp.Returns ∧
      (bl.CoversString check.lookedUp.string → check.Fits) ∧
      (¬bl.CoversString check.lookedUp.string → AllUsable bl checks)

section Usable

variable {size : Option ℕ} {rf : ReferenceMonitor} {env : HandlerEnv}

/-- The events of the first look-up, and of the others unless it finds an entry. -/
theorem events_runChecks_cons {check : Check} (checks : List Check) {ret : ℤ}
    (hret : isBlacklisted rf check.lookedUp.path = some ret) :
    (runChecks size rf env (check :: checks)).events =
      .isBlacklisted check.lookedUp.path ::
        if ret = 1 then [.sprintf (messageText check.what check.named.path)]
        else (runChecks size rf env checks).events := by
  rw [runChecks, Traced.events_emit_bind, hret,
    Traced.bind_of_result (Traced.result_ofOption _)]
  dsimp only
  by_cases hone : ret = 1
  · rw [if_pos hone, if_pos hone]
    -- the message is formatted before it can leave the array
    cases hsize : sprintfInto size (messageText check.what check.named.path) <;> rfl
  · rw [if_neg hone, if_neg hone]
    rfl

theorem usable_sprintf_iff (check : Check) :
    (ProbeEvent.sprintf (messageText check.what check.named.path)).Usable ↔ check.Fits := by
  rw [ProbeEvent.Usable, messageText, PathCall.printfString_path, List.length_append,
    List.length_append, Nat.add_one_le_iff, Check.Fits]

/-- Induction over the look-ups: one that finds nothing passes on to the next. -/
theorem forall_usable_iff (hrf : rf.Enforcing) (hbl : rf.blacklist.Reachable)
    (checks : List Check) :
    (∀ e ∈ (runChecks size rf env checks).events, e.Usable) ↔ AllUsable rf.blacklist checks := by
  induction checks with
  | nil => exact iff_of_true (by simp [runChecks]) trivial
  | cons check checks ih =>
    by_cases hreturns : check.lookedUp.Returns
    · obtain ⟨mem, hmem, hchars⟩ := hreturns.path
      obtain ⟨hiff, hrange⟩ := isBlacklisted_of_reachable hrf hbl mem
      rw [hchars, ← Blacklist.CoversString] at hiff
      rw [← hmem] at hiff hrange
      have hpath : (ProbeEvent.isBlacklisted check.lookedUp.path).Usable :=
        check.lookedUp.isSome_path_iff.mpr hreturns
      rcases hrange with hone | hzero
      · have hcov := hiff.mp hone
        rw [events_runChecks_cons checks hone, if_pos rfl, AllUsable]
        simp [hpath, hreturns, hcov, usable_sprintf_iff]
      · have hcov : ¬rf.blacklist.CoversString check.lookedUp.string := by
          rw [← hiff, hzero]
          decide
        rw [events_runChecks_cons checks hzero, if_neg (by decide), AllUsable]
        simp [hpath, hreturns, hcov, ih]
    · -- the first event is already the look-up of `NULL`
      refine iff_of_false (fun h => ?_) fun h => hreturns h.1
      refine hreturns (check.lookedUp.isSome_path_iff.mp (h (.isBlacklisted _) ?_))
      rw [runChecks, Traced.events_emit_bind]
      exact List.mem_cons_self

end Usable

/-- With a reachable list, in a state that enforces: an entry handler passes no `NULL` to
`is_blacklisted` and its message fits in `error_message`, if and only if the allocations succeed and
the paths are shorter than `PATH_MAX` for every look-up that it comes to, and the message is short
enough if one of them finds an entry. -/
theorem usableMessage_iff {rf : ReferenceMonitor} (hrf : rf.Enforcing)
    (hbl : rf.blacklist.Reachable) (call : ProbedCall) (env : HandlerEnv) :
    call.UsableMessage rf env ↔ AllUsable rf.blacklist (call.checks env) :=
  forall_usable_iff hrf hbl (call.checks env)

/-- With `/a` on the list, the message of a write to `/a`. -/
theorem usableMessage_write_pathA :
    (ProbedCall.vfsWrite ⟨[nameA], 0⟩).UsableMessage (monitorOf Blacklist.pathA) strayEnv := by
  refine (usableMessage_iff (Or.inl rfl) (Blacklist.listOf_reachable (by decide)) _ strayEnv).mpr ?_
  exact ⟨by decide +kernel, fun _ => by decide +kernel, fun _ => trivial⟩

/-- A name of 200 letters. -/
def longName : Name :=
  ⟨List.replicate 200 120, by decide, by decide, by decide, by decide, by decide⟩

/-- With `/a` on the list: the message of a write to a file below it with such a name leaves the
array, and a path without a page is looked up as `NULL`. -/
theorem message_overruns_array :
    ¬(ProbedCall.vfsWrite ⟨[nameA, longName], 0⟩).UsableMessage (monitorOf Blacklist.pathA)
        strayEnv ∧
      ¬(ProbedCall.vfsWrite ⟨[nameA], 0⟩).UsableMessage (monitorOf Blacklist.pathA)
        { strayEnv with first := ⟨false, none⟩ } := by
  decide +kernel

end StackReferenceMonitor
