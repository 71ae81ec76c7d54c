import Mathlib.Algebra.BigOperators.Group.List.Basic
import StackReferenceMonitor.LogFs.Mount
import StackReferenceMonitor.Memory.Ledger

/-!
# The heap over whole runs

System calls, probed calls with their return handlers, and workers that write the log, in any order
and with any outcome of each allocation and copy. The heap starts with the blocks that the list and
the deferred records consist of.

No block is freed twice. The only errors are the two pointers that do not come from an allocation:
the digest that `encrypt_password` frees before it is set, and the literal that
`sys_print_blacklist` frees. Without them, what is allocated after a run is known exactly: the list,
the records that are still deferred, and the sum of what the actions have lost on the way.

## Main definitions

* `MemoryState`, `MemoryAction`, `MemoryState.step`: the runs, with their heap operations.
* `MemoryState.held`: the blocks that are still in use.
* `MemoryAction.lost`, `MemoryAction.Sound`: what an action loses, and that it frees only blocks.

## Main results

* `moves_step`: one action;
* `frees_only_blocks_iff`, `heap_after_run`: whole runs.
-/

namespace StackReferenceMonitor

open HeapOp (Moves Costs settle)

/-- The monitor, the records whose writing is deferred, and the log file system. -/
structure MemoryState where
  /-- The monitor and its probes. -/
  shared : Shared
  /-- The deferred records. -/
  queue : List LogData
  /-- The log file system. -/
  fs : LogFs.Fs

/-- What happens. -/
inductive MemoryAction where
  /-- A system call. -/
  | call (c : Invocation)
  /-- A task calls a probed function whose probe is enabled. -/
  | probe (task : Task) (probed : ProbedCall) (handler : HandlerEnv) (log : WriteOnLogEnv)
  /-- A worker takes a record. -/
  | work (i : ℕ) (mounted : Bool) (env : WorkEnv)

section Machine

variable (sha256 : List UInt8 → Vector UInt8 32) (array : KprobeArray)

/-- One action: its heap operations, and the state after it. -/
def MemoryState.step (s : MemoryState) : MemoryAction → List (HeapOp Pointer) × MemoryState
  | .call c =>
    ((c.call.heap sha256 array c.env c.euid s.shared).events,
      { s with shared := (c.run sha256 array s.shared).2 })
  | .probe task probed handler log =>
    let run := probedCallHeap s.shared.rf handler log task probed
    (run.events, { s with queue := s.queue ++ run.result.join.toList })
  | .work i mounted env =>
    match s.queue[i]? with
    | none => ([], s)
    | some data =>
      let run := deferredWorkHeap sha256 s.shared.rf mounted env data s.fs
      (run.events,
        { s with
          queue := s.queue.eraseIdx i ++ (run.result.bind Prod.fst).toList
          fs := (run.result.map Prod.snd).getD s.fs })

/-- The blocks that the list and the deferred records consist of. -/
def MemoryState.held (s : MemoryState) : Multiset Pointer :=
  s.shared.rf.blacklist.blocks + (s.queue.map LogData.deferred).sum

/-- What an action loses. -/
def MemoryAction.lost (s : MemoryState) : MemoryAction → Multiset Pointer
  | .call c => c.call.lost sha256 array c.env c.euid s.shared
  | .probe task probed handler log => probed.deniedLost s.shared.rf handler log task
  | .work i mounted env =>
    match s.queue[i]? with
    | none => 0
    | some data => deferredLost sha256 s.shared.rf mounted env data s.fs

/-- An action frees only what came from an allocation. -/
def MemoryAction.Sound (s : MemoryState) : MemoryAction → Prop
  | .call c => c.call.Sound c.env s.shared
  | .probe _ _ _ _ => True
  | .work i _ env => i < s.queue.length → env.encrypt.Sound

variable {sha256 array}

theorem result_retHandlerHeap (env : WriteOnLogEnv) (task : Task) (message : ProbeData) :
    (retHandlerHeap env task message).result = writeOnLog env task := by
  simp only [retHandlerHeap, Traced.result_bind, result_writeOnLogHeap]
  cases writeOnLog env task with
  | none => rfl
  | some record => cases message <;> simp

theorem result_probedCallHeap (rf : ReferenceMonitor) (handler : HandlerEnv) (log : WriteOnLogEnv)
    (task : Task) (call : ProbedCall) :
    (probedCallHeap rf handler log task call).result = call.record rf handler log task := by
  simp only [probedCallHeap, ProbedCall.record, Traced.result_bind,
    ProbedCall.result_entryHandlerHeap]
  cases call.boundedEntryHandler rf handler with
  | none => rfl
  | some verdict =>
    simp only [Option.bind_some]
    split_ifs
    · exact result_retHandlerHeap log task verdict.2
    · rfl

/-- A worker defers no record: it has no `mm`. -/
theorem record_deferredWorkHeap (rf : ReferenceMonitor) (mounted : Bool) (env : WorkEnv)
    (data : LogData) (fs : LogFs.Fs) :
    (deferredWorkHeap sha256 rf mounted env data fs).result.bind Prod.fst = none := by
  simp only [deferredWorkHeap, Traced.result_bind, result_encryptPasswordHeap]
  cases hashOf sha256 env.encrypt data.exePath with
  | none => rfl
  | some hash =>
    cases mounted with
    | false => rfl
    | true =>
      simp only [Option.bind_some, Bool.not_true, Bool.false_eq_true, if_false, Traced.result_bind,
        ProbedCall.result_entryHandlerHeap]
      cases openLog.boundedEntryHandler rf env.handler with
      | none => rfl
      | some verdict =>
        simp only [Option.bind_some]
        split_ifs
        · simp only [Traced.result_bind, result_retHandlerHeap, writeOnLog, kworker]
          cases env.log.logData <;> rfl
        · simp only [Traced.result_bind, LogFs.result_onefileWriteHeap]
          cases LogFs.onefileWrite env.write (data.row hash) fs <;> rfl

/-- A record that was deferred is one more. -/
theorem recordBlocks_eq (record : Option (Option LogData)) :
    recordBlocks record = (record.join.toList.map LogData.deferred).sum := by
  rcases record with _ | _ | data <;> simp [recordBlocks]

/-- A record that is taken is one less. -/
theorem sum_eraseIdx {queue : List LogData} {i : ℕ} {data : LogData} (h : queue[i]? = some data) :
    (queue.map LogData.deferred).sum =
      data.deferred + ((queue.eraseIdx i).map LogData.deferred).sum := by
  obtain ⟨hi, rfl⟩ := List.getElem?_eq_some_iff.mp h
  rw [← List.sum_cons, ← List.map_cons]
  exact ((List.getElem_cons_eraseIdx_perm hi).map LogData.deferred).sum_eq.symm

/-- What one action makes of the heap. -/
theorem moves_step (s : MemoryState) (a : MemoryAction) (h : a.Sound s) :
    Moves s.held (s.step sha256 array a).1
      (a.lost sha256 array s + (s.step sha256 array a).2.held) := by
  cases a with
  | call c =>
    have hcall : Moves s.shared.rf.blacklist.blocks
        (c.call.heap sha256 array c.env c.euid s.shared).events _ := c.call.moves_heap h
    have hframe := hcall.frame (s.queue.map LogData.deferred).sum
    rw [add_assoc] at hframe
    exact hframe
  | probe task probed handler log =>
    have hprobed := (costs_probedCallHeap probed :
      Costs (probedCallHeap s.shared.rf handler log task probed).events _).moves s.held
    have hheld : (s.step sha256 array (.probe task probed handler log)).2.held =
        recordBlocks (probed.record s.shared.rf handler log task) + s.held := by
      simp only [MemoryState.step, MemoryState.held, List.map_append, List.sum_append,
        recordBlocks_eq, result_probedCallHeap]
      rw [← add_assoc, add_comm]
    rw [hheld, ← add_assoc]
    exact hprobed
  | work i mounted env =>
    simp only [MemoryState.step, MemoryAction.lost]
    cases hdata : s.queue[i]? with
    | none => exact HeapOp.costs_nil.moves s.held
    | some data =>
      have hi : i < s.queue.length := (List.getElem?_eq_some_iff.mp hdata).1
      have hwork := (moves_deferredWorkHeap (h hi) data s.fs :
        Moves data.deferred (deferredWorkHeap sha256 s.shared.rf mounted env data s.fs).events
          _).frame (s.shared.rf.blacklist.blocks +
            ((s.queue.eraseIdx i).map LogData.deferred).sum)
      simp only [MemoryState.held, record_deferredWorkHeap, Option.toList_none, List.append_nil]
      rw [sum_eraseIdx hdata, add_left_comm]
      exact hwork

/-- An action that is not sound frees a pointer that did not come from an allocation. -/
theorem wild_mem_step {s : MemoryState} {a : MemoryAction} (h : ¬a.Sound s) :
    .wild ∈ (s.step sha256 array a).1 := by
  cases a with
  | call c => exact Syscall.wild_mem_heap h
  | probe task probed handler log => exact absurd trivial h
  | work i mounted env =>
    obtain ⟨hi, hencrypt⟩ := Classical.not_imp.mp h
    simp only [MemoryState.step, List.getElem?_eq_getElem hi]
    exact Traced.mem_events_bind (wild_mem_encryptPasswordHeap hencrypt _) _

/-! ### Runs -/

variable (sha256 array)

/-- The heap operations of a run. -/
def MemoryState.heapOps (s : MemoryState) (as : List MemoryAction) : List (HeapOp Pointer) :=
  (Run.outputs (MemoryState.step sha256 array) s as).flatten

/-- What is lost along a run. -/
def MemoryState.lost (s : MemoryState) (as : List MemoryAction) : Multiset Pointer :=
  (Run.outputs (fun s a => (MemoryAction.lost sha256 array s a, (s.step sha256 array a).2))
    s as).sum

/-- The state after a run. -/
def MemoryState.after (s : MemoryState) (as : List MemoryAction) : MemoryState :=
  Run.exec (fun s a => (s.step sha256 array a).2) s as

/-- All actions of a run free only what came from an allocation. -/
def MemoryState.Sound (s : MemoryState) (as : List MemoryAction) : Prop :=
  Run.EachStep (fun s a => (s.step sha256 array a).2) (fun s a => MemoryAction.Sound s a) s as

variable {sha256 array}

theorem moves_run {s : MemoryState} {as : List MemoryAction} (h : s.Sound sha256 array as) :
    Moves s.held (s.heapOps sha256 array as)
      (s.lost sha256 array as + (s.after sha256 array as).held) := by
  induction as generalizing s with
  | nil => exact congrArg some (zero_add _).symm
  | cons a as ih =>
    obtain ⟨ha, has⟩ := Run.eachStep_cons.mp h
    have hrest := (ih has).frame (a.lost sha256 array s)
    rw [add_comm, add_right_comm, add_comm (MemoryState.lost _ _ _ _)] at hrest
    exact (moves_step s a ha).append hrest

theorem wild_mem_run {s : MemoryState} {as : List MemoryAction} (h : ¬s.Sound sha256 array as) :
    .wild ∈ s.heapOps sha256 array as := by
  induction as generalizing s with
  | nil => exact absurd Run.eachStep_nil h
  | cons a as ih =>
    by_cases ha : a.Sound s
    · have hrest : ¬MemoryState.Sound sha256 array (s.step sha256 array a).2 as :=
        fun has => h (Run.eachStep_cons.mpr ⟨ha, has⟩)
      exact List.mem_append_right _ (ih hrest)
    · exact List.mem_append_left _ (wild_mem_step ha)

end Machine

/-- Over every run of system calls, probed calls and workers, whatever their arguments and the
outcomes of all allocations and copies: each `kfree` is given a pointer that an allocation has set,
to a block that is still allocated, if and only if no action encrypts without memory for the
descriptor while the unset `digest` is not `NULL`, and none fails to copy an empty list. -/
theorem frees_only_blocks_iff (sha256 : List UInt8 → Vector UInt8 32) (array : KprobeArray)
    (s : MemoryState) (as : List MemoryAction) :
    (settle s.held (s.heapOps sha256 array as)).isSome ↔ s.Sound sha256 array as := by
  constructor
  · intro hsome
    by_contra hsound
    rw [HeapOp.settle_of_wild_mem (wild_mem_run hsound)] at hsome
    exact absurd hsome (by simp)
  · intro hsound
    rw [moves_run hsound]
    rfl

/-- Over every such run in which only blocks are freed, the blocks that are allocated at its end are
those of the list and of the records that are still deferred, and what each action has lost. -/
theorem heap_after_run (sha256 : List UInt8 → Vector UInt8 32) (array : KprobeArray)
    (s : MemoryState) (as : List MemoryAction) (h : s.Sound sha256 array as) :
    settle s.held (s.heapOps sha256 array as) =
      some (s.lost sha256 array as + (s.after sha256 array as).held) :=
  moves_run h

/-- A module that was just loaded. -/
def sampleMemory : MemoryState :=
  { shared := sampleInit.shared
    queue := []
    fs := LogFs.sampleImage }

/-- Root switches to REC_ON, adds `/a`, adds it again and asks for the state. Three digests and two
strings for the audit are lost. Both nodes are still allocated. -/
theorem heap_after_run_pathA :
    settle sampleMemory.held (sampleMemory.heapOps sampleSha256 (some fun _ => true)
        [.call ⟨0, .switchRfState 2 2, sampleCallEnv⟩,
          .call ⟨0, .addToBlacklist 0 2, sampleCallEnv⟩,
          .call ⟨0, .addToBlacklist 0 2, sampleCallEnv⟩, .call ⟨0, .getRfState, sampleCallEnv⟩]) =
      some (3 • {.result} + 2 • {.stateString} + 2 • {.new, .newPath}) := by
  have hsound : ∀ password, PasswordEnv.Sound sampleCallEnv.password password := by
    intro password _ _ _
    exact Or.inl rfl
  refine (heap_after_run sampleSha256 (some fun _ => true) sampleMemory _ ?_).trans ?_
  · simp only [MemoryState.Sound, Run.eachStep_cons, Run.eachStep_nil, and_true]
    exact ⟨fun _ => hsound 2, fun _ => hsound 2, fun _ => hsound 2, trivial⟩
  · decide

end StackReferenceMonitor
