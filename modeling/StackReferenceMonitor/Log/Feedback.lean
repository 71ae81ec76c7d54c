import StackReferenceMonitor.Foundations.Runs
import StackReferenceMonitor.Log.Defs
import StackReferenceMonitor.LogFs.Append
import StackReferenceMonitor.Probes.Denials

/-!
# Logging and the probes

A denied call has its task recorded by `write_on_log`, and a worker writes the row later. The worker
opens the log file for that, and this open goes through the probe on `security_file_open` like any
other. If an entry of the blacklist covers the string that is computed for the log file, the open is
denied, and the return handler runs `write_on_log` again, in a worker, which has no `mm`.

## Main definitions

* `LogState`, `LogAction`, `LogState.step`: user tasks that make calls, and workers.
* `LogAction.Works`: no allocation fails, and the log file system is mounted and not full.
* `LogAction.Clear`: the condition on a step.
* `LogState.Logged`: the log has one row for each denial, and no worker was denied.

## Main results

* `logged_of_clear`: the log is right along every run whose steps meet the condition.
-/

namespace StackReferenceMonitor

open CString (text)
open PathString (render)
open Blacklist (pathA pathB)

/-! ### The machine -/

/-- The dentry of the log file, in the log file system. -/
def logDentry : Dentry :=
  [⟨text "ref_monitor_log.txt", by decide +kernel, by decide +kernel, by decide +kernel,
    by decide +kernel, by decide +kernel⟩]

/-- `filp_open(LOG_FILE, O_WRONLY, 0644)`, as the probe sees it. -/
def openLog : ProbedCall :=
  .securityFileOpen { dentry := logDentry, flags := oWronly }

/-- A worker of the kernel. -/
def kworker (pid : Int32) : Task :=
  { pid, tgid := pid, uid := 0, euid := 0, mm := none }

/-- A record whose writing was deferred, and how far `deferred_work` has come with it. -/
inductive Work where
  /-- In the queue. -/
  | queued (data : LogData)
  /-- The row is formatted. -/
  | formatted (row : List UInt8)
  /-- The log file is open. -/
  | opened (row : List UInt8)

/-- The log file system, the work that is not done, and what has happened so far. -/
structure LogState where
  /-- The log file system. -/
  fs : LogFs.Fs
  /-- The work that is not done. -/
  works : List Work
  /-- The rows that were appended. -/
  rows : List (List UInt8)
  /-- The denied calls of user tasks. -/
  denials : ℕ
  /-- The denied opens of workers. -/
  workerDenials : ℕ
  /-- The tasks that have run `write_on_log`. -/
  loggedBy : List Task

/-- What a step of a worker meets. -/
structure WorkEnv where
  /-- The worker. -/
  pid : Int32
  /-- What `encrypt_password` meets. -/
  encrypt : EncryptEnv
  /-- What the entry handler of the probe meets. -/
  handler : HandlerEnv
  /-- What `write_on_log` meets, if the open is denied. -/
  log : WriteOnLogEnv
  /-- What `onefile_write` meets. -/
  write : LogFs.WriteEnv

/-- A step. -/
inductive LogAction where
  /-- A task calls a probed function. -/
  | call (task : Task) (call : ProbedCall) (handler : HandlerEnv) (log : WriteOnLogEnv)
  /-- A worker goes on with a work. -/
  | work (i : ℕ) (env : WorkEnv)

namespace LogState

/-- `ret_handler`, as far as the log is concerned: the task runs `write_on_log`. -/
def record (s : LogState) (env : WriteOnLogEnv) (task : Task) : LogState :=
  { s with
    loggedBy := s.loggedBy ++ [task]
    works :=
      match writeOnLog env task with
      | some (some data) => s.works ++ [.queued data]
      -- an allocation has failed, or the task has faulted
      | _ => s.works }

/-- A work is done, or its worker has faulted. -/
def drop (s : LogState) (i : ℕ) : LogState :=
  { s with works := s.works.eraseIdx i }

/-- The next step of `deferred_work`. -/
def advance (sha256 : List UInt8 → Vector UInt8 32) (rf : ReferenceMonitor) (s : LogState) (i : ℕ)
    (env : WorkEnv) : Work → LogState
  | .queued data =>
    match formatRow sha256 env.encrypt data with
    | none => s.drop i
    | some row => { s with works := s.works.set i (.formatted row) }
  | .formatted row =>
    match openLog.entryHandler rf env.handler with
    | none => s.drop i
    | some (ret, _) =>
      -- the worker itself runs the return handler, and `deferred_work` returns without a row
      if ret = 0 then
        { (s.drop i).record env.log (kworker env.pid) with workerDenials := s.workerDenials + 1 }
      else { s with works := s.works.set i (.opened row) }
  | .opened row =>
    match LogFs.onefileWrite env.write row s.fs with
    | none => s.drop i
    | some (ret, fs) =>
      { s.drop i with fs, rows := if ret = row.length then s.rows ++ [row] else s.rows }

/-- One step, under the monitor `rf`. -/
def step (sha256 : List UInt8 → Vector UInt8 32) (rf : ReferenceMonitor) (s : LogState) :
    LogAction → LogState
  | .call task call handler log =>
    match call.entryHandler rf handler with
    | none => s
    | some (ret, _) =>
      if ret = 0 then { s.record log task with denials := s.denials + 1 } else s
  | .work i env =>
    match s.works[i]? with
    | none => s
    | some work => s.advance sha256 rf i env work

/-- Nothing was logged yet. -/
def init (fs : LogFs.Fs) : LogState :=
  { fs, works := [], rows := [], denials := 0, workerDenials := 0, loggedBy := [] }

/-- No worker was denied, no task without an `mm` has run `write_on_log`, and when all work is done
there is one row for each denial. -/
structure Logged (s : LogState) : Prop where
  /-- No step of `deferred_work` was denied. -/
  workerDenials : s.workerDenials = 0
  /-- Only tasks with an `mm` have run `write_on_log`. -/
  loggedBy : ∀ task ∈ s.loggedBy, task.mm.isSome
  /-- Once the queue has drained, there is one row for each denial. -/
  rows : s.works = [] → s.rows.length = s.denials

end LogState

/-! ### The assumptions and the condition -/

/-- The allocations of `write_on_log` succeed. -/
structure WriteOnLogEnv.Succeeds (env : WriteOnLogEnv) : Prop where
  /-- `kmalloc` of the record. -/
  logData : env.logData = true
  /-- `get_path_from_dentry`. -/
  path : env.path.Succeeds
  /-- `kstrdup`. -/
  kstrdup : env.kstrdup = true
  /-- `kmalloc` of the work. -/
  defWork : env.defWork = true

instance (env : WriteOnLogEnv) : Decidable env.Succeeds :=
  decidable_of_iff (env.logData = true ∧ env.path.Succeeds ∧ env.kstrdup = true ∧
    env.defWork = true) ⟨fun h => ⟨h.1, h.2.1, h.2.2.1, h.2.2.2⟩, fun h => ⟨h.1, h.2, h.3, h.4⟩⟩

/-- The row of a work that has the log file open. -/
def LogState.openedRow (s : LogState) (i : ℕ) : Option (List UInt8) :=
  match s.works[i]? with
  | some (.opened row) => some row
  | _ => none

/-- User tasks have an `mm`, no allocation fails, and the log file system is mounted and not full:
the whole row is written. -/
def LogAction.Works (s : LogState) : LogAction → Prop
  | .call task _ _ log => task.mm.isSome ∧ log.Succeeds
  | .work i env => env.handler.Succeeds ∧ ∀ row ∈ s.openedRow i,
      (LogFs.onefileWrite env.write row s.fs).map Prod.fst = some (row.length : ℤ)

instance (s : LogState) : (a : LogAction) → Decidable (a.Works s)
  | .call _ _ _ _ => inferInstanceAs (Decidable (_ ∧ _))
  | .work _ _ => inferInstanceAs (Decidable (_ ∧ _))

/-- The path of the program of a task fits in `PATH_MAX`, and no entry of the list covers the string
that the probe computes for the log file. -/
def LogAction.Clear (rf : ReferenceMonitor) : LogAction → Prop
  | .call task _ _ _ => ∀ exe, task.mm = some exe → (render exe).length < pathMax
  | .work _ env => ∀ path, getPathFromDentry env.handler.first logDentry = some path →
      ∀ entry, rf.blacklist.HasEntry entry → ¬Covers entry (CString.chars path)

/-! ### Steps -/

/-- The worker's open is let through when no entry covers the string of the log file. -/
theorem openLog_of_clear {rf : ReferenceMonitor} (hrf : rf.Enforcing) {xs : List (ℕ × CStr)}
    (hxs : rf.blacklist.Counted xs) {i : ℕ} {env : WorkEnv} (henv : env.handler.Succeeds)
    (hclear : (LogAction.work i env).Clear rf) :
    ∃ data, openLog.entryHandler rf env.handler = some (1, data) := by
  have hraw : (dentryPathRaw logDentry pathMax).isSome := by decide +kernel
  obtain ⟨-, path, hpath⟩ := henv.first.path hraw
  have hfree : isBlacklisted rf (some path) = some 0 := by
    rw [isBlacklisted_eq hrf hxs, if_neg]
    rintro ⟨x, hx, hcov⟩
    exact hclear path hpath x.2 ⟨xs, hxs.lists, List.mem_map_of_mem hx⟩ hcov
  -- the open is for writing, so the handler does look the path up
  have hverdict : (openLog.entryHandler rf env.handler).map Prod.fst = some 1 := by
    rw [entryHandler_eq (by decide)]
    show (anyBlacklisted rf [getPathFromDentry env.handler.first logDentry]).map verdict = some 1
    simp [anyBlacklisted, hpath, hfree, verdict]
  obtain ⟨⟨ret, data⟩, hentry, hret⟩ := Option.map_eq_some_iff.mp hverdict
  obtain rfl : ret = 1 := hret
  exact ⟨data, hentry⟩

/-- `write_on_log` records a task whose program has a path that fits. -/
theorem writeOnLog_of_succeeds {env : WriteOnLogEnv} (henv : env.Succeeds) {task : Task}
    {exe : Dentry} (hmm : task.mm = some exe) (hexe : (render exe).length < pathMax) :
    ∃ data, writeOnLog env task = some (some data) ∧ data.exePath.isSome := by
  have hraw : (dentryPathRaw exe pathMax).isSome := by simp [dentryPathRaw, hexe]
  obtain ⟨-, path, hpath⟩ := henv.path.path hraw
  simp [writeOnLog, henv.logData, henv.kstrdup, henv.defWork, hmm, hpath]

/-- What the runs keep: each denial has a row or a work, and each record has its path. -/
structure LogState.Balanced (s : LogState) : Prop where
  /-- No step of `deferred_work` was denied. -/
  workerDenials : s.workerDenials = 0
  /-- Only tasks with an `mm` have run `write_on_log`. -/
  loggedBy : ∀ task ∈ s.loggedBy, task.mm.isSome
  /-- Rows and works together are the denials. -/
  count : s.rows.length + s.works.length = s.denials
  /-- Each record has the path of its program. -/
  exePath : ∀ data, .queued data ∈ s.works → data.exePath.isSome

theorem LogState.Balanced.logged {s : LogState} (h : s.Balanced) : s.Logged := by
  refine ⟨h.workerDenials, h.loggedBy, fun hdone => ?_⟩
  have hcount := h.count
  rw [hdone, List.length_nil] at hcount
  omega

/-- A denied call of a user task. -/
theorem LogState.Balanced.record {s : LogState} (h : s.Balanced) {env : WriteOnLogEnv}
    (henv : env.Succeeds) {task : Task} {exe : Dentry} (hmm : task.mm = some exe)
    (hexe : (render exe).length < pathMax) :
    LogState.Balanced { s.record env task with denials := s.denials + 1 } := by
  obtain ⟨data, hdata, hpath⟩ := writeOnLog_of_succeeds henv hmm hexe
  have hcount := h.count
  -- one more denial, and one more work
  simp only [LogState.record, hdata]
  refine ⟨h.workerDenials, ?_, ?_, ?_⟩
  · intro task' hmem
    rcases List.mem_append.mp hmem with hmem | hmem
    · exact h.loggedBy task' hmem
    · rw [List.mem_singleton.mp hmem, hmm]
      rfl
  · simp only [List.length_append, List.length_singleton]
    omega
  · intro data' hmem
    rcases List.mem_append.mp hmem with hmem | hmem
    · exact h.exePath data' hmem
    · rwa [Work.queued.inj (List.mem_singleton.mp hmem)]

/-- A work that has come further. -/
theorem LogState.Balanced.set {s : LogState} (h : s.Balanced) (i : ℕ) {work : Work}
    (hwork : ∀ data, work ≠ .queued data) :
    LogState.Balanced { s with works := s.works.set i work } := by
  refine ⟨h.workerDenials, h.loggedBy, by simpa using h.count, fun data hmem => ?_⟩
  rcases List.mem_or_eq_of_mem_set hmem with hmem | heq
  · exact h.exePath data hmem
  · exact absurd heq.symm (hwork data)

/-- A step of a worker. -/
theorem LogState.Balanced.advance {sha256 : List UInt8 → Vector UInt8 32} {rf : ReferenceMonitor}
    (hrf : rf.Enforcing) {xs : List (ℕ × CStr)} (hxs : rf.blacklist.Counted xs) {s : LogState}
    (h : s.Balanced) {i : ℕ} {env : WorkEnv} (hworks : (LogAction.work i env).Works s)
    (hclear : (LogAction.work i env).Clear rf) {work : Work} (hwork : s.works[i]? = some work) :
    (s.advance sha256 rf i env work).Balanced := by
  cases work with
  | queued data =>
    -- formatting faults on a record without a path, and there is none in the queue
    obtain ⟨exePath, hexe⟩ :=
      Option.isSome_iff_exists.mp (h.exePath data (List.mem_of_getElem? hwork))
    simp only [LogState.advance, formatRow, hexe, hashOf, Option.map_some]
    exact h.set i fun _ => Work.noConfusion
  | formatted row =>
    obtain ⟨data, hopen⟩ := openLog_of_clear hrf hxs hworks.1 hclear
    simp only [LogState.advance, hopen]
    rw [if_neg (by decide)]
    exact h.set i fun _ => Work.noConfusion
  | opened row =>
    have hopened : s.openedRow i = some row := by simp [LogState.openedRow, hwork]
    obtain ⟨⟨ret, fs⟩, hwrite, hret⟩ := Option.map_eq_some_iff.mp (hworks.2 row hopened)
    obtain rfl : ret = row.length := hret
    have hlt : i < s.works.length := (List.getElem?_eq_some_iff.mp hwork).1
    have hcount := h.count
    simp only [LogState.advance, hwrite, if_true]
    -- the row takes the place of the work
    refine ⟨h.workerDenials, h.loggedBy, ?_, fun data hmem => ?_⟩
    · simp only [LogState.drop, List.length_append, List.length_singleton, List.length_eraseIdx,
        if_pos hlt]
      omega
    · exact h.exePath data (List.mem_of_mem_eraseIdx hmem)

theorem LogState.Balanced.step {sha256 : List UInt8 → Vector UInt8 32} {rf : ReferenceMonitor}
    (hrf : rf.Enforcing) {xs : List (ℕ × CStr)} (hxs : rf.blacklist.Counted xs) {s : LogState}
    (h : s.Balanced) {a : LogAction} (hworks : a.Works s) (hclear : a.Clear rf) :
    (s.step sha256 rf a).Balanced := by
  cases a with
  | call task call handler log =>
    obtain ⟨exe, hexe⟩ := Option.isSome_iff_exists.mp hworks.1
    simp only [LogState.step]
    -- a call that is let through, or whose handler faults, logs nothing
    cases call.entryHandler rf handler with
    | none => exact h
    | some out =>
      obtain ⟨ret, data⟩ := out
      by_cases hret : ret = 0
      · simp only [if_pos hret]
        exact h.record hworks.2 hexe (hclear exe hexe)
      · simp only [if_neg hret]
        exact h
  | work i env =>
    simp only [LogState.step]
    cases hwork : s.works[i]? with
    | none => exact h
    | some work => exact h.advance hrf hxs hworks hclear hwork

/-- In ON or REC_ON, with any reachable list, in every run of calls and workers in any order, with
all allocations succeeding and the log file system mounted and not full: if the paths of the
programs fit in `PATH_MAX` and at each step of a worker no entry covers the string computed for the
log file, then in every state no worker was denied, only tasks with an `mm` have run `write_on_log`,
and once all work is done there is one row for each denial. -/
theorem logged_of_clear (sha256 : List UInt8 → Vector UInt8 32) (rf : ReferenceMonitor)
    (hrf : rf.Enforcing) (hlist : Blacklist.Reachable rf.blacklist) (fs : LogFs.Fs)
    (as : List LogAction)
    (hworks : Run.EachStep (LogState.step sha256 rf) (fun s a => a.Works s) (LogState.init fs) as)
    (hclear : ∀ a ∈ as, a.Clear rf) :
    Run.Always (LogState.step sha256 rf) LogState.Logged (LogState.init fs) as := by
  obtain ⟨xs, hxs⟩ := hlist.counted
  have hbalanced : (LogState.init fs).Balanced := ⟨rfl, by simp [LogState.init], rfl,
    by simp [LogState.init]⟩
  have hsteps : Run.EachStep (LogState.step sha256 rf) (fun s a => a.Works s ∧ a.Clear rf)
      (LogState.init fs) as :=
    fun ys a hys => ⟨hworks ys a hys, hclear a (hys.subset (by simp))⟩
  exact (Run.always_of_eachStep (fun _ _ hs ha => hs.step hrf hxs ha.1 ha.2) hbalanced hsteps).mono
    fun _ hs => hs.logged

/-! ### Two runs -/

/-- A digest for concrete runs. -/
def zeroSha256 : List UInt8 → Vector UInt8 32 :=
  fun _ => Vector.replicate 32 0

/-- The record of this task. -/
def sampleData : LogData :=
  { tid := 2, tgid := 2, uid := 1000, euid := 1000, exePath := some pathB }

/-- Its row. -/
def sampleRow : List UInt8 :=
  sampleData.row (some (hexString (Vector.replicate 32 0)))

/-- A worker for which nothing fails. -/
def sampleWorker : WorkEnv where
  pid := 7
  encrypt := ⟨true, true, true, 0, some (Vector.replicate 65 0), true⟩
  handler := strayEnv
  log := sampleLogEnv
  write := ⟨true, sampleRow.length, true⟩

/-- The task writes to `/a`, and a worker takes some steps. -/
def sampleRun (n : ℕ) : List LogAction :=
  .call sampleUser (.vfsWrite ⟨[nameA], 0⟩) strayEnv sampleLogEnv ::
    List.replicate n (.work 0 sampleWorker)

/-- With `/a` on the list, a denied write and the worker that logs it. -/
theorem logged_of_clear_pathA :
    Run.Always (LogState.step zeroSha256 (monitorOf pathA)) LogState.Logged
      (LogState.init ⟨LogFs.zeroDevice, 0⟩) (sampleRun 3) := by
  refine logged_of_clear zeroSha256 (monitorOf pathA) (Or.inl rfl)
    (Blacklist.listOf_reachable (by decide)) ⟨LogFs.zeroDevice, 0⟩ (sampleRun 3)
    (by decide +kernel) fun a ha => ?_
  rcases List.mem_cons.mp ha with rfl | hmem
  · rintro exe ⟨⟩
    decide +kernel
  · rw [List.eq_of_mem_replicate hmem]
    intro path hpath entry hentry
    have hstring : getPathFromDentry strayEnv.first logDentry =
        some (render logDentry ++ [98, 0]) := by decide +kernel
    obtain rfl := Option.some.inj (hstring.symm.trans hpath)
    rw [Blacklist.eq_of_hasEntry_listOf hentry]
    decide +kernel

/-- The path `/`. -/
def pathRoot : CStr :=
  ⟨[PathString.slash], by decide⟩

/-- The task's write and two steps of the worker, with `/` on the list. -/
def endPathRoot : LogState :=
  Run.exec (LogState.step zeroSha256 (monitorOf pathRoot)) (LogState.init ⟨LogFs.zeroDevice, 0⟩)
    (sampleRun 2)

/-- The worker's open of the log file is denied too: `write_on_log` is run by the worker, which has
no `mm`, and the denial is never logged. -/
theorem worker_denied_pathRoot :
    Blacklist.Reachable (monitorOf pathRoot).blacklist ∧
      Run.EachStep (LogState.step zeroSha256 (monitorOf pathRoot)) (fun s a => a.Works s)
        (LogState.init ⟨LogFs.zeroDevice, 0⟩) (sampleRun 2) ∧
      endPathRoot.workerDenials = 1 ∧
      endPathRoot.loggedBy.map (·.mm.isSome) = [true, false] ∧
      endPathRoot.works.length = 0 ∧ endPathRoot.rows.length = 0 ∧ endPathRoot.denials = 1 :=
  ⟨Blacklist.listOf_reachable (by decide), by decide +kernel⟩

end StackReferenceMonitor
