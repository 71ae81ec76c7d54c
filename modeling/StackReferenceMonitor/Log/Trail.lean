import StackReferenceMonitor.Log.Feedback
import StackReferenceMonitor.LogFs.Read

/-!
# The log as a trail of the denials

From a denied call to the bytes that a reader of the log file gets: the return handler has a record
of the task made, a worker formats it as a row, opens the log file and appends the row, and a reader
reads the file to its end. Calls and workers take their steps in any order, so that the rows are not
in the order of the denials. But each denial has its row in the file once, whole and with nothing
else, or its work is still to be done.

A row that does not fit in the rest of a block begins the next one. The bytes in between are not of
any row.

## Main definitions

* `LogAction.deniedRow`: the row of a denial.
* `LogAction.Hashes`: no worker fails to compute a fingerprint.
* `IsTrail`: a file grown by rows, with gaps between them.

## Main results

* `log_is_trail`: what a reader gets after every run.
-/

namespace StackReferenceMonitor

open LogFs (Fs appendAt)

/-- The row of a record, with the fingerprint of its program. -/
def LogData.logRow (sha256 : List UInt8 → Vector UInt8 32) (data : LogData) : List UInt8 :=
  data.row (data.exePath.map fun path => hexString (sha256 path.bytes))

/-- The row of a call that is denied. -/
def LogAction.deniedRow (sha256 : List UInt8 → Vector UInt8 32) (rf : ReferenceMonitor) :
    LogAction → Option (List UInt8)
  | .call task probed handler log =>
    if (probed.entryHandler rf handler).map Prod.fst = some 0 then
      match writeOnLog log task with
      | some (some data) => some (data.logRow sha256)
      | _ => none
    else none
  | .work _ _ => none

/-- The row that a work will append. -/
def Work.row (sha256 : List UInt8 → Vector UInt8 32) : Work → List UInt8
  | .queued data => data.logRow sha256
  | .formatted row => row
  | .opened row => row

/-- The fingerprint of every program can be computed. -/
def LogAction.Hashes (sha256 : List UInt8 → Vector UInt8 32) : LogAction → Prop
  | .call _ _ _ _ => True
  | .work _ env => ∀ path, (encryptPassword sha256 env.encrypt path).isSome

/-- The contents of a file that had `start`, and got the rows of `trail`, each behind a gap. A gap
is empty, or shorter than its row. -/
structure IsTrail (start : List UInt8) (trail : List (List UInt8 × List UInt8))
    (contents : List UInt8) : Prop where
  /-- The file. -/
  contents : contents = start ++ trail.flatMap fun e => e.1 ++ e.2
  /-- The gaps. -/
  gaps : ∀ e ∈ trail, e.1 = [] ∨ e.1.length < e.2.length

/-- One row more. -/
theorem IsTrail.append {start contents : List UInt8} {trail : List (List UInt8 × List UInt8)}
    (h : IsTrail start trail contents) {gap row : List UInt8}
    (hgap : gap = [] ∨ gap.length < row.length) :
    IsTrail start (trail ++ [(gap, row)]) (contents ++ gap ++ row) := by
  constructor
  · rw [List.flatMap_append, h.contents]
    simp
  · intro e he
    obtain he | rfl := List.mem_append.mp he |>.imp_right List.mem_singleton.mp
    · exact h.gaps e he
    · exact hgap

/-- What an append adds to the file: a gap, if the row does not fit in the block, and the row. -/
theorem exists_gap (fs : Fs) {row : List UInt8} (hlen : row.length ≤ LogFs.blockSize) :
    ∃ gap, (gap = [] ∨ gap.length < row.length) ∧
      (fs.append row).contents = fs.contents ++ gap ++ row := by
  obtain ⟨gap, hgap⟩ := fs.device.bytes_prefix LogFs.dataBlock
    (LogFs.le_appendAt fs.iSize.toNat row.length)
  refine ⟨gap, ?_, ?_⟩
  · have hlength := congrArg List.length hgap
    rw [List.length_append, BlockDevice.length_bytes, BlockDevice.length_bytes] at hlength
    unfold appendAt LogFs.blockSize at hlength
    split_ifs at hlength
    · exact Or.inl (List.eq_nil_of_length_eq_zero (by omega))
    · exact Or.inr (by omega)
  · rw [fs.contents_append hlen, ← hgap]
    rfl

/-! ### The invariant -/

/-- What the runs keep. -/
structure LogState.Trails (sha256 : List UInt8 → Vector UInt8 32) (start : List UInt8)
    (denied : List (List UInt8)) (s : LogState) : Prop where
  /-- The size of the file is in range. -/
  small : s.fs.Small
  /-- The device has the blocks of the file. -/
  onDevice : s.fs.OnDevice
  /-- The rows to come are short. -/
  short : ∀ work ∈ s.works, (work.row sha256).length ≤ 255
  /-- The file has the rows. -/
  file : ∃ trail, IsTrail start trail s.fs.contents ∧ trail.map Prod.snd = s.rows
  /-- The rows and those to come are the rows of the denials. -/
  rows : (s.rows ++ s.works.map (Work.row sha256)).Perm denied

section Steps

variable {sha256 : List UInt8 → Vector UInt8 32} {rf : ReferenceMonitor} {start : List UInt8}
  {denied : List (List UInt8)} {s : LogState}

/-- A denied call. -/
theorem LogState.Trails.record (h : s.Trails sha256 start denied) {env : WriteOnLogEnv}
    {task : Task} {data : LogData} (hdata : writeOnLog env task = some (some data)) (n : ℕ) :
    LogState.Trails sha256 start (denied ++ [data.logRow sha256])
      { s.record env task with denials := n } := by
  simp only [LogState.record, hdata]
  refine ⟨h.small, h.onDevice, fun work hwork => ?_, h.file, ?_⟩
  · obtain hwork | rfl := List.mem_append.mp hwork |>.imp_right List.mem_singleton.mp
    · exact h.short work hwork
    · exact data.length_row_le _
  · rw [List.map_append, ← List.append_assoc]
    exact h.rows.append_right _

/-- A work that has come further, with the same row. -/
theorem LogState.Trails.set (h : s.Trails sha256 start denied) {i : ℕ} {work work' : Work}
    (hwork : s.works[i]? = some work) (hrow : work'.row sha256 = work.row sha256) :
    LogState.Trails sha256 start denied { s with works := s.works.set i work' } := by
  have hmap : (s.works.set i work').map (Work.row sha256) = s.works.map (Work.row sha256) := by
    obtain ⟨hi, rfl⟩ := List.getElem?_eq_some_iff.mp hwork
    rw [List.map_set, hrow, ← List.getElem_map (Work.row sha256) (h := by simpa using hi),
      List.set_getElem_self]
  refine ⟨h.small, h.onDevice, fun w hw => ?_, h.file, ?_⟩
  · obtain hw | rfl := List.mem_or_eq_of_mem_set hw
    · exact h.short w hw
    · rw [hrow]
      exact h.short work (List.mem_of_getElem? hwork)
  · rw [hmap]
    exact h.rows

/-- A row that was appended. -/
theorem LogState.Trails.append (h : s.Trails sha256 start denied) {i : ℕ} {row : List UInt8}
    (hwork : s.works[i]? = some (.opened row)) {env : LogFs.WriteEnv} {fs : Fs}
    (hwrite : LogFs.onefileWrite env row s.fs = some ((row.length : ℤ), fs)) :
    LogState.Trails sha256 start denied { s.drop i with fs, rows := s.rows ++ [row] } := by
  have hlen : row.length ≤ LogFs.blockSize :=
    (h.short _ (List.mem_of_getElem? hwork)).trans (by decide)
  let c : LogFs.WriteCall := ⟨env, row, hlen⟩
  have hfs : s.fs.write c = fs := LogFs.Fs.write_eq hwrite
  have happend : s.fs.write c = s.fs.append row := LogFs.Fs.write_of_succeeds h.small ⟨fs, hwrite⟩
  obtain ⟨trail, hfile, hrows⟩ := h.file
  obtain ⟨gap, hgap, hcontents⟩ := exists_gap s.fs hlen
  refine ⟨?_, ?_, fun work hmem => h.short work (List.mem_of_mem_eraseIdx hmem), ?_, ?_⟩
  · rw [← hfs]
    exact h.small.write c
  · rw [← hfs]
    exact h.onDevice.write h.small c
  · refine ⟨trail ++ [(gap, row)], ?_, by rw [List.map_append, hrows]; rfl⟩
    rw [← hfs, happend, hcontents]
    exact hfile.append hgap
  · -- the row takes the place of the work
    obtain ⟨hi, hget⟩ := List.getElem?_eq_some_iff.mp hwork
    have hperm := (List.getElem_cons_eraseIdx_perm hi).map (Work.row sha256)
    rw [hget, List.map_cons] at hperm
    rw [List.append_assoc, List.singleton_append]
    exact (hperm.append_left s.rows).trans h.rows

/-- The row that a worker formats. -/
theorem formatRow_eq {env : EncryptEnv} (henv : ∀ path, (encryptPassword sha256 env path).isSome)
    {data : LogData} (hpath : data.exePath.isSome) :
    formatRow sha256 env data = some (data.logRow sha256) := by
  obtain ⟨path, hpath⟩ := Option.isSome_iff_exists.mp hpath
  obtain ⟨hash, hhash⟩ := Option.isSome_iff_exists.mp (henv path)
  rw [formatRow, LogData.logRow, hpath, hashOf, hhash, encryptPassword_eq_some hhash]
  rfl

/-- A step of a worker keeps the trail. -/
theorem LogState.Trails.advance (hrf : rf.Enforcing) {xs : List (ℕ × CStr)}
    (hxs : rf.blacklist.Counted xs) (hbalanced : s.Balanced) (h : s.Trails sha256 start denied)
    {i : ℕ} {env : WorkEnv} (hworks : (LogAction.work i env).Works s)
    (hclear : (LogAction.work i env).Clear rf) (hhashes : (LogAction.work i env).Hashes sha256)
    {work : Work} (hwork : s.works[i]? = some work) :
    (s.advance sha256 rf i env work).Trails sha256 start denied := by
  cases work with
  | queued data =>
    have hpath := hbalanced.exePath data (List.mem_of_getElem? hwork)
    rw [LogState.advance, formatRow_eq hhashes hpath]
    exact h.set hwork rfl
  | formatted row =>
    obtain ⟨data, hopen⟩ := openLog_of_clear hrf hxs hworks.1 hclear
    simp only [LogState.advance, hopen]
    rw [if_neg (by decide)]
    exact h.set hwork rfl
  | opened row =>
    have hopened : s.openedRow i = some row := by simp [LogState.openedRow, hwork]
    obtain ⟨⟨ret, fs⟩, hwrite, hret⟩ := Option.map_eq_some_iff.mp (hworks.2 row hopened)
    obtain rfl : ret = row.length := hret
    simp only [LogState.advance, hwrite, if_true]
    exact h.append hwork hwrite

/-- A step adds the row of its denial, if it is one. -/
theorem LogState.Trails.step (hrf : rf.Enforcing) {xs : List (ℕ × CStr)}
    (hxs : rf.blacklist.Counted xs) (hbalanced : s.Balanced) (h : s.Trails sha256 start denied)
    {a : LogAction} (hworks : a.Works s) (hclear : a.Clear rf) (hhashes : a.Hashes sha256) :
    (s.step sha256 rf a).Trails sha256 start (denied ++ (a.deniedRow sha256 rf).toList) := by
  cases a with
  | call task call handler log =>
    obtain ⟨exe, hexe⟩ := Option.isSome_iff_exists.mp hworks.1
    obtain ⟨data, hdata, -⟩ := writeOnLog_of_succeeds hworks.2 hexe (hclear exe hexe)
    simp only [LogState.step, LogAction.deniedRow, hdata]
    -- a call that is let through, or whose handler faults, logs nothing
    obtain hentry | ⟨⟨ret, probe⟩, hentry⟩ :=
      Option.eq_none_or_eq_some (call.entryHandler rf handler)
    · simpa [hentry] using h
    · by_cases hret : ret = 0
      · simpa [hentry, hret] using h.record hdata (s.denials + 1)
      · simpa [hentry, hret] using h
  | work i env =>
    simp only [LogState.step, LogAction.deniedRow, Option.toList_none, List.append_nil]
    obtain hwork | ⟨work, hwork⟩ := Option.eq_none_or_eq_some s.works[i]?
    · simpa [hwork] using h
    · simpa [hwork] using h.advance hrf hxs hbalanced hworks hclear hhashes hwork

end Steps

end StackReferenceMonitor
