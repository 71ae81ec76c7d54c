import StackReferenceMonitor.Foundations.Printf
import StackReferenceMonitor.Monitor.Digest
import StackReferenceMonitor.Probes.Handlers

/-!
# The log of denied calls

`write_on_log` and `deferred_work` of `log/logger.c`. For each denied call, the return handler has a
record of the calling task made and its writing deferred. A worker then formats the record as a row
and writes it to the log file.

A function that dereferences `NULL` does not return: its result is `none`.

## Main definitions

* `Task`, `LogData`: a task, and the record of it.
* `writeOnLog`: `write_on_log`.
* `rowText`, `LogData.row`: the row that `deferred_work` formats.
* `hashOf`: the fingerprint in the row.

## Main results

* `LogData.length_row_le`: whatever the record, its row fits in a block of the log file system.
-/

namespace StackReferenceMonitor

open CString (text)
open Printf (decimal signedDecimal snprintf)

/-- `struct task_struct`: what the log reads of it. -/
structure Task where
  /-- `pid`. -/
  pid : Int32
  /-- `tgid`. -/
  tgid : Int32
  /-- The user id. -/
  uid : UInt32
  /-- The effective user id. -/
  euid : UInt32
  /-- `mm->exe_file->f_path.dentry`. A kernel thread has no `mm`. -/
  mm : Option Dentry

/-- `struct log_data`. The field `hash` is not used. -/
structure LogData where
  /-- `tid`, an `int`. -/
  tid : Int32
  /-- `tgid`, an `int`. -/
  tgid : Int32
  /-- `uid`, an `unsigned int`. -/
  uid : UInt32
  /-- `euid`, an `unsigned int`. -/
  euid : UInt32
  /-- `exe_path`, or `NULL`. -/
  exePath : Option CStr

/-! ### Recording a denial -/

/-- What one call of `write_on_log` meets. -/
structure WriteOnLogEnv where
  /-- Whether `kmalloc` of the record succeeds. -/
  logData : Bool
  /-- What `get_path_from_dentry` meets. -/
  path : PathEnv
  /-- Whether `kstrdup` succeeds. -/
  kstrdup : Bool
  /-- Whether `kmalloc` of the work succeeds. -/
  defWork : Bool

/-- `write_on_log`, run by `task`: the record whose writing is deferred, if there is one. -/
def writeOnLog (env : WriteOnLogEnv) (task : Task) : Option (Option LogData) :=
  if !env.logData then some none
  else do
    -- `mm` is not tested
    let exeDentry ← task.mm
    let exePath := getPathFromDentry env.path exeDentry
    let logData : LogData :=
      { tid := task.pid
        tgid := task.tgid
        uid := task.uid
        euid := task.euid
        -- of `NULL`, the duplicate is `NULL`
        exePath := if env.kstrdup then exePath.map CString.ofMem else none }
    return if env.defWork then some logData else none

/-! ### Formatting a row -/

/-- `"%d, %d, %u, %u, %s, %s\\n"`. -/
def rowText (tid tgid : ℤ) (uid euid : ℕ) (exePath hash : List UInt8) : List UInt8 :=
  signedDecimal tid ++ text ", " ++ signedDecimal tgid ++ text ", " ++ decimal uid ++ text ", " ++
    decimal euid ++ text ", " ++ exePath ++ text ", " ++ hash ++ text "\n"

/-- The size of the buffer `row`. -/
def rowSize : ℕ := 256

/-- `row`, as `snprintf` leaves it. -/
def LogData.row (data : LogData) (hash : Option CStr) : List UInt8 :=
  snprintf rowSize (rowText data.tid.toInt data.tgid.toInt data.uid.toNat data.euid.toNat
    (printfString (data.exePath.map CStr.bytes)) (printfString (hash.map CStr.bytes)))

/-- `encrypt_password` of `exe_path`, which may be `NULL`: its length is taken after three
allocations. -/
def hashOf (sha256 : List UInt8 → Vector UInt8 32) (env : EncryptEnv) :
    Option CStr → Option (Option CStr)
  | some exePath => some (encryptPassword sha256 env exePath)
  | none => if env.hashTfm ∧ env.desc ∧ env.digest then none else some none

/-- The first part of `deferred_work`: the row. -/
def formatRow (sha256 : List UInt8 → Vector UInt8 32) (env : EncryptEnv) (data : LogData) :
    Option (List UInt8) :=
  (hashOf sha256 env data.exePath).map data.row

/-- A row has at most 255 characters. -/
theorem LogData.length_row_le (data : LogData) (hash : Option CStr) :
    (data.row hash).length ≤ 255 := by
  simp [LogData.row, snprintf, rowSize]

end StackReferenceMonitor
