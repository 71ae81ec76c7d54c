import StackReferenceMonitor.Log.Rows
import StackReferenceMonitor.Probes.Messages

/-!
# The fingerprint of a program

The last field of a log row is to identify the contents of the program that made the attempt. What
`deferred_work` hashes is `exe_path`, the path of the program, and the file is never read. Two rows
have the same fingerprint exactly when the same string was hashed: a program that was replaced keeps
its fingerprint, and a copy has another one.

SHA-256 is taken to be injective on the strings that are hashed.

## Main definitions

* `Attempt`, `Attempt.WholeRow`: a denied attempt by a program, and the row for it.
* `fingerprintOf`: the last field of a row.
* `Attempt.hashed`: the string that is hashed, by the inputs of the attempt.

## Main results

* `fingerprintOf_wholeRow`: the field is a function of that string;
* `fingerprint_identifies_iff`: when it identifies the contents.
-/

namespace StackReferenceMonitor

open CString (text)
open PathString (render)

/-- The text that `snprintf` formats as a row. -/
def LogData.fullText (data : LogData) (hash : Option CStr) : List UInt8 :=
  rowText data.tid.toInt data.tgid.toInt data.uid.toNat data.euid.toNat
    (printfString (data.exePath.map CStr.bytes)) (printfString (hash.map CStr.bytes))

/-- A program file. -/
structure Program where
  /-- Its place in the file system. -/
  dentry : Dentry
  /-- Its contents. -/
  contents : List UInt8

/-- A denied attempt, with what its recording meets. -/
structure Attempt where
  /-- The program of the task. -/
  program : Program
  /-- `pid`. -/
  pid : Int32
  /-- `tgid`. -/
  tgid : Int32
  /-- The user id. -/
  uid : UInt32
  /-- The effective user id. -/
  euid : UInt32
  /-- What `write_on_log` meets. -/
  log : WriteOnLogEnv
  /-- What `encrypt_password` meets. -/
  encrypt : EncryptEnv

namespace Attempt

/-- The task that made the attempt. -/
def task (a : Attempt) : Task where
  pid := a.pid
  tgid := a.tgid
  uid := a.uid
  euid := a.euid
  mm := some a.program.dentry

/-- The row of the attempt, which `snprintf` has not cut. -/
def WholeRow (sha256 : List UInt8 → Vector UInt8 32) (a : Attempt) (row : List UInt8) : Prop :=
  ∃ data hash, writeOnLog a.log a.task = some (some data) ∧
    hashOf sha256 a.encrypt data.exePath = some hash ∧ row = data.row hash ∧
    (data.fullText hash).length < rowSize

end Attempt

/-- The last field of a row: what is between the last blank and the newline. -/
def fingerprintOf (row : List UInt8) : List UInt8 :=
  (row.dropLast.reverse.takeWhile (· != 32)).reverse

theorem fingerprintOf_append (front : List UInt8) {field : List UInt8} (h : 32 ∉ field) :
    fingerprintOf (front ++ 32 :: field ++ [newline]) = field := by
  have hpos : ∀ b ∈ field.reverse, (b != 32) = true := by
    intro b hb
    exact bne_iff_ne.mpr fun heq => h (heq ▸ List.mem_reverse.mp hb)
  rw [fingerprintOf, List.dropLast_concat, List.reverse_append, List.reverse_cons,
    List.append_assoc, List.takeWhile_append_of_pos hpos]
  simp

/-- The last field of a line is behind the blank of the last separator. -/
theorem rowText_eq (tid tgid : ℤ) (uid euid : ℕ) (exePath hash : List UInt8) :
    ∃ front, rowText tid tgid uid euid exePath hash = front ++ 32 :: hash ++ [newline] := by
  rw [rowText, text_newline, text_separator, List.append_assoc _ [44, 32] hash]
  exact ⟨_ ++ [44], by rw [List.append_assoc _ [44]]; rfl⟩

/-- A row that is not cut. -/
theorem LogData.row_of_length_lt {data : LogData} {hash : Option CStr}
    (h : (data.fullText hash).length < rowSize) : data.row hash = data.fullText hash :=
  List.take_of_length_le (Nat.le_sub_one_of_lt h)

/-! ### What is hashed -/

/-- The allocations of `encrypt_password`, and the digest, succeed. -/
structure EncryptEnv.Succeeds (env : EncryptEnv) : Prop where
  /-- `crypto_alloc_shash`. -/
  hashTfm : env.hashTfm = true
  /-- `kmalloc` of the descriptor. -/
  desc : env.desc = true
  /-- `kmalloc` of the digest. -/
  digest : env.digest = true
  /-- `crypto_shash_digest`. -/
  ret : env.ret = 0
  /-- `kmalloc` of the result. -/
  result : env.result.isSome

instance EncryptEnv.decidableSucceeds (env : EncryptEnv) : Decidable env.Succeeds :=
  decidable_of_iff (env.hashTfm = true ∧ env.desc = true ∧ env.digest = true ∧ env.ret = 0 ∧
    env.result.isSome) ⟨fun h => ⟨h.1, h.2.1, h.2.2.1, h.2.2.2.1, h.2.2.2.2⟩,
      fun h => ⟨h.1, h.2, h.3, h.4, h.5⟩⟩

/-- The string that is hashed: the path of the program as it was computed, or nothing if an
allocation fails. -/
def Attempt.hashed (a : Attempt) : Option (List UInt8) :=
  if a.encrypt.Succeeds ∧ a.log.kstrdup = true ∧
      PathCall.Returns ⟨a.log.path, a.program.dentry⟩ then
    some (PathCall.string ⟨a.log.path, a.program.dentry⟩)
  else none

/-- The field for what was hashed. -/
def printedHash (sha256 : List UInt8 → Vector UInt8 32) : Option (List UInt8) → List UInt8
  | none => text "(null)"
  | some s => (hexString (sha256 s)).bytes

section Hash

variable {sha256 : List UInt8 → Vector UInt8 32}

theorem blank_notMem_printedHash (s : Option (List UInt8)) : 32 ∉ printedHash sha256 s := by
  cases s with
  | none => exact (by decide +kernel : (32 : UInt8) ∉ text "(null)")
  | some s => exact fun h => absurd (mem_hexString h) (by decide)

/-- `encrypt_password`, by its environment. -/
theorem encryptPassword_eq (env : EncryptEnv) (password : CStr) :
    encryptPassword sha256 env password =
      if env.Succeeds then some (hexString (sha256 password.bytes)) else none := by
  split_ifs with henv
  · obtain ⟨result, hresult⟩ := Option.isSome_iff_exists.mp henv.result
    rw [encryptPassword, if_pos ⟨henv.hashTfm, henv.desc, henv.digest, henv.ret⟩, hresult,
      Option.map_some, ofMem_printDigest]
  · rw [encryptPassword]
    split_ifs with hallocs
    · -- only the result is missing
      have hresult : env.result = none := by
        by_contra hsome
        exact henv ⟨hallocs.1, hallocs.2.1, hallocs.2.2.1, hallocs.2.2.2,
          Option.isSome_iff_ne_none.mpr hsome⟩
      rw [hresult, Option.map_none]
    · rfl

/-- The path in the record. -/
theorem Attempt.exePath_cases {a : Attempt} {data : LogData}
    (h : writeOnLog a.log a.task = some (some data)) :
    (∃ exePath : CStr, data.exePath = some exePath ∧ a.log.kstrdup = true ∧
        PathCall.Returns ⟨a.log.path, a.program.dentry⟩ ∧
        exePath.bytes = PathCall.string ⟨a.log.path, a.program.dentry⟩) ∨
      data.exePath = none ∧
        ¬(a.log.kstrdup = true ∧ PathCall.Returns ⟨a.log.path, a.program.dentry⟩) := by
  -- the record has the duplicate of what `get_path_from_dentry` returned
  have hdata : data.exePath = if a.log.kstrdup then
      (PathCall.path ⟨a.log.path, a.program.dentry⟩).map CString.ofMem else none := by
    by_cases hlog : a.log.logData = true
    · by_cases hwork : a.log.defWork = true
      · simp only [writeOnLog, Attempt.task, hlog, hwork, Bool.not_true, Bool.false_eq_true,
          if_false, if_true, Option.bind_eq_bind, Option.bind_some, Option.pure_def,
          Option.some.injEq] at h
        rw [← h]
        rfl
      · simp [writeOnLog, Attempt.task, hlog, hwork] at h
    · simp [writeOnLog, hlog] at h
  by_cases hpath : a.log.kstrdup = true ∧ PathCall.Returns ⟨a.log.path, a.program.dentry⟩
  · obtain ⟨mem, hmem, hchars⟩ := hpath.2.path
    rw [if_pos hpath.1, hmem, Option.map_some] at hdata
    exact Or.inl ⟨_, hdata, hpath.1, hpath.2, hchars⟩
  · refine Or.inr ⟨?_, hpath⟩
    rw [hdata]
    split_ifs with hdup
    · rw [PathCall.path_eq_none fun hreturns => hpath ⟨hdup, hreturns⟩, Option.map_none]
    · rfl

/-- What is printed as the hash. -/
theorem Attempt.printfString_hash {a : Attempt} {data : LogData} {hash : Option CStr}
    (hdata : writeOnLog a.log a.task = some (some data))
    (hhash : hashOf sha256 a.encrypt data.exePath = some hash) :
    printfString (hash.map CStr.bytes) = printedHash sha256 a.hashed := by
  rcases a.exePath_cases hdata with ⟨exePath, hexe, hdup, hreturns, hbytes⟩ | ⟨hexe, hnot⟩
  · rw [hexe, hashOf, encryptPassword_eq, hbytes] at hhash
    obtain rfl := Option.some.inj hhash
    by_cases henv : a.encrypt.Succeeds
    · rw [Attempt.hashed, if_pos henv, if_pos ⟨henv, hdup, hreturns⟩]
      exact CString.chars_bytes _
    · rw [Attempt.hashed, if_neg henv, if_neg fun h => henv h.1]
      rfl
  · rw [hexe, hashOf] at hhash
    split_ifs at hhash with hallocs
    obtain rfl := Option.some.inj hhash
    rw [Attempt.hashed, if_neg fun h => hnot h.2]
    rfl

/-- The last field of a row is a function of the string that was hashed. -/
theorem fingerprintOf_wholeRow {a : Attempt} {row : List UInt8} (h : a.WholeRow sha256 row) :
    fingerprintOf row = printedHash sha256 a.hashed := by
  obtain ⟨data, hash, hdata, hhash, hrow, hlen⟩ := h
  have hblank : 32 ∉ printedHash sha256 a.hashed := blank_notMem_printedHash a.hashed
  rw [hrow, LogData.row_of_length_lt hlen, LogData.fullText, a.printfString_hash hdata hhash]
  obtain ⟨front, hfront⟩ := rowText_eq data.tid.toInt data.tgid.toInt data.uid.toNat
    data.euid.toNat (printfString (data.exePath.map CStr.bytes)) (printedHash sha256 a.hashed)
  rw [hfront, fingerprintOf_append front hblank]

/-- The field determines what was hashed. -/
theorem printedHash_eq_iff {s t : Option (List UInt8)}
    (hinj : Set.InjOn sha256 {x | s = some x ∨ t = some x}) :
    printedHash sha256 s = printedHash sha256 t ↔ s = t := by
  refine ⟨fun h => ?_, congrArg _⟩
  have hnull : (text "(null)").length = 6 := by decide +kernel
  cases s with
  | none =>
    cases t with
    | none => rfl
    | some t =>
      -- a digest has 64 characters
      have hlen := congrArg List.length h
      rw [printedHash, printedHash, hnull, length_hexString] at hlen
      exact absurd hlen (by decide)
  | some s =>
    cases t with
    | none =>
      have hlen := congrArg List.length h
      rw [printedHash, printedHash, hnull, length_hexString] at hlen
      exact absurd hlen (by decide)
    | some t =>
      have hdigest := hexString_injective (CStr.ext h)
      rw [hinj (Or.inl rfl) (Or.inr rfl) hdigest]

end Hash

/-- For two denied attempts with rows that were not cut, and with SHA-256 injective on the strings
that were hashed: the fingerprints agree exactly when the contents of the programs do, if and only
if the strings that were hashed agree exactly when the contents do. -/
theorem fingerprint_identifies_iff {sha256 : List UInt8 → Vector UInt8 32} {a b : Attempt}
    (hinj : Set.InjOn sha256 {s | a.hashed = some s ∨ b.hashed = some s}) {rowA rowB : List UInt8}
    (hA : a.WholeRow sha256 rowA) (hB : b.WholeRow sha256 rowB) :
    (fingerprintOf rowA = fingerprintOf rowB ↔ a.program.contents = b.program.contents) ↔
      (a.hashed = b.hashed ↔ a.program.contents = b.program.contents) := by
  rw [fingerprintOf_wholeRow hA, fingerprintOf_wholeRow hB, printedHash_eq_iff hinj]

/-- A digest that tells `/a` and `/b` apart. -/
def secondByte (s : List UInt8) : Vector UInt8 32 :=
  Vector.replicate 32 (s.getD 1 0)

/-- An attempt by a program, with all allocations. -/
def attemptBy (program : Program) : Attempt where
  program := program
  pid := 2
  tgid := 2
  uid := 1000
  euid := 1000
  log := ⟨true, ⟨true, some fun _ => 0⟩, true, true⟩
  encrypt := ⟨true, true, true, 0, some (Vector.replicate 65 0), true⟩

/-- The record of such an attempt, for a program at this path. -/
def recordOf (path : CStr) : LogData :=
  ⟨2, 2, 1000, 1000, some path⟩

/-- Its row. -/
def rowOf (path : CStr) : List UInt8 :=
  (recordOf path).row (some (hexString (secondByte path.bytes)))

theorem attemptBy_wholeRow {dentry : Dentry} {path : CStr} (hpath : render dentry = path.bytes)
    (hmax : (render dentry).length < pathMax)
    (hlen : ((recordOf path).fullText (some (hexString (secondByte path.bytes)))).length < rowSize)
    (contents : List UInt8) :
    (attemptBy ⟨dentry, contents⟩).WholeRow secondByte (rowOf path) := by
  refine ⟨recordOf path, _, ?_, ?_, rfl, hlen⟩
  · have hmem : getPathFromDentry (attemptBy ⟨dentry, contents⟩).log.path dentry =
        some (path.bytes ++ [0, 0]) := by
      rw [getPathFromDentry_eq rfl rfl hmax, hpath]
    have hdup : CString.ofMem (path.bytes ++ [0, 0]) = path := CString.ofMem_terminated path [0]
    simp [writeOnLog, Attempt.task, attemptBy, recordOf] at hmem ⊢
    simp [hmem, hdup]
  · rw [recordOf, hashOf, encryptPassword_eq, if_pos ⟨rfl, rfl, rfl, rfl, rfl⟩]

/-- Programs at `/a` and `/b` with different contents have different fingerprints. -/
theorem fingerprint_identifies_paths :
    fingerprintOf (rowOf Blacklist.pathA) = fingerprintOf (rowOf Blacklist.pathB) ↔
      (attemptBy ⟨[nameA], [1]⟩).program.contents =
        (attemptBy ⟨[nameB], [2]⟩).program.contents := by
  have hA : (attemptBy ⟨[nameA], [1]⟩).WholeRow secondByte (rowOf Blacklist.pathA) :=
    attemptBy_wholeRow (by decide) (by decide) (by decide +kernel) [1]
  have hB : (attemptBy ⟨[nameB], [2]⟩).WholeRow secondByte (rowOf Blacklist.pathB) :=
    attemptBy_wholeRow (by decide) (by decide) (by decide +kernel) [2]
  have hhashed : (attemptBy ⟨[nameA], [1]⟩).hashed = some Blacklist.pathA.bytes ∧
      (attemptBy ⟨[nameB], [2]⟩).hashed = some Blacklist.pathB.bytes := by decide +kernel
  refine (fingerprint_identifies_iff ?_ hA hB).mpr ?_
  · rw [hhashed.1, hhashed.2]
    intro s hs t ht h
    simp only [Set.mem_ofPred_eq, Option.some.injEq] at hs ht
    rcases hs with rfl | rfl <;> rcases ht with rfl | rfl
    · rfl
    · exact absurd h (by decide +kernel)
    · exact absurd h (by decide +kernel)
    · rfl
  · rw [hhashed.1, hhashed.2]
    decide

/-- A program that was replaced at its path has the row, and the fingerprint, that it had before. A
copy of a program has another fingerprint. -/
theorem fingerprint_of_path :
    (attemptBy ⟨[nameA], [1]⟩).WholeRow secondByte (rowOf Blacklist.pathA) ∧
      (attemptBy ⟨[nameA], [2]⟩).WholeRow secondByte (rowOf Blacklist.pathA) ∧
      (attemptBy ⟨[nameB], [1]⟩).WholeRow secondByte (rowOf Blacklist.pathB) ∧
      ¬(fingerprintOf (rowOf Blacklist.pathA) = fingerprintOf (rowOf Blacklist.pathA) ↔
        (attemptBy ⟨[nameA], [1]⟩).program.contents =
          (attemptBy ⟨[nameA], [2]⟩).program.contents) ∧
      ¬(fingerprintOf (rowOf Blacklist.pathA) = fingerprintOf (rowOf Blacklist.pathB) ↔
        (attemptBy ⟨[nameA], [1]⟩).program.contents =
          (attemptBy ⟨[nameB], [1]⟩).program.contents) := by
  refine ⟨?_, ?_, ?_, by decide +kernel, by decide +kernel⟩
  · exact attemptBy_wholeRow (by decide) (by decide) (by decide +kernel) [1]
  · exact attemptBy_wholeRow (by decide) (by decide) (by decide +kernel) [2]
  · exact attemptBy_wholeRow (by decide) (by decide) (by decide +kernel) [1]

end StackReferenceMonitor
