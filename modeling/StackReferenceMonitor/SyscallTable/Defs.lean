import Mathlib.Data.List.TakeWhile
import StackReferenceMonitor.Errno
import StackReferenceMonitor.Foundations.Stores

/-!
# The system call table

`get_entries` of `syscall-mount/scth.c`, and of `stack_reference_monitor.c` what `init_module` and
`cleanup_module` do to the system call table: `initialize_syscalls`, and the loop that restores the
entries.

Memory is a word at each address. The entry `i` of the table is at eight times `i` from its
beginning.

## Main definitions

* `getEntries`: `get_entries`, with its three nested loops `firstPair` and `acquireRest`.
* `initializeSyscalls`, `cleanupModule`.

## Main results

* `firstPair_eq_some`: what the search for a pair of equal entries finds;
* `getEntries_eq`: `get_entries` returns the first entries that have the word of that pair.
-/

namespace StackReferenceMonitor

/-- The words of kernel memory. -/
abbrev Memory := ℤ → UInt64

/-- The address of an entry of the table at the address `table`. -/
def entryAddr (table i : ℤ) : ℤ :=
  table + 8 * i

/-- The entries of the table at the address `table`. -/
def Memory.entry (mem : Memory) (table : ℤ) (i : ℕ) : UInt64 :=
  mem (entryAddr table i)

/-! ### Searching the table -/

/-- The entries that are searched. -/
abbrev tableSize : ℕ := 256

/-- `MAX_ACQUIRES`. -/
def maxAcquires : ℤ := 10

/-- The two outer loops of `get_entries`, over the entries that `i` may still be: `z` goes over
those after `i`. The first pair with equal words, and the entries after `z`. -/
def firstPair (p : ℕ → UInt64) : List ℕ → Option (ℕ × ℕ × List ℕ)
  | [] => none
  | i :: is =>
    match is.dropWhile fun z => p i ≠ p z with
    | z :: ks => some (i, z, ks)
    | [] => firstPair p is

/-- Stores one more entry in the array `restore` of `get_entries`, unless there are enough. -/
def acquire (numAcquires : ℤ) (restore : List ℕ) (entry : ℕ) : List ℕ :=
  if restore.length < numAcquires then restore ++ [entry] else restore

/-- The inner loop of `get_entries`, over the entries that `k` may still be. -/
def acquireRest (p : ℕ → UInt64) (addr : UInt64) (numAcquires : ℤ) :
    List ℕ → List ℕ → List ℕ
  | [], restore => restore
  | k :: ks, restore =>
    if restore.length < numAcquires then
      acquireRest p addr numAcquires ks (if addr = p k then restore ++ [k] else restore)
    else restore

/-- `get_entries`: `-1`, or the entries it has acquired, whose number it returns, and the word they
hold. -/
def getEntries (numAcquires : ℤ) (p : ℕ → UInt64) : Option (List ℕ × UInt64) :=
  if numAcquires < 1 then none
  else if numAcquires > maxAcquires then none
  else
    match firstPair p (List.range tableSize) with
    | none => none
    | some (i, z, ks) =>
      let restore := acquire numAcquires (acquire numAcquires [] i) z
      let restore := acquireRest p (p i) numAcquires ks restore
      -- the first pair decides: if it has too few equals, no other is tried
      if restore.length = numAcquires then some (restore, p i) else none

/-! ### Loading and unloading -/

/-- `HACKED_ENTRIES`. -/
abbrev hackedEntries : ℕ := 6

/-- What the module remembers of the table. -/
structure TableGlobals where
  /-- `restore`: the entries that were overwritten. -/
  restore : Fin hackedEntries → ℤ
  /-- `the_ni_syscall`: the word that they held. -/
  theNiSyscall : UInt64

/-- The addresses of the entries in `restore`. -/
def TableGlobals.addrs (g : TableGlobals) (table : ℤ) (i : Fin hackedEntries) : ℤ :=
  entryAddr table (g.restore i)

/-- `initialize_syscalls`: what it returns, what the module remembers, and memory. That the address
of the table is `NULL` is printed, and then it is dereferenced. -/
def initializeSyscalls (syscallsTableAddress : ℤ) (newSysCallArray : Fin hackedEntries → UInt64)
    (g : TableGlobals) (mem : Memory) : Option (ℤ × TableGlobals × Memory) :=
  if syscallsTableAddress = 0 then none
  else
    match getEntries hackedEntries (mem.entry syscallsTableAddress) with
    | none => some (-ERANGE, g, mem)
    | some (entries, addr) =>
      let g : TableGlobals :=
        { restore := fun i => (entries[i.val]?).elim (g.restore i) Nat.cast
          theNiSyscall := addr }
      if entries.length ≠ hackedEntries then some (-ERANGE, g, mem)
      else some (0, g, Stores.storeAll mem (g.addrs syscallsTableAddress) newSysCallArray)

/-- `cleanup_module`, as far as the table is concerned. -/
def cleanupModule (syscallsTableAddress : ℤ) (g : TableGlobals) (mem : Memory) : Memory :=
  Stores.storeAll mem (g.addrs syscallsTableAddress) fun _ => g.theNiSyscall

/-! ### What the search finds -/

section Search

variable {p : ℕ → UInt64} {l : List ℕ}

/-- The entries among `l` that hold the word `w`. -/
def holding (p : ℕ → UInt64) (w : UInt64) (l : List ℕ) : List ℕ :=
  l.filter fun k => w = p k

/-- The first pair of equal words: `z` is the next entry with the word of `i`, no entry before `i`
has it, and each of those before `i` has a word of its own. -/
theorem firstPair_eq_some {i z : ℕ} {ks : List ℕ} (h : firstPair p l = some (i, z, ks)) :
    holding p (p i) l = i :: z :: holding p (p i) ks ∧
      ∃ before after, l = before ++ i :: after ∧ ∀ j ∈ before, holding p (p j) l = [j] := by
  induction l with
  | nil => exact absurd h (by simp [firstPair])
  | cons i₀ is ih =>
    rw [firstPair] at h
    cases hdrop : is.dropWhile fun z => p i₀ ≠ p z with
    | cons z₀ ks₀ =>
      rw [hdrop] at h
      obtain ⟨rfl, rfl, rfl⟩ : i₀ = i ∧ z₀ = z ∧ ks₀ = ks := by simpa using h
      refine ⟨?_, [], is, rfl, fun j hj => absurd hj List.not_mem_nil⟩
      -- what `z` has passed by differs from the word of `i`
      have hpassed : holding p (p i₀) (is.takeWhile fun z => p i₀ ≠ p z) = [] := by
        refine List.filter_eq_nil_iff.mpr fun k hk => ?_
        simpa using List.mem_takeWhile_imp hk
      have hz : p i₀ = p z₀ := by
        have hne : is.dropWhile (fun z => decide (p i₀ ≠ p z)) ≠ [] := by
          rw [hdrop]
          exact List.cons_ne_nil _ _
        have hhead := List.head_dropWhile_not _ hne
        simp only [hdrop, List.head_cons] at hhead
        simpa using hhead
      have hsplit := List.takeWhile_append_dropWhile (p := fun z => decide (p i₀ ≠ p z)) (l := is)
      rw [hdrop] at hsplit
      have hrest : holding p (p i₀) is = z₀ :: holding p (p i₀) ks₀ := by
        rw [← hsplit, holding, List.filter_append, ← holding, hpassed, List.nil_append]
        exact List.filter_cons_of_pos (by simpa using hz)
      rw [holding, List.filter_cons_of_pos (by simp), ← holding, hrest]
    | nil =>
      rw [hdrop] at h
      obtain ⟨hholding, before, after, rfl, hbefore⟩ := ih h
      -- the word of `i₀` does not come again
      have hne : ∀ k ∈ before ++ i :: after, p i₀ ≠ p k := by
        intro k hk
        simpa using List.dropWhile_eq_nil_iff.mp hdrop k hk
      have hskip : ∀ k ∈ before ++ i :: after,
          holding p (p k) (i₀ :: (before ++ i :: after)) =
            holding p (p k) (before ++ i :: after) := by
        intro k hk
        exact List.filter_cons_of_neg (by simpa using (hne k hk).symm)
      refine ⟨by rw [hskip i (by simp), hholding], i₀ :: before, after, rfl, fun j hj => ?_⟩
      rcases List.mem_cons.mp hj with rfl | hj
      · rw [holding, List.filter_cons_of_pos (by simp)]
        congr 1
        exact List.filter_eq_nil_iff.mpr fun k hk => by simpa using hne k hk
      · rw [hskip j (by simp [hj]), hbefore j hj]

/-- Without such a pair, all words differ. -/
theorem firstPair_eq_none (h : firstPair p l = none) : l.Pairwise fun i z => p i ≠ p z := by
  induction l with
  | nil => exact List.Pairwise.nil
  | cons i is ih =>
    rw [firstPair] at h
    cases hdrop : is.dropWhile fun z => p i ≠ p z with
    | cons z ks =>
      rw [hdrop] at h
      exact absurd h (by simp)
    | nil =>
      rw [hdrop] at h
      refine List.pairwise_cons.mpr ⟨fun z hz => ?_, ih h⟩
      simpa using List.dropWhile_eq_nil_iff.mp hdrop z hz

/-- An acquisition, as far as there is room. -/
theorem acquire_of_lt {n : ℕ} {restore : List ℕ} (h : restore.length < n) (entry : ℕ) :
    acquire n restore entry = restore ++ [entry] :=
  if_pos (by exact_mod_cast h)

theorem acquire_of_le {n : ℕ} {restore : List ℕ} (h : n ≤ restore.length) (entry : ℕ) :
    acquire n restore entry = restore :=
  if_neg (by exact_mod_cast Nat.not_lt.mpr h)

/-- The inner loop acquires the next entries with the word, as many as are missing. -/
theorem acquireRest_eq (w : UInt64) (n : ℕ) (ks restore : List ℕ) :
    acquireRest p w n ks restore =
      restore ++ (holding p w ks).take (n - restore.length) := by
  induction ks generalizing restore with
  | nil => simp [acquireRest, holding]
  | cons k ks ih =>
    unfold acquireRest
    by_cases hroom : restore.length < n
    · rw [if_pos (by exact_mod_cast hroom), ih]
      by_cases hk : w = p k
      · rw [if_pos hk, holding, holding, List.filter_cons_of_pos (by simpa using hk),
          List.length_append, List.length_singleton, List.append_assoc, List.singleton_append]
        obtain ⟨m, hm⟩ : ∃ m, n - restore.length = m + 1 := ⟨n - restore.length - 1, by omega⟩
        rw [hm, List.take_succ_cons, show n - (restore.length + 1) = m by omega]
      · rw [if_neg hk, holding, holding, List.filter_cons_of_neg (by simpa using hk)]
    · rw [if_neg (by exact_mod_cast hroom), show n - restore.length = 0 by omega,
        List.take_zero, List.append_nil]

/-- What `get_entries` acquires: the first entries with the word of the first pair, if there are
enough of them. -/
theorem getEntries_eq {n : ℕ} (hpos : 0 < n) (hmax : (n : ℤ) ≤ maxAcquires) {i z : ℕ}
    {ks : List ℕ} (h : firstPair p (List.range tableSize) = some (i, z, ks)) :
    getEntries n p =
      if ((holding p (p i) (List.range tableSize)).take n).length = n then
        some ((holding p (p i) (List.range tableSize)).take n, p i)
      else none := by
  have hacquired : acquireRest p (p i) n ks (acquire n (acquire n [] i) z) =
      (holding p (p i) (List.range tableSize)).take n := by
    have hfirst : acquire n [] i = [i] := acquire_of_lt hpos i
    rw [(firstPair_eq_some h).1, acquireRest_eq, hfirst]
    obtain ⟨m, rfl⟩ : ∃ m, n = m + 1 := ⟨n - 1, by omega⟩
    cases m with
    | zero =>
      -- with one entry asked for, the second acquisition is not made
      rw [acquire_of_le (by simp)]
      simp
    | succ m =>
      rw [acquire_of_lt (by simp)]
      simp
  unfold getEntries
  rw [if_neg (by omega), if_neg (by omega), h]
  simp only [hacquired, Int.natCast_inj]

end Search

end StackReferenceMonitor
