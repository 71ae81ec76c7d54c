import StackReferenceMonitor.SyscallTable.Defs

/-!
# Loading and unloading the module

The entries that `initialize_syscalls` overwrites are saved as one word, which stands for all of
them. That `cleanup_module` puts the table back as it was takes that the entries are pairwise
distinct and that they held the same word. `get_entries` sees to both.

## Main definitions

* `Installed`: what a load that succeeds has done to the table.

## Main results

* `getEntries_spec`: the entries that `get_entries` returns;
* `initializeSyscalls_cases`: the two outcomes of `initialize_syscalls`;
* `installed_of_initializeSyscalls`: what it has done when it returns zero;
* `load_unload`: a load that fails leaves memory as it was, and one that succeeds is undone by
  `cleanup_module`.
-/

namespace StackReferenceMonitor

/-- The table after a load that has succeeded, and what the module remembers of it. -/
structure Installed (table : ℤ) (newSysCallArray : Fin hackedEntries → UInt64) (mem mem' : Memory)
    (g : TableGlobals) : Prop where
  /-- The entries are entries of the table. -/
  in_range : ∀ i, 0 ≤ g.restore i ∧ g.restore i < tableSize
  /-- They are pairwise distinct. -/
  distinct : Function.Injective g.restore
  /-- No other word of memory has changed. -/
  others : ∀ a, (∀ i, a ≠ entryAddr table (g.restore i)) → mem' a = mem a
  /-- Each holds the address of its system call. -/
  entries : ∀ i, mem' (entryAddr table (g.restore i)) = newSysCallArray i
  /-- They have all held the same word. -/
  same : ∀ i j, mem (entryAddr table (g.restore i)) = mem (entryAddr table (g.restore j))
  /-- Unloading gives back memory as it was. -/
  unloaded : cleanupModule table g mem' = mem

section Entries

variable {p : ℕ → UInt64} {entries : List ℕ} {w : UInt64}

/-- What `get_entries` returns are the first entries with the word of the first pair. -/
theorem getEntries_eq_some {n : ℕ} (hpos : 0 < n) (hmax : (n : ℤ) ≤ maxAcquires)
    (h : getEntries n p = some (entries, w)) :
    entries = (holding p w (List.range tableSize)).take n ∧ entries.length = n ∧
      ∃ i z ks, firstPair p (List.range tableSize) = some (i, z, ks) ∧ p i = w := by
  cases hpair : firstPair p (List.range tableSize) with
  | none =>
    refine absurd h ?_
    rw [getEntries, if_neg (by omega), if_neg (by omega), hpair]
    simp
  | some pair =>
    obtain ⟨i, z, ks⟩ := pair
    rw [getEntries_eq hpos hmax hpair] at h
    split_ifs at h with hlength
    obtain ⟨rfl, rfl⟩ := Prod.mk.inj (Option.some.inj h)
    exact ⟨rfl, hlength, i, z, ks, rfl, rfl⟩

/-- They are distinct entries of the table that hold the word. -/
theorem getEntries_spec {n : ℕ} (hpos : 0 < n) (hmax : (n : ℤ) ≤ maxAcquires)
    (h : getEntries n p = some (entries, w)) :
    entries.Nodup ∧ ∀ k ∈ entries, k < tableSize ∧ p k = w := by
  obtain ⟨rfl, -, -⟩ := getEntries_eq_some hpos hmax h
  have hsublist : ((holding p w (List.range tableSize)).take n).Sublist
      (holding p w (List.range tableSize)) := List.take_sublist _ _
  constructor
  · exact (List.nodup_range.filter _).sublist hsublist
  · intro k hk
    have hmem := List.mem_filter.mp (hsublist.subset hk)
    exact ⟨List.mem_range.mp hmem.1, by simpa using (of_decide_eq_true hmem.2).symm⟩

end Entries

section Load

variable {table : ℤ} {newSysCallArray : Fin hackedEntries → UInt64} {g : TableGlobals}
  {mem : Memory}

/-- The array `restore` after the entries were copied to it. -/
def TableGlobals.ofEntries (entries : List ℕ) (w : UInt64) (h : entries.length = hackedEntries) :
    TableGlobals where
  restore := fun i => (entries.get (i.cast h.symm) : ℕ)
  theNiSyscall := w

/-- `initialize_syscalls` fails and changes nothing, or it has got its entries and overwrites
them. -/
theorem initializeSyscalls_cases (htable : table ≠ 0)
    (newSysCallArray : Fin hackedEntries → UInt64) (g : TableGlobals) (mem : Memory) :
    (getEntries hackedEntries (mem.entry table) = none ∧
        initializeSyscalls table newSysCallArray g mem = some (-ERANGE, g, mem)) ∨
      ∃ entries w, ∃ h : entries.length = hackedEntries,
        getEntries hackedEntries (mem.entry table) = some (entries, w) ∧
        initializeSyscalls table newSysCallArray g mem =
          some (0, .ofEntries entries w h,
            Stores.storeAll mem ((TableGlobals.ofEntries entries w h).addrs table)
              newSysCallArray) := by
  unfold initializeSyscalls
  rw [if_neg htable]
  cases hentries : getEntries hackedEntries (mem.entry table) with
  | none => exact Or.inl ⟨rfl, rfl⟩
  | some found =>
    obtain ⟨entries, w⟩ := found
    have hlength := (getEntries_eq_some (by decide) (by decide) hentries).2.1
    refine Or.inr ⟨entries, w, hlength, rfl, ?_⟩
    -- all six elements of `restore` are written
    have hrestore : (fun i : Fin hackedEntries =>
        (entries[i.val]?).elim (g.restore i) (Nat.cast : ℕ → ℤ)) =
          (TableGlobals.ofEntries entries w hlength).restore := by
      ext i
      rw [List.getElem?_eq_getElem (by rw [hlength]; exact i.isLt)]
      rfl
    simp only [hlength, hrestore, ne_eq, not_true_eq_false, if_false]
    rfl

/-- The entries that are overwritten are distinct entries of the table, and hold the word. -/
theorem TableGlobals.ofEntries_spec {entries : List ℕ} {w : UInt64}
    (hlength : entries.length = hackedEntries)
    (h : getEntries hackedEntries (mem.entry table) = some (entries, w)) :
    Function.Injective (ofEntries entries w hlength).restore ∧
      ∀ i, (0 ≤ (ofEntries entries w hlength).restore i ∧
          (ofEntries entries w hlength).restore i < tableSize) ∧
        mem (entryAddr table ((ofEntries entries w hlength).restore i)) = w := by
  obtain ⟨hnodup, hmem⟩ := getEntries_spec (by decide) (by decide) h
  constructor
  · intro i j hij
    have hget := List.nodup_iff_injective_get.mp hnodup (Int.natCast_inj.mp hij)
    exact Fin.cast_injective _ hget
  · intro i
    obtain ⟨hlt, hword⟩ := hmem _ (List.get_mem entries (i.cast hlength.symm))
    exact ⟨⟨Int.natCast_nonneg _, Int.ofNat_lt.mpr hlt⟩, hword⟩

/-- Distinct entries are at distinct addresses. -/
theorem entryAddr_injective (table : ℤ) : Function.Injective (entryAddr table) := by
  intro i j h
  unfold entryAddr at h
  omega

/-- What `initialize_syscalls` has done when it returns zero. -/
theorem installed_of_initializeSyscalls {g' : TableGlobals} {mem' : Memory}
    (h : initializeSyscalls table newSysCallArray g mem = some (0, g', mem')) :
    Installed table newSysCallArray mem mem' g' := by
  have htable : table ≠ 0 := by
    rintro rfl
    exact absurd h (by simp [initializeSyscalls])
  rcases initializeSyscalls_cases htable newSysCallArray g mem with
    ⟨-, hfails⟩ | ⟨entries, w, hlength, hentries, hloads⟩
  · have hret : -ERANGE = 0 := congrArg Prod.fst (Option.some.inj (hfails.symm.trans h))
    exact absurd hret (by decide)
  · obtain ⟨-, hrest⟩ := Prod.mk.inj (Option.some.inj (hloads.symm.trans h))
    obtain ⟨rfl, rfl⟩ := Prod.mk.inj hrest
    obtain ⟨hinj, hspec⟩ := TableGlobals.ofEntries_spec hlength hentries
    have hinj' : Function.Injective ((TableGlobals.ofEntries entries w hlength).addrs table) :=
      (entryAddr_injective table).comp hinj
    exact
      { in_range := fun i => (hspec i).1
        distinct := hinj
        others := fun a ha => Stores.storeAll_of_ne ha mem newSysCallArray
        entries := fun i => Stores.storeAll_apply hinj' mem newSysCallArray i
        same := fun i j => (hspec i).2.trans (hspec j).2.symm
        -- the one word that is saved is the old word of each
        unloaded := Stores.storeAll_storeAll hinj' fun i => (hspec i).2 }

/-- For every content of memory, with the table at an address that is not `NULL`: if
`initialize_syscalls` fails it leaves memory as it was, and if it succeeds, it has overwritten six
distinct entries that held one and the same word, and `cleanup_module` gives back memory as it
was. -/
theorem load_unload (table : ℤ) (htable : table ≠ 0)
    (newSysCallArray : Fin hackedEntries → UInt64) (g : TableGlobals) (mem : Memory) :
    ∃ ret g' mem', initializeSyscalls table newSysCallArray g mem = some (ret, g', mem') ∧
      (ret ≠ 0 → mem' = mem) ∧ (ret = 0 → Installed table newSysCallArray mem mem' g') := by
  rcases initializeSyscalls_cases htable newSysCallArray g mem with
    ⟨-, hfails⟩ | ⟨entries, w, hlength, hentries, hloads⟩
  · exact ⟨_, _, _, hfails, fun _ => rfl, fun hret => absurd hret (by decide)⟩
  · exact ⟨_, _, _, hloads, fun hret => absurd rfl hret,
      fun _ => installed_of_initializeSyscalls hloads⟩

end Load

/-! ### A table of equal entries -/

/-- A memory with the given table at an address. -/
def memoryOf (table : ℤ) (p : ℕ → UInt64) : Memory :=
  fun a => p ((a - table) / 8).toNat

theorem entry_memoryOf (table : ℤ) (p : ℕ → UInt64) : (memoryOf table p).entry table = p := by
  ext i
  have hindex : ((entryAddr table i - table) / 8).toNat = i := by
    unfold entryAddr
    omega
  rw [Memory.entry, memoryOf, hindex]

/-- Before the first load. -/
def noEntries : TableGlobals :=
  ⟨fun _ => -1, 0⟩

/-- Where the functions of the module are. -/
def moduleText (i : Fin hackedEntries) : UInt64 :=
  UInt64.ofNat (0xffffffffc0001000 + 256 * i)

theorem moduleText_injective : Function.Injective moduleText := by
  unfold Function.Injective
  decide +kernel

/-- The address of the table. -/
def tableAddr : ℤ := 0xffffffff82000300

/-- A table whose words are all `0`: the load succeeds, and is undone. -/
theorem load_unload_zeros :
    ∃ g' mem', initializeSyscalls tableAddr moduleText noEntries (fun _ => 0) = some (0, g', mem') ∧
      Installed tableAddr moduleText (fun _ => 0) mem' g' := by
  obtain ⟨ret, g', mem', hload, -, hinstalled⟩ :=
    load_unload tableAddr (by decide) moduleText noEntries fun _ => 0
  have hret : (initializeSyscalls tableAddr moduleText noEntries fun _ => 0).map Prod.fst =
      some 0 := by decide +kernel
  obtain rfl : ret = 0 := by simpa [hload] using hret
  exact ⟨g', mem', hload, hinstalled rfl⟩

end StackReferenceMonitor
