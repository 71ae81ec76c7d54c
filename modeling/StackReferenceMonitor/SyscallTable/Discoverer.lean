import StackReferenceMonitor.SyscallTable.Restore

/-!
# The discoverer and the entries it publishes

`usctm.c` looks for the system call table in kernel memory: a place where seven entries that are
known to be free hold one and the same word, and the entries before the first of them do not. It
publishes the address of the table, and as `free_entries` the entries that hold that word.

The reference monitor is loaded with the address alone, and looks for free entries itself: it takes
the first two entries that are equal. On a table that has some other word twice before its first
free entry, it takes the entries with that word for free.

Whether an address is mapped, which `sys_vtpmo` reads off the page table, is a parameter.

## Main definitions

* `goodArea`, `validatePage`, `syscallTableFinder`, `discover`: the discoverer.
* `Accepted`: the pattern of a table that it accepts.
* `HijacksPublished`: the reference monitor overwrites the first entries of those published.
* `RepeatsAfterFree`: the condition under which it does.

## Main results

* `discover_accepted`: what is found has the pattern, and what is published are the first free
  entries;
* `hijacksPublished_iff`: the reference monitor agrees with the discoverer exactly on the tables in
  which no other word is repeated before the first free entry.
-/

namespace StackReferenceMonitor

/-! ### The discoverer -/

/-- `FIRST_NI_SYSCALL`. -/
abbrev firstNiSyscall : ℕ := 134

/-- `FIRST_NI_SYSCALL` to `SEVENTH_NI_SYSCALL`. -/
def niSyscalls : List ℕ := [firstNiSyscall, 174, 182, 183, 214, 215, 236]

/-- `PAGE_SIZE`. -/
def pageSize : ℤ := 4096

/-- `START`. -/
def startAddr : ℤ := 0xffffffff00000000

/-- `MAX_ADDR`. -/
def maxAddr : ℤ := 0xfffffffffff00000

/-- `good_area`: entry 0 is not looked at. -/
def goodArea (p : ℕ → UInt64) : Bool :=
  (List.range' 1 (firstNiSyscall - 1)).all fun i => p i ≠ p firstNiSyscall

/-- The test of `validate_page` at one place. -/
def looksLikeTable (p : ℕ → UInt64) : Bool :=
  p firstNiSyscall &&& 3 = 0 && p firstNiSyscall ≠ 0 && p firstNiSyscall > 0xffffffff00000000 &&
    (niSyscalls.all fun i => p firstNiSyscall = p i) && goodArea p

/-- The loop of `validate_page` over the places that are left. -/
def validateFrom (mem : Memory) (mapped : ℤ → Bool) (page : ℤ) : List ℤ → Option ℤ
  | [] => none
  | i :: is =>
    let newPage := page + i + 236 * 8
    -- the table would go on in the next page, which is not there
    if page + pageSize = newPage - newPage % pageSize ∧ mapped newPage = false then none
    else if looksLikeTable (mem.entry (page + i)) then some (page + i)
    else validateFrom mem mapped page is

/-- `validate_page`: where in the page the table begins, if it does. -/
def validatePage (mem : Memory) (mapped : ℤ → Bool) (page : ℤ) : Option ℤ :=
  validateFrom mem mapped page ((List.range 512).map fun (n : ℕ) => (8 * n : ℤ))

/-- `syscall_table_finder`: the first page in which a table begins. -/
def syscallTableFinder (mem : Memory) (mapped : ℤ → Bool) : Option ℤ :=
  (List.range ((maxAddr - startAddr) / pageSize).toNat).findSome? fun (n : ℕ) =>
    let candidate := startAddr + pageSize * n
    if mapped candidate then validatePage mem mapped candidate else none

/-- `MAX_FREE`. -/
def maxFree : ℕ := 15

/-- The loop of the discoverer's `init_module` that fills `free_entries`. -/
def collectFree (p : ℕ → UInt64) (ni : UInt64) : List ℕ → List ℕ → List ℕ
  | [], free => free
  | i :: is, free =>
    if ni = p i then
      if maxFree ≤ (free ++ [i]).length then free ++ [i]
      else collectFree p ni is (free ++ [i])
    else collectFree p ni is free

/-- The entries that are published for a table. -/
def freeEntries (p : ℕ → UInt64) (ni : UInt64) : List ℕ :=
  collectFree p ni (List.range tableSize) []

/-- What the discoverer publishes. -/
structure Discovery where
  /-- `sys_call_table_address`. -/
  table : ℤ
  /-- `sys_ni_syscall_address`. -/
  ni : UInt64
  /-- `free_entries`. -/
  free : List ℕ

/-- The discoverer's `init_module`: `-1`, or what it publishes. -/
def discover (mem : Memory) (mapped : ℤ → Bool) : Option Discovery :=
  (syscallTableFinder mem mapped).map fun table =>
    let ni := mem.entry table firstNiSyscall
    { table, ni, free := freeEntries (mem.entry table) ni }

/-! ### Tables that are accepted -/

/-- The seven entries hold the word `ni`, and the entries from 1 on before the first of them do
not. -/
structure Accepted (p : ℕ → UInt64) (ni : UInt64) : Prop where
  /-- The free entries. -/
  free : ∀ i ∈ niSyscalls, p i = ni
  /-- The entries before them. -/
  live : ∀ i, 1 ≤ i → i < firstNiSyscall → p i ≠ ni

instance (p : ℕ → UInt64) (ni : UInt64) : Decidable (Accepted p ni) :=
  decidable_of_iff ((∀ i ∈ niSyscalls, p i = ni) ∧ ∀ i < firstNiSyscall, 1 ≤ i → p i ≠ ni)
    ⟨fun h => ⟨h.1, fun i hlo hhi => h.2 i hhi hlo⟩, fun h => ⟨h.1, fun i hhi hlo => h.2 i hlo hhi⟩⟩

/-- The test of `validate_page` looks for the pattern, among others. -/
theorem Accepted.of_looksLikeTable {p : ℕ → UInt64} (h : looksLikeTable p = true) :
    Accepted p (p firstNiSyscall) := by
  simp only [looksLikeTable, goodArea, Bool.and_eq_true, List.all_eq_true, decide_eq_true_eq] at h
  refine ⟨fun i hi => (h.1.2 i hi).symm, fun i hlo hhi => h.2 i ?_⟩
  rw [List.mem_range'_1]
  omega

theorem looksLikeTable_of_validateFrom {mem : Memory} {mapped : ℤ → Bool} {page table : ℤ}
    {is : List ℤ} (h : validateFrom mem mapped page is = some table) :
    looksLikeTable (mem.entry table) = true ∧ ∃ i ∈ is, table = page + i := by
  induction is with
  | nil => exact absurd h (by simp [validateFrom])
  | cons i is ih =>
    rw [validateFrom] at h
    split_ifs at h with hbreak hlooks
    · obtain rfl := Option.some.inj h
      exact ⟨hlooks, i, List.mem_cons_self, rfl⟩
    · obtain ⟨hfound, j, hj, heq⟩ := ih h
      exact ⟨hfound, j, List.mem_cons_of_mem i hj, heq⟩

/-- The loop publishes the first free entries, as many as there is room for. -/
theorem collectFree_eq (p : ℕ → UInt64) (ni : UInt64) (is : List ℕ) {free : List ℕ}
    (hroom : free.length < maxFree) :
    collectFree p ni is free = free ++ (holding p ni is).take (maxFree - free.length) := by
  induction is generalizing free with
  | nil => simp [collectFree, holding]
  | cons i is ih =>
    unfold collectFree
    by_cases hi : ni = p i
    · have hfilter : holding p ni (i :: is) = i :: holding p ni is :=
        List.filter_cons_of_pos (by simpa using hi)
      obtain ⟨m, hm⟩ : ∃ m, maxFree - free.length = m + 1 :=
        ⟨maxFree - free.length - 1, by omega⟩
      rw [if_pos hi, hfilter, hm, List.take_succ_cons]
      simp only [List.length_append, List.length_singleton]
      split_ifs with hfull
      · -- that was the last one there is room for
        obtain rfl : m = 0 := by omega
        simp
      · rw [ih (by simpa using Nat.not_le.mp hfull), List.length_append, List.length_singleton,
          show maxFree - (free.length + 1) = m by omega]
        simp
    · have hfilter : holding p ni (i :: is) = holding p ni is :=
        List.filter_cons_of_neg (by simpa using hi)
      rw [if_neg hi, ih hroom, hfilter]

theorem freeEntries_eq (p : ℕ → UInt64) (ni : UInt64) :
    freeEntries p ni = (holding p ni (List.range tableSize)).take maxFree := by
  rw [freeEntries, collectFree_eq p ni _ (by decide), List.nil_append]
  rfl

/-- What the discoverer finds is not at `NULL` and has the pattern. -/
theorem discover_accepted {mem : Memory} {mapped : ℤ → Bool} {d : Discovery}
    (h : discover mem mapped = some d) :
    d.table ≠ 0 ∧ Accepted (mem.entry d.table) d.ni ∧
      d.free = freeEntries (mem.entry d.table) d.ni := by
  obtain ⟨table, hfinder, rfl⟩ := Option.map_eq_some_iff.mp h
  obtain ⟨n, -, hpage⟩ := List.exists_of_findSome?_eq_some hfinder
  dsimp only at hpage ⊢
  split_ifs at hpage
  obtain ⟨hlooks, i, hi, rfl⟩ := looksLikeTable_of_validateFrom hpage
  obtain ⟨m, -, rfl⟩ := List.mem_map.mp hi
  refine ⟨?_, .of_looksLikeTable hlooks, rfl⟩
  simp only [startAddr, pageSize]
  omega

/-! ### The two modules on one table -/

/-- The load succeeds, the entries that are overwritten have held `ni`, and they are the first ones
that the discoverer publishes. -/
def HijacksPublished (table : ℤ) (ni : UInt64) (newSysCallArray : Fin hackedEntries → UInt64)
    (g : TableGlobals) (mem : Memory) : Prop :=
  ∃ g' mem', initializeSyscalls table newSysCallArray g mem = some (0, g', mem') ∧
    (∀ i, mem (entryAddr table (g'.restore i)) = ni) ∧
    List.ofFn g'.restore = ((freeEntries (mem.entry table) ni).take hackedEntries).map Nat.cast

/-- An entry that has an equal one after it is free, or comes after a free one. -/
def RepeatsAfterFree (p : ℕ → UInt64) (ni : UInt64) : Prop :=
  ∀ i z, i < z → z < tableSize → p i = p z → p i ≠ ni → ∃ k < i, p k = ni

section Agreement

variable {p : ℕ → UInt64} {ni : UInt64}

/-- A table with the pattern has more free entries than are needed. -/
theorem Accepted.length_holding (h : Accepted p ni) :
    hackedEntries < (holding p ni (List.range tableSize)).length := by
  have hnodup : niSyscalls.Nodup := by decide
  have hsubset : niSyscalls ⊆ holding p ni (List.range tableSize) := by
    intro i hi
    have hlt : ∀ i ∈ niSyscalls, i < tableSize := by decide
    exact List.mem_filter.mpr ⟨List.mem_range.mpr (hlt i hi), by simpa using (h.free i hi).symm⟩
  have hlength := (List.subperm_of_subset hnodup hsubset).length_le
  exact Nat.lt_of_lt_of_le (show hackedEntries < niSyscalls.length by decide) hlength

/-- So it has a first pair of equal words. -/
theorem Accepted.firstPair (h : Accepted p ni) :
    ∃ i z ks, StackReferenceMonitor.firstPair p (List.range tableSize) = some (i, z, ks) := by
  cases hpair : StackReferenceMonitor.firstPair p (List.range tableSize) with
  | some pair => exact ⟨pair.1, pair.2.1, pair.2.2, rfl⟩
  | none =>
    have hdistinct := List.pairwise_iff_getElem.mp (firstPair_eq_none hpair) firstNiSyscall 174
      (by rw [List.length_range]; decide) (by rw [List.length_range]; decide) (by decide)
    simp only [List.getElem_range] at hdistinct
    exact absurd ((h.free _ (by decide)).trans (h.free 174 (by decide)).symm) hdistinct

/-- In the table, the entries before one are those with a lower number. -/
theorem mem_before_iff {n i : ℕ} {before after : List ℕ}
    (h : List.range n = before ++ i :: after) (j : ℕ) : j ∈ before ↔ j < i := by
  have hlength : before.length = i := by
    have hget : (List.range n)[before.length]? = some i := by
      rw [h]
      simp
    exact (List.getElem?_eq_some_iff.mp hget).2 ▸ (List.getElem_range _).symm
  have hbefore : before = (List.range n).take i := by
    rw [h, ← hlength, List.take_left]
  have hi : i < n := by
    have hmem : i ∈ List.range n := by
      rw [h]
      simp
    exact List.mem_range.mp hmem
  rw [hbefore, List.take_range, List.mem_range]
  omega

/-- The first pair is one of free entries exactly when no other word is repeated before them. -/
theorem Accepted.first_eq_iff (h : Accepted p ni) {i z : ℕ} {ks : List ℕ}
    (hpair : StackReferenceMonitor.firstPair p (List.range tableSize) = some (i, z, ks)) :
    p i = ni ↔ RepeatsAfterFree p ni := by
  obtain ⟨hholding, before, after, hsplit, hbefore⟩ := firstPair_eq_some hpair
  have hmem := mem_before_iff hsplit
  constructor
  · intro hi j k hjk hk heq hne
    refine ⟨i, ?_, hi⟩
    by_contra hle
    rcases Nat.lt_or_eq_of_le (Nat.not_lt.mp hle) with hlt | rfl
    · -- the word of an entry before `i` is in no other entry
      have hword : k ∈ holding p (p j) (List.range tableSize) :=
        List.mem_filter.mpr ⟨List.mem_range.mpr hk, by simpa using heq⟩
      rw [hbefore j ((hmem j).mpr hlt), List.mem_singleton] at hword
      omega
    · exact hne hi
  · intro hrepeats
    by_contra hne
    have hz : z ∈ holding p (p i) (List.range tableSize) := by
      rw [hholding]
      simp
    have hlt : i < z := by
      have hsorted : (holding p (p i) (List.range tableSize)).Pairwise (· < ·) :=
        List.pairwise_lt_range.filter _
      rw [hholding] at hsorted
      exact (List.pairwise_cons.mp hsorted).1 z List.mem_cons_self
    obtain ⟨hrange, hword⟩ := List.mem_filter.mp hz
    obtain ⟨k, hk, hfree⟩ := hrepeats i z hlt (List.mem_range.mp hrange) (by simpa using hword) hne
    -- a free entry before `i` would be the only one
    have hone := hbefore k ((hmem k).mpr hk)
    have hlength := h.length_holding
    rw [hfree] at hone
    rw [hone, List.length_singleton] at hlength
    exact absurd hlength (by decide)

/-- A load that gets its entries on a free pair gets the first of those published. -/
theorem ofFn_restore_eq {entries : List ℕ} {w : UInt64} (hlength : entries.length = hackedEntries) :
    List.ofFn (TableGlobals.ofEntries entries w hlength).restore = entries.map Nat.cast := by
  refine List.ext_getElem (by simp [hlength]) fun k hk hk' => ?_
  rw [List.getElem_ofFn, List.getElem_map]
  rfl

end Agreement

/-- What holds of a table on which no other word is repeated before the first free entry. -/
theorem Accepted.hijacksPublished {table : ℤ} (htable : table ≠ 0) {mem : Memory} {ni : UInt64}
    (h : Accepted (mem.entry table) ni) (hrepeats : RepeatsAfterFree (mem.entry table) ni)
    (newSysCallArray : Fin hackedEntries → UInt64) (g : TableGlobals) :
    HijacksPublished table ni newSysCallArray g mem := by
  obtain ⟨i, z, ks, hpair⟩ := h.firstPair
  have hget := getEntries_eq (n := hackedEntries) (by decide) (by decide) hpair
  rw [(h.first_eq_iff hpair).mpr hrepeats, List.length_take_of_le h.length_holding.le,
    if_pos rfl] at hget
  rcases initializeSyscalls_cases htable newSysCallArray g mem with
    ⟨hnone, -⟩ | ⟨entries, w, hlength, hentries, hloads⟩
  · exact absurd (hnone.symm.trans hget) (by simp)
  · obtain ⟨rfl, rfl⟩ := Prod.mk.inj (Option.some.inj (hentries.symm.trans hget))
    refine ⟨_, _, hloads, fun j => ((TableGlobals.ofEntries_spec hlength hentries).2 j).2, ?_⟩
    rw [ofFn_restore_eq, freeEntries_eq, List.take_take]
    rfl

/-- On every table that the discoverer accepts, at an address that is not `NULL`: the reference
monitor succeeds, overwrites free entries only, and these are the first six that are published,
exactly when no other word is repeated in the table before its first free entry. -/
theorem hijacksPublished_iff (table : ℤ) (htable : table ≠ 0) (mem : Memory) (ni : UInt64)
    (h : Accepted (mem.entry table) ni) (newSysCallArray : Fin hackedEntries → UInt64)
    (g : TableGlobals) :
    HijacksPublished table ni newSysCallArray g mem ↔ RepeatsAfterFree (mem.entry table) ni := by
  refine ⟨?_, fun hrepeats => h.hijacksPublished htable hrepeats newSysCallArray g⟩
  rintro ⟨g', mem', hload, hfree, -⟩
  obtain ⟨i, z, ks, hpair⟩ := h.firstPair
  refine (h.first_eq_iff hpair).mp ?_
  rcases initializeSyscalls_cases htable newSysCallArray g mem with
    ⟨-, hfails⟩ | ⟨entries, w, hlength, hentries, hloads⟩
  · rw [hfails] at hload
    have hret : -ERANGE = 0 := congrArg Prod.fst (Option.some.inj hload)
    exact absurd hret (by decide)
  · rw [hloads] at hload
    obtain ⟨-, hrest⟩ := Prod.mk.inj (Option.some.inj hload)
    obtain ⟨rfl, -⟩ := Prod.mk.inj hrest
    -- what is overwritten has the word of the first pair
    obtain ⟨-, -, i', z', ks', hpair', hword⟩ := getEntries_eq_some (by decide) (by decide) hentries
    obtain ⟨rfl, -⟩ := Prod.mk.inj (Option.some.inj (hpair'.symm.trans hpair))
    rw [hword, ← ((TableGlobals.ofEntries_spec hlength hentries).2 ⟨0, by decide⟩).2]
    exact hfree ⟨0, by decide⟩

/-! ### Tables with given free entries -/

/-- A table in which the entries `free` hold one address, and each other one that of its own
function. -/
def tableOfFree (free : List ℕ) (i : ℕ) : UInt64 :=
  if i ∈ free then 0xffffffff81000000 else UInt64.ofNat (0xffffffff81100000 + 256 * i)

/-- No address but that of the free entries is repeated. -/
theorem repeatsAfterFree_tableOfFree (free : List ℕ) :
    RepeatsAfterFree (tableOfFree free) 0xffffffff81000000 := by
  intro i z hlt hz heq hne
  -- a word that is not free says which entry it is in
  have hword : ∀ k, tableOfFree free k ≠ 0xffffffff81000000 → k < tableSize →
      (tableOfFree free k).toNat = 0xffffffff81100000 + 256 * k := by
    intro k hk hlt
    unfold tableOfFree at hk ⊢
    split_ifs at hk ⊢ with hfree
    · exact absurd rfl hk
    · rw [UInt64.toNat_ofNat']
      exact Nat.mod_eq_of_lt (by unfold tableSize at hlt; omega)
  have hi := hword i hne (hlt.trans hz)
  have hz' := hword z (heq ▸ hne) hz
  rw [heq] at hi
  omega

/-- Without repeated live entries, the entries that are overwritten are those published. -/
theorem hijacksPublished_iff_distinct :
    looksLikeTable (tableOfFree niSyscalls) = true ∧
      HijacksPublished tableAddr 0xffffffff81000000 moduleText noEntries
        (memoryOf tableAddr (tableOfFree niSyscalls)) := by
  refine ⟨by decide +kernel, ?_⟩
  refine (hijacksPublished_iff tableAddr (by decide) _ 0xffffffff81000000 ?_ _ _).mpr ?_
  · rw [entry_memoryOf]
    decide +kernel
  · rw [entry_memoryOf]
    exact repeatsAfterFree_tableOfFree niSyscalls

/-- The same with one address in the first `n` entries from 1 on. -/
def repeatedTable (n i : ℕ) : UInt64 :=
  if 1 ≤ i ∧ i ≤ n then 0xffffffff81000040 else tableOfFree niSyscalls i

/-- Two live entries that are equal make the load fail. Six of them are overwritten. -/
theorem repeated_not_published :
    (looksLikeTable (repeatedTable 2) = true ∧ Accepted (repeatedTable 2) 0xffffffff81000000 ∧
      initializeSyscalls tableAddr moduleText noEntries (memoryOf tableAddr (repeatedTable 2)) =
        some (-ERANGE, noEntries, memoryOf tableAddr (repeatedTable 2)) ∧
      ¬HijacksPublished tableAddr 0xffffffff81000000 moduleText noEntries
        (memoryOf tableAddr (repeatedTable 2))) ∧
    looksLikeTable (repeatedTable 6) = true ∧ Accepted (repeatedTable 6) 0xffffffff81000000 ∧
      ∃ g mem, initializeSyscalls tableAddr moduleText noEntries
          (memoryOf tableAddr (repeatedTable 6)) = some (0, g, mem) ∧
        List.ofFn g.restore = [1, 2, 3, 4, 5, 6] ∧
        ¬HijacksPublished tableAddr 0xffffffff81000000 moduleText noEntries
          (memoryOf tableAddr (repeatedTable 6)) := by
  have htwo : getEntries hackedEntries (repeatedTable 2) = none := by decide +kernel
  have hsix : getEntries hackedEntries (repeatedTable 6) =
      some ([1, 2, 3, 4, 5, 6], 0xffffffff81000040) := by
    decide +kernel
  have hfails : initializeSyscalls tableAddr moduleText noEntries
      (memoryOf tableAddr (repeatedTable 2)) =
        some (-ERANGE, noEntries, memoryOf tableAddr (repeatedTable 2)) := by
    rw [initializeSyscalls, if_neg (by decide), entry_memoryOf, htwo]
  refine ⟨⟨by decide +kernel, by decide +kernel, hfails, ?_⟩, by decide +kernel,
    by decide +kernel, ?_⟩
  · rintro ⟨g, mem, hload, -⟩
    have hret : -ERANGE = 0 := congrArg Prod.fst (Option.some.inj (hfails.symm.trans hload))
    exact absurd hret (by decide)
  · rcases initializeSyscalls_cases (show tableAddr ≠ 0 by decide) moduleText noEntries
        (memoryOf tableAddr (repeatedTable 6)) with
      ⟨hnone, -⟩ | ⟨entries, w, hlength, hentries, hloads⟩
    · rw [entry_memoryOf, hsix] at hnone
      exact absurd hnone (by simp)
    · rw [entry_memoryOf, hsix] at hentries
      obtain ⟨rfl, rfl⟩ := Prod.mk.inj (Option.some.inj hentries)
      refine ⟨_, _, hloads, rfl, ?_⟩
      rintro ⟨g, mem, hload, hfree, -⟩
      obtain ⟨-, hrest⟩ := Prod.mk.inj (Option.some.inj (hloads.symm.trans hload))
      obtain ⟨rfl, -⟩ := Prod.mk.inj hrest
      have hlive : memoryOf tableAddr (repeatedTable 6) (entryAddr tableAddr 1) =
          0xffffffff81000000 := hfree ⟨0, by decide⟩
      exact absurd hlive (by decide +kernel)

end StackReferenceMonitor
