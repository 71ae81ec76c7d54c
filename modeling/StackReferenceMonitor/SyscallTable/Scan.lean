import Mathlib.Order.Bounds.Basic
import StackReferenceMonitor.SyscallTable.Discoverer
import StackReferenceMonitor.SyscallTable.Vtpmo

/-!
# The scan of kernel memory

The discoverer once more, with every read of memory as one that faults if its address is not
mapped, and with the answers of `sys_vtpmo`. It asks for the first page of a place, and for the page
of its entry 236 if that is another one. These are the entries that the pattern needs. The loop that
publishes the free entries goes on to entry 255, and no one asks for that.

## Main definitions

* `validatePageReads`, `syscallTableFinderReads`, `discoverReads`: the discoverer.
* `AddressSpace`: memory by pages that are mapped or not.
* `KernelTables`: page tables for the addresses that are scanned.
* `AddressSpace.TableAt`: the places that the scan looks for.

## Main results

* `discoverReads_kernelTables`: what the discoverer finds, and when it faults.
-/

namespace StackReferenceMonitor

open Paging (Phys leaf translate tableOf)

/-! ### The discoverer, read by read -/

section Reads

variable (read : ℤ → Option UInt64) (vtpmo : ℤ → Option ℤ)

/-- The loop of `good_area`, over what `i` may still be. -/
def goodAreaReads (addr : ℤ) : List ℕ → Option Bool
  | [] => some true
  | i :: is => do
    if (← read (entryAddr addr i)) = (← read (entryAddr addr firstNiSyscall)) then return false
    else goodAreaReads addr is

/-- The comparisons of `validate_page` with the first free entry. -/
def sameWordReads (addr : ℤ) : List ℕ → Option Bool
  | [] => some true
  | i :: is => do
    if (← read (entryAddr addr firstNiSyscall)) = (← read (entryAddr addr i)) then
      sameWordReads addr is
    else return false

/-- The test of `validate_page` at one place, in which each condition is only looked at if those
before it hold. -/
def looksLikeTableReads (addr : ℤ) : Option Bool := do
  let first ← read (entryAddr addr firstNiSyscall)
  if first &&& 3 = 0 ∧ first ≠ 0 ∧ first > 0xffffffff00000000 then
    if ← sameWordReads read addr niSyscalls then
      goodAreaReads read addr (List.range' 1 (firstNiSyscall - 1))
    else return false
  else return false

/-- Whether the table would go on in a second page that is not there. -/
def secondPageMissing (page newPage : ℤ) : Option Bool :=
  if page + pageSize = newPage - newPage % pageSize then
    (vtpmo newPage).map fun frame => decide (frame = noMap)
  else some false

/-- The loop of `validate_page` over the places that are left. -/
def validateFromReads (page : ℤ) : List ℤ → Option (Option ℤ)
  | [] => some none
  | i :: is => do
    if ← secondPageMissing vtpmo page (page + i + 236 * 8) then return none
    else if ← looksLikeTableReads read (page + i) then return some (page + i)
    else validateFromReads page is

/-- `validate_page`. -/
def validatePageReads (page : ℤ) : Option (Option ℤ) :=
  validateFromReads read vtpmo page ((List.range 512).map fun (n : ℕ) => (8 * n : ℤ))

/-- The loop of `syscall_table_finder` over the pages that are left. -/
def finderFromReads : List ℤ → Option (Option ℤ)
  | [] => some none
  | candidate :: ks => do
    if (← vtpmo candidate) ≠ noMap then
      match ← validatePageReads read vtpmo candidate with
      | some table => return some table
      | none => finderFromReads ks
    else finderFromReads ks

/-- The pages that `syscall_table_finder` goes through. -/
def candidates : List ℤ :=
  (List.range ((maxAddr - startAddr) / pageSize).toNat).map fun (n : ℕ) => startAddr + pageSize * n

/-- The loop of `init_module` that fills `free_entries`. -/
def collectFreeReads (table : ℤ) (ni : UInt64) : List ℕ → List ℕ → Option (List ℕ)
  | [], free => some free
  | i :: is, free => do
    if ni = (← read (entryAddr table i)) then
      if maxFree ≤ (free ++ [i]).length then return free ++ [i]
      else collectFreeReads table ni is (free ++ [i])
    else collectFreeReads table ni is free

/-- The discoverer's `init_module`: `-1`, or what it publishes, unless it faults. -/
def discoverReads : Option (Option Discovery) := do
  match ← finderFromReads read vtpmo candidates with
  | none => return none
  | some table =>
    -- `hacked_ni_syscall`
    let ni ← read (entryAddr table firstNiSyscall)
    let free ← collectFreeReads read table ni (List.range tableSize) []
    return some { table, ni, free }

end Reads

/-! ### Address spaces -/

/-- Kernel memory, in which whole pages are mapped or not. -/
structure AddressSpace where
  /-- The words of the pages that are mapped. -/
  mem : Memory
  /-- Whether an address is mapped. -/
  mapped : ℤ → Bool
  /-- The addresses of a page are mapped or not together. -/
  paged : ∀ a b, a / pageSize = b / pageSize → mapped a = mapped b

namespace AddressSpace

variable (s : AddressSpace)

/-- The read of a word. -/
def read (a : ℤ) : Option UInt64 :=
  if s.mapped a then some (s.mem a) else none

/-- The function answers `NO_MAP` exactly for what is not mapped, at the addresses of the scan. -/
def AnsweredBy (vtpmo : ℤ → Option ℤ) : Prop :=
  ∀ a, startAddr ≤ a → a < maxAddr + 2 * pageSize →
    ∃ frame, vtpmo a = some frame ∧ (frame = noMap ↔ s.mapped a = false)

/-- A place that the scan looks for: its page and that of its entry 236 are mapped, and the words
there look like the table. -/
structure TableAt (a : ℤ) : Prop where
  /-- It is not before the pages that are scanned. -/
  lower : startAddr ≤ a
  /-- It is not behind them. -/
  upper : a < maxAddr
  /-- It is the place of a word. -/
  aligned : a % 8 = 0
  /-- Its page. -/
  first : s.mapped a = true
  /-- The page of its entry 236. -/
  last : s.mapped (entryAddr a 236) = true
  /-- The pattern. -/
  pattern : looksLikeTable (s.mem.entry a) = true

/-- All entries are mapped that are read before `free_entries` is full. -/
def FreeReadable (table : ℤ) (ni : UInt64) : Prop :=
  ∀ j < tableSize, s.mapped (entryAddr table j) = true ∨
    maxFree ≤ (holding (s.mem.entry table) ni (List.range j)).length

instance (table : ℤ) (ni : UInt64) : Decidable (s.FreeReadable table ni) :=
  Nat.decidableBallLT tableSize _

/-! ### The scan reads what is mapped -/

section Scan

variable {s} {vtpmo : ℤ → Option ℤ}

theorem read_of_mapped {a : ℤ} (h : s.mapped a = true) : s.read a = some (s.mem a) := by
  rw [read, if_pos h]

theorem goodAreaReads_eq {addr : ℤ} (hfirst : s.mapped (entryAddr addr firstNiSyscall) = true)
    {is : List ℕ} (h : ∀ i ∈ is, s.mapped (entryAddr addr i) = true) :
    goodAreaReads s.read addr is =
      some (is.all fun i => s.mem.entry addr i ≠ s.mem.entry addr firstNiSyscall) := by
  induction is with
  | nil => rfl
  | cons i is ih =>
    rw [List.forall_mem_cons] at h
    rw [goodAreaReads, read_of_mapped h.1, read_of_mapped hfirst, ih h.2, List.all_cons]
    show (if s.mem.entry addr i = s.mem.entry addr firstNiSyscall then _ else _) = _
    split_ifs with heq <;> simp [heq]

theorem sameWordReads_eq {addr : ℤ} (hfirst : s.mapped (entryAddr addr firstNiSyscall) = true)
    {is : List ℕ} (h : ∀ i ∈ is, s.mapped (entryAddr addr i) = true) :
    sameWordReads s.read addr is =
      some (is.all fun i => s.mem.entry addr firstNiSyscall = s.mem.entry addr i) := by
  induction is with
  | nil => rfl
  | cons i is ih =>
    rw [List.forall_mem_cons] at h
    rw [sameWordReads, read_of_mapped hfirst, read_of_mapped h.1, ih h.2, List.all_cons]
    show (if s.mem.entry addr firstNiSyscall = s.mem.entry addr i then _ else _) = _
    split_ifs with heq <;> simp [heq]

/-- The test of a place reads no entry after 236. -/
theorem looksLikeTableReads_eq {addr : ℤ}
    (h : ∀ i ≤ 236, s.mapped (entryAddr addr (i : ℕ)) = true) :
    looksLikeTableReads s.read addr = some (looksLikeTable (s.mem.entry addr)) := by
  have hfirst := h firstNiSyscall (by decide)
  have hni : ∀ i ∈ niSyscalls, s.mapped (entryAddr addr i) = true :=
    fun i hi => h i ((by decide : ∀ i ∈ niSyscalls, i ≤ 236) i hi)
  have harea : ∀ i ∈ List.range' 1 (firstNiSyscall - 1), s.mapped (entryAddr addr i) = true := by
    intro i hi
    rw [List.mem_range'_1, firstNiSyscall] at hi
    exact h i (by omega)
  rw [looksLikeTableReads, read_of_mapped hfirst, sameWordReads_eq hfirst hni,
    goodAreaReads_eq hfirst harea]
  set p := s.mem.entry addr with hp
  change (if p firstNiSyscall &&& 3 = 0 ∧ p firstNiSyscall ≠ 0 ∧
      p firstNiSyscall > 0xffffffff00000000 then
    if (niSyscalls.all fun i => p firstNiSyscall = p i) = true then some (goodArea p)
    else some false
    else some false) = some (looksLikeTable p)
  unfold looksLikeTable
  split_ifs with hword hsame
  · simp [hword, hsame]
  · simp [hsame]
  · refine congrArg some (Eq.symm (Bool.eq_false_iff.mpr fun h => hword ?_))
    simp only [Bool.and_eq_true, decide_eq_true_eq] at h
    exact ⟨h.1.1.1.1, h.1.1.1.2, h.1.1.2⟩

/-- At a place in a page, the entries up to 236 are in that page or in that of entry 236. -/
theorem mapped_entry {page i : ℤ} (hpage : page % pageSize = 0) (hlo : 0 ≤ i) (hhi : i < pageSize)
    (hfirst : s.mapped page = true) (hlast : s.mapped (entryAddr (page + i) 236) = true) (j : ℕ)
    (hj : j ≤ 236) : s.mapped (entryAddr (page + i) j) = true := by
  unfold entryAddr pageSize at *
  by_cases hsame : (page + i + 8 * j) / 4096 = page / 4096
  · rw [s.paged _ page hsame, hfirst]
  · rw [s.paged _ (page + i + 8 * 236) (by unfold pageSize; omega), hlast]

/-- The entry 236 is in the first page, or in the one that the loop of `validate_page` asks for. -/
theorem mapped_last {page i : ℤ} (hpage : page % pageSize = 0) (hlo : 0 ≤ i) (hhi : i < pageSize)
    (hfirst : s.mapped page = true)
    (h : ¬(page + pageSize = page + i + 236 * 8 - (page + i + 236 * 8) % pageSize ∧
      s.mapped (page + i + 236 * 8) = false)) :
    s.mapped (entryAddr (page + i) 236) = true := by
  rw [not_and_or, Bool.not_eq_false] at h
  unfold entryAddr pageSize at *
  rcases h with hsame | hmapped
  · rw [s.paged _ page (by unfold pageSize; omega), hfirst]
  · rw [s.paged _ (page + i + 236 * 8) (by unfold pageSize; omega), hmapped]

/-- While the second page of a place is mapped, or is the first one, the loop goes on. -/
theorem validateFromReads_eq (hvtpmo : s.AnsweredBy vtpmo) {page : ℤ} (hpage : page % pageSize = 0)
    (hlower : startAddr ≤ page) (hupper : page < maxAddr) (hfirst : s.mapped page = true)
    {is : List ℤ} (h : ∀ i ∈ is, 0 ≤ i ∧ i < pageSize) :
    validateFromReads s.read vtpmo page is = some (validateFrom s.mem s.mapped page is) := by
  induction is with
  | nil => rfl
  | cons i is ih =>
    rw [List.forall_mem_cons] at h
    obtain ⟨⟨hlo, hhi⟩, his⟩ := h
    obtain ⟨frame, hframe, hmapped⟩ := hvtpmo (page + i + 236 * 8)
      (by omega) (by unfold pageSize at *; omega)
    have hmissing : secondPageMissing vtpmo page (page + i + 236 * 8) =
        some (decide (page + pageSize = page + i + 236 * 8 - (page + i + 236 * 8) % pageSize ∧
          s.mapped (page + i + 236 * 8) = false)) := by
      rw [secondPageMissing, hframe, Option.map_some]
      split_ifs with hsecond
      · simp only [hmapped, eq_true hsecond, true_and]
      · simp only [hsecond, false_and, decide_false]
    rw [validateFromReads, validateFrom, hmissing, Option.bind_eq_bind, Option.bind_some]
    by_cases hstop : page + pageSize = page + i + 236 * 8 - (page + i + 236 * 8) % pageSize ∧
        s.mapped (page + i + 236 * 8) = false
    · rw [if_pos hstop, if_pos (decide_eq_true hstop)]
      rfl
    · have hentries := mapped_entry hpage hlo hhi hfirst (mapped_last hpage hlo hhi hfirst hstop)
      rw [if_neg hstop, if_neg (by simpa using hstop), looksLikeTableReads_eq hentries,
        Option.bind_some, ih his]
      split_ifs <;> rfl

/-- The table begins at a place of a page. -/
def beginsAt (s : AddressSpace) (page i : ℤ) : Bool :=
  s.mapped (entryAddr (page + i) 236) && looksLikeTable (s.mem.entry (page + i))

/-- The loop stops at a place whose second page is not mapped. No place after it has one. -/
theorem validateFrom_eq_find {page : ℤ} (hpage : page % pageSize = 0)
    (hfirst : s.mapped page = true) {is : List ℤ} (h : ∀ i ∈ is, 0 ≤ i ∧ i < pageSize)
    (hsorted : is.Pairwise (· < ·)) :
    validateFrom s.mem s.mapped page is = (is.find? (s.beginsAt page)).map (page + ·) := by
  induction is with
  | nil => rfl
  | cons i is ih =>
    rw [List.forall_mem_cons] at h
    rw [List.pairwise_cons] at hsorted
    obtain ⟨⟨hlo, hhi⟩, his⟩ := h
    rw [validateFrom]
    split_ifs with hstop hlooks
    · refine (Option.map_eq_none_iff.mpr (List.find?_eq_none.mpr fun j hj => ?_)).symm
      have hj' : i ≤ j ∧ j < pageSize := by
        rcases List.mem_cons.mp hj with rfl | hmem
        · exact ⟨le_rfl, hhi⟩
        · exact ⟨(hsorted.1 j hmem).le, (his j hmem).2⟩
      -- its entry 236 is in the page that is not mapped
      have hpages : entryAddr (page + j) 236 / pageSize = (page + i + 236 * 8) / pageSize := by
        have hsecond := hstop.1
        unfold entryAddr pageSize at *
        omega
      rw [beginsAt, s.paged _ _ hpages, hstop.2]
      simp
    · have hlast := mapped_last hpage hlo hhi hfirst hstop
      rw [List.find?_cons_of_pos (by simp [beginsAt, hlast, hlooks]), Option.map_some]
    · rw [List.find?_cons_of_neg (by simp [beginsAt, hlooks]), ih his hsorted.2]

/-! ### It finds the first place -/

/-- The places of a page. -/
def places : List ℤ :=
  (List.range 512).map fun (n : ℕ) => (8 * n : ℤ)

theorem mem_places {i : ℤ} : i ∈ places ↔ (0 ≤ i ∧ i < pageSize) ∧ i % 8 = 0 := by
  unfold places pageSize
  rw [List.mem_map]
  constructor
  · rintro ⟨n, hn, rfl⟩
    rw [List.mem_range] at hn
    omega
  · intro h
    exact ⟨(i / 8).toNat, List.mem_range.mpr (by omega), by omega⟩

theorem pairwise_places : places.Pairwise (· < ·) := by
  refine List.pairwise_map.mpr (List.pairwise_lt_range.imp fun h => ?_)
  omega

theorem mem_candidates {k : ℤ} :
    k ∈ candidates ↔ startAddr ≤ k ∧ k < maxAddr ∧ k % pageSize = 0 := by
  unfold candidates startAddr maxAddr pageSize
  rw [List.mem_map]
  constructor
  · rintro ⟨n, hn, rfl⟩
    rw [List.mem_range] at hn
    omega
  · intro h
    exact ⟨((k - 0xffffffff00000000) / 4096).toNat, List.mem_range.mpr (by omega), by omega⟩

theorem pairwise_candidates : candidates.Pairwise (· < ·) := by
  refine List.pairwise_map.mpr (List.pairwise_lt_range.imp fun h => ?_)
  unfold pageSize
  omega

/-- The first element of an ascending list that passes a test is the least one. -/
theorem le_of_find?_eq_some {p : ℤ → Bool} {l : List ℤ} {a : ℤ} (hsorted : l.Pairwise (· < ·))
    (h : l.find? p = some a) {b : ℤ} (hb : b ∈ l) (hp : p b = true) : a ≤ b := by
  obtain ⟨-, as, bs, rfl, hbefore⟩ := List.find?_eq_some_iff_append.mp h
  rcases List.mem_append.mp hb with hmem | hmem
  · exact absurd hp (by simpa using hbefore b hmem)
  · rcases List.mem_cons.mp hmem with rfl | hmem
    · exact le_rfl
    · have hafter := (List.pairwise_append.mp hsorted).2.1
      exact ((List.pairwise_cons.mp hafter).1 b hmem).le

section Page

variable {page : ℤ} (hpage : page % pageSize = 0) (hlower : startAddr ≤ page)
  (hupper : page < maxAddr) (hfirst : s.mapped page = true)
include hpage hlower hupper hfirst

/-- The places that are looked for in a page that is mapped. -/
theorem tableAt_iff {a : ℤ} (ha : a / pageSize = page / pageSize) :
    s.TableAt a ↔ a - page ∈ places ∧ s.beginsAt page (a - page) = true := by
  rw [beginsAt, add_sub_cancel, mem_places, Bool.and_eq_true]
  constructor
  · intro h
    have haligned := h.aligned
    unfold pageSize at *
    exact ⟨by omega, h.last, h.pattern⟩
  · rintro ⟨⟨hmem, haligned⟩, hlast, hpattern⟩
    unfold startAddr maxAddr pageSize at *
    refine ⟨by unfold startAddr; omega, by unfold maxAddr; omega, by omega, ?_, hlast, hpattern⟩
    rw [s.paged a page ha, hfirst]

omit hlower hupper in
theorem validatePage_eq :
    validatePage s.mem s.mapped page = (places.find? (s.beginsAt page)).map (page + ·) :=
  validateFrom_eq_find hpage hfirst (fun _ hi => (mem_places.mp hi).1) pairwise_places

/-- The first place of a page is found. -/
theorem validatePage_eq_some {t : ℤ} (h : validatePage s.mem s.mapped page = some t) :
    s.TableAt t ∧ t / pageSize = page / pageSize ∧
      ∀ a, s.TableAt a → a / pageSize = page / pageSize → t ≤ a := by
  rw [validatePage_eq hpage hfirst] at h
  obtain ⟨i, hfind, rfl⟩ := Option.map_eq_some_iff.mp h
  have hmem := List.mem_of_find?_eq_some hfind
  have hsame : (page + i) / pageSize = page / pageSize := by
    have hi := (mem_places.mp hmem).1
    unfold pageSize at *
    omega
  refine ⟨(tableAt_iff hpage hlower hupper hfirst hsame).mpr ?_, hsame, fun a ha hpage' => ?_⟩
  · rw [add_sub_cancel_left]
    exact ⟨hmem, List.find?_some hfind⟩
  · obtain ⟨hplace, hbegins⟩ := (tableAt_iff hpage hlower hupper hfirst hpage').mp ha
    have hle := le_of_find?_eq_some pairwise_places hfind hplace hbegins
    omega

theorem validatePage_eq_none (h : validatePage s.mem s.mapped page = none) {a : ℤ}
    (ha : a / pageSize = page / pageSize) : ¬s.TableAt a := by
  rw [validatePage_eq hpage hfirst, Option.map_eq_none_iff, List.find?_eq_none] at h
  intro htable
  obtain ⟨hplace, hbegins⟩ := (tableAt_iff hpage hlower hupper hfirst ha).mp htable
  exact h _ hplace hbegins

end Page

/-- A page of the scan: the first place in it, if it is mapped. -/
def inPage (s : AddressSpace) (k : ℤ) : Option ℤ :=
  if s.mapped k then validatePage s.mem s.mapped k else none

theorem syscallTableFinder_eq :
    syscallTableFinder s.mem s.mapped = candidates.findSome? s.inPage := by
  rw [candidates, List.findSome?_map]
  rfl

theorem finderFromReads_eq (hvtpmo : s.AnsweredBy vtpmo) {ks : List ℤ}
    (h : ∀ k ∈ ks, k ∈ candidates) :
    finderFromReads s.read vtpmo ks = some (ks.findSome? s.inPage) := by
  induction ks with
  | nil => rfl
  | cons k ks ih =>
    rw [List.forall_mem_cons] at h
    obtain ⟨hlower, hupper, hpage⟩ := mem_candidates.mp h.1
    obtain ⟨frame, hframe, hmapped⟩ := hvtpmo k hlower (by unfold pageSize; omega)
    rw [finderFromReads, hframe, List.findSome?_cons, inPage, ih h.2, Option.bind_eq_bind,
      Option.bind_some]
    by_cases hk : s.mapped k = true
    · have hreads : validatePageReads s.read vtpmo k = some (validatePage s.mem s.mapped k) :=
        validateFromReads_eq hvtpmo hpage hlower hupper hk fun _ hi => (mem_places.mp hi).1
      rw [if_pos (mt hmapped.mp (by simp [hk])), if_pos hk, hreads, Option.bind_eq_bind,
        Option.bind_some]
      cases validatePage s.mem s.mapped k <;> rfl
    · rw [if_neg (not_not_intro (hmapped.mpr (by simpa using hk))), if_neg hk]

/-- What is found in one page of the scan. -/
theorem inPage_eq_some {k t : ℤ} (hk : k ∈ candidates) (h : s.inPage k = some t) :
    s.TableAt t ∧ t / pageSize = k / pageSize ∧
      ∀ a, s.TableAt a → a / pageSize = k / pageSize → t ≤ a := by
  obtain ⟨hlower, hupper, hpage⟩ := mem_candidates.mp hk
  rw [inPage] at h
  split_ifs at h with hmapped
  exact validatePage_eq_some hpage hlower hupper hmapped h

theorem inPage_eq_none {k : ℤ} (hk : k ∈ candidates) (h : s.inPage k = none) {a : ℤ}
    (ha : a / pageSize = k / pageSize) : ¬s.TableAt a := by
  obtain ⟨hlower, hupper, hpage⟩ := mem_candidates.mp hk
  rw [inPage] at h
  split_ifs at h with hmapped
  · exact validatePage_eq_none hpage hlower hupper hmapped h ha
  · intro htable
    exact hmapped (s.paged a k ha ▸ htable.first)

/-- The page of a place is scanned. -/
theorem TableAt.page {a : ℤ} (h : s.TableAt a) : a / pageSize * pageSize ∈ candidates := by
  have hlower := h.lower
  have hupper := h.upper
  refine mem_candidates.mpr ?_
  unfold startAddr maxAddr pageSize at *
  omega

/-- The entries of a place up to 236 are mapped. -/
theorem TableAt.mapped_entry {a : ℤ} (h : s.TableAt a) {j : ℕ} (hj : j ≤ 236) :
    s.mapped (entryAddr a j) = true := by
  obtain ⟨-, -, hpage⟩ := mem_candidates.mp h.page
  have hfirst := h.first
  rw [s.paged a (a / pageSize * pageSize) (Int.mul_ediv_cancel _ (by decide)).symm] at hfirst
  have hmapped := AddressSpace.mapped_entry (i := a - a / pageSize * pageSize) hpage
    (by unfold pageSize; omega) (by unfold pageSize; omega) hfirst
    (by rw [add_sub_cancel]; exact h.last) j hj
  rwa [add_sub_cancel] at hmapped

/-- The finder stops at the least place. -/
theorem isLeast_of_finder {t : ℤ} (h : candidates.findSome? s.inPage = some t) :
    IsLeast {a | s.TableAt a} t := by
  obtain ⟨before, k, after, hsplit, hk, hbefore⟩ := List.findSome?_eq_some_iff.mp h
  have hmem : ∀ x ∈ before ++ k :: after, x ∈ candidates := fun x hx => hsplit ▸ hx
  obtain ⟨htable, hpage, hleast⟩ := inPage_eq_some (hmem k (by simp)) hk
  refine ⟨htable, fun a ha => ?_⟩
  have hcandidate := ha.page
  have hsame : a / pageSize * pageSize / pageSize = a / pageSize :=
    Int.mul_ediv_cancel _ (by decide)
  rw [hsplit] at hcandidate
  have hsorted := hsplit ▸ pairwise_candidates
  rcases List.mem_append.mp hcandidate with hearlier | hlater
  · -- nothing was found in the pages before
    exact absurd ha (inPage_eq_none (hmem _ hcandidate) (hbefore _ hearlier) hsame.symm)
  · rcases List.mem_cons.mp hlater with heq | hafter
    · exact hleast a ha (by rw [← heq, hsame])
    · have hlt := (List.pairwise_cons.mp (List.pairwise_append.mp hsorted).2.1).1 _ hafter
      unfold pageSize at *
      omega

theorem not_tableAt_of_finder (h : candidates.findSome? s.inPage = none) (a : ℤ) :
    ¬s.TableAt a := by
  intro ha
  have hnone := List.findSome?_eq_none_iff.mp h _ ha.page
  exact inPage_eq_none ha.page hnone (Int.mul_ediv_cancel _ (by decide)).symm ha

/-! ### The entries that are published -/

section Publish

variable {table : ℤ} {ni : UInt64} {is free : List ℕ} {i : ℕ}

theorem collectFreeReads_cons_of_mapped (h : s.mapped (entryAddr table i) = true) :
    collectFreeReads s.read table ni (i :: is) free =
      if ni = s.mem.entry table i then
        if maxFree ≤ (free ++ [i]).length then some (free ++ [i])
        else collectFreeReads s.read table ni is (free ++ [i])
      else collectFreeReads s.read table ni is free := by
  rw [collectFreeReads, read_of_mapped h]
  split_ifs <;> simp_all [Memory.entry]

theorem collectFreeReads_cons_of_not_mapped (h : ¬s.mapped (entryAddr table i) = true) :
    collectFreeReads s.read table ni (i :: is) free = none := by
  rw [collectFreeReads, read, if_neg h]
  split_ifs <;> rfl

/-- A loop that reads all it comes to publishes what the loop without faults does. -/
theorem collectFreeReads_eq_some {r : List ℕ}
    (h : collectFreeReads s.read table ni is free = some r) :
    r = collectFree (s.mem.entry table) ni is free := by
  induction is generalizing free with
  | nil => exact (Option.some.inj h).symm
  | cons i is ih =>
    by_cases hmapped : s.mapped (entryAddr table i) = true
    · rw [collectFreeReads_cons_of_mapped hmapped] at h
      rw [collectFree]
      split_ifs at h ⊢
      · exact (Option.some.inj h).symm
      · exact ih h
      · exact ih h
    · rw [collectFreeReads_cons_of_not_mapped hmapped] at h
      exact absurd h (by simp)

/-- The loop comes to an entry if `free_entries` is not full before. -/
theorem isSome_collectFreeReads_iff (hroom : free.length < maxFree) :
    (collectFreeReads s.read table ni is free).isSome ↔
      ∀ k, (hk : k < is.length) → s.mapped (entryAddr table is[k]) = true ∨
        maxFree ≤ free.length + (holding (s.mem.entry table) ni (is.take k)).length := by
  induction is generalizing free with
  | nil => simp [collectFreeReads]
  | cons i is ih =>
    by_cases hmapped : s.mapped (entryAddr table i) = true
    swap
    · rw [collectFreeReads_cons_of_not_mapped hmapped]
      refine iff_of_false (by simp) fun h => ?_
      rcases h 0 (by simp) with hfirst | hfull
      · exact hmapped hfirst
      · simp [holding] at hfull
        omega
    rw [collectFreeReads_cons_of_mapped hmapped]
    -- the first entry is read, and the others are those of the rest
    have hrest : (∀ k, (hk : k < (i :: is).length) →
        s.mapped (entryAddr table (i :: is)[k]) = true ∨
          maxFree ≤ free.length + (holding (s.mem.entry table) ni ((i :: is).take k)).length) ↔
        ∀ k, (hk : k < is.length) → s.mapped (entryAddr table is[k]) = true ∨
          maxFree ≤ free.length + (holding (s.mem.entry table) ni (i :: is.take k)).length := by
      constructor
      · intro h k hk
        exact h (k + 1) (by simpa using hk)
      · intro h k hk
        cases k with
        | zero => exact Or.inl hmapped
        | succ k => exact h k (by simpa using hk)
    rw [hrest]
    split_ifs with hfree hfull
    · refine iff_of_true rfl fun k _ => Or.inr ?_
      rw [holding, List.filter_cons_of_pos (by simpa using hfree)]
      rw [List.length_append, List.length_singleton] at hfull
      rw [List.length_cons]
      omega
    · rw [ih (by simpa using hfull)]
      simp [holding, hfree, Nat.add_assoc, Nat.add_comm 1]
    · rw [ih hroom]
      simp [holding, hfree]

end Publish

theorem collectFreeReads_eq (table : ℤ) (ni : UInt64) :
    collectFreeReads s.read table ni (List.range tableSize) [] =
      if s.FreeReadable table ni then some (freeEntries (s.mem.entry table) ni) else none := by
  have hsome : (collectFreeReads s.read table ni (List.range tableSize) []).isSome ↔
      s.FreeReadable table ni := by
    rw [isSome_collectFreeReads_iff (by decide)]
    simp only [List.length_range, List.getElem_range, List.take_range, List.length_nil,
      Nat.zero_add]
    refine forall₂_congr fun k hk => ?_
    rw [Nat.min_eq_left hk.le]
  cases hcollect : collectFreeReads s.read table ni (List.range tableSize) [] with
  | none =>
    rw [hcollect] at hsome
    rw [if_neg (mt hsome.mpr (by simp))]
  | some free =>
    rw [hcollect] at hsome
    rw [if_pos (hsome.mp rfl), collectFreeReads_eq_some hcollect, freeEntries]

section Discover

variable (hvtpmo : s.AnsweredBy vtpmo)
include hvtpmo

theorem discoverReads_of_none (hfound : candidates.findSome? s.inPage = none) :
    discoverReads s.read vtpmo = some none := by
  rw [discoverReads, finderFromReads_eq hvtpmo (fun _ h => h), hfound]
  rfl

theorem discoverReads_of_some {t : ℤ} {ni : UInt64}
    (hfound : candidates.findSome? s.inPage = some t)
    (hni : s.mem.entry t firstNiSyscall = ni) :
    discoverReads s.read vtpmo =
      if s.FreeReadable t ni then some (some ⟨t, ni, freeEntries (s.mem.entry t) ni⟩)
      else none := by
  have hentry : s.read (entryAddr t firstNiSyscall) = some ni := by
    rw [← hni]
    exact read_of_mapped ((isLeast_of_finder hfound).1.mapped_entry (by decide))
  rw [discoverReads, finderFromReads_eq hvtpmo (fun _ h => h), hfound, Option.bind_eq_bind,
    Option.bind_some]
  dsimp only
  rw [hentry, Option.bind_eq_bind, Option.bind_some, collectFreeReads_eq]
  split_ifs <;> rfl

/-- A discoverer that does not fault finds what the one without faults does. -/
theorem discoverReads_eq_some {r : Option Discovery} (h : discoverReads s.read vtpmo = some r) :
    r = discover s.mem s.mapped := by
  rw [discover, syscallTableFinder_eq]
  cases hfound : candidates.findSome? s.inPage with
  | none =>
    rw [discoverReads_of_none hvtpmo hfound] at h
    exact (Option.some.inj h).symm
  | some t =>
    rw [discoverReads_of_some hvtpmo hfound rfl] at h
    split_ifs at h
    exact (Option.some.inj h).symm

/-- The discoverer publishes the least place, if it can read the entries there that it wants to
publish. -/
theorem discoverReads_eq :
    ((∀ a, ¬s.TableAt a) → discoverReads s.read vtpmo = some none) ∧
      ∀ t ni, IsLeast {a | s.TableAt a} t → s.mem.entry t firstNiSyscall = ni →
        discoverReads s.read vtpmo =
          if s.FreeReadable t ni then some (some ⟨t, ni, freeEntries (s.mem.entry t) ni⟩)
          else none := by
  cases hfound : candidates.findSome? s.inPage with
  | none =>
    exact ⟨fun _ => discoverReads_of_none hvtpmo hfound,
      fun t ni ht _ => absurd ht.1 (not_tableAt_of_finder hfound t)⟩
  | some t =>
    have hleast := isLeast_of_finder hfound
    refine ⟨fun hnone => absurd hleast.1 (hnone t), fun t' ni ht hni => ?_⟩
    obtain rfl : t' = t := ht.unique hleast
    exact discoverReads_of_some hvtpmo hfound hni

end Discover

end Scan

end AddressSpace

/-! ### With page tables -/

/-- Page tables that `sys_vtpmo` can go through for the addresses that are scanned, and on which it
does not take a frame number for `NO_MAP`. -/
structure KernelTables where
  /-- Physical memory. -/
  phys : Phys
  /-- The register `cr3`. -/
  cr3 : UInt64
  /-- It holds a physical address. -/
  root : cr3.toNat < 2 ^ 52
  /-- The tables. -/
  walkable : ∀ v : ℕ, startAddr ≤ v → v < 2 ^ 64 → Walkable phys v 3 (tableOf cr3)
  /-- The frame numbers. -/
  frames : ∀ v : ℕ, startAddr ≤ v → v < 2 ^ 64 →
    ∀ x ∈ leaf phys v 3 (tableOf cr3), ¬FrameOfOnes x.2

namespace KernelTables

variable (k : KernelTables)

/-- Memory as the processor sees it. -/
def space : AddressSpace where
  mem a := ((translate k.phys (tableOf k.cr3) a.toNat).map k.phys).getD 0
  mapped a := (translate k.phys (tableOf k.cr3) a.toNat).isSome
  paged := by
    intro a b h
    refine Paging.isSome_translate_congr ?_ _ _
    unfold pageSize at h
    omega

/-- The answer of `sys_vtpmo` for an address. -/
def vtpmo (a : ℤ) : Option ℤ :=
  sysVtpmo k.phys k.cr3 (UInt64.ofNat a.toNat)

theorem answeredBy : k.space.AnsweredBy k.vtpmo := by
  intro a hlower hupper
  have hlt : a.toNat < 2 ^ 64 := by
    unfold maxAddr pageSize at hupper
    omega
  have hstart : startAddr ≤ a.toNat := hlower.trans (Int.self_le_toNat a)
  have ha : (UInt64.ofNat a.toNat).toNat = a.toNat := UInt64.toNat_ofNat_of_lt' hlt
  have hwalkable := k.walkable _ hstart hlt
  rw [← ha] at hwalkable
  refine ⟨_, sysVtpmo_eq k.root hwalkable, ?_⟩
  rw [vtpmoResult_eq_noMap_iff, ha, or_iff_left, ← Paging.translate_eq_none_iff, space,
    Option.isSome_eq_false_iff, Option.isNone_iff_eq_none]
  rintro ⟨x, hx, hones⟩
  exact k.frames _ hstart hlt x hx hones

end KernelTables

/-- On such page tables the discoverer never reads an address that is not mapped in its search, and
finds the least place that looks like the table. It returns `-1` if there is none. Otherwise it
publishes the place and the first entries that are free, unless it comes to an entry that is not
mapped before it has 15 of them: then it faults. -/
theorem discoverReads_kernelTables (k : KernelTables) :
    ((∀ a, ¬k.space.TableAt a) → discoverReads k.space.read k.vtpmo = some none) ∧
      (∀ t ni, IsLeast {a | k.space.TableAt a} t → k.space.mem.entry t firstNiSyscall = ni →
        discoverReads k.space.read k.vtpmo =
          if k.space.FreeReadable t ni then
            some (some ⟨t, ni, freeEntries (k.space.mem.entry t) ni⟩)
          else none) ∧
      ∀ r, discoverReads k.space.read k.vtpmo = some r →
        r = discover k.space.mem k.space.mapped := by
  obtain ⟨hnone, hsome⟩ := AddressSpace.discoverReads_eq k.answeredBy
  exact ⟨hnone, hsome, fun r => AddressSpace.discoverReads_eq_some k.answeredBy⟩

/-- Four tables that map every page to the same one, and in that page a system call table. -/
def repeatedPage (p : ℕ) : UInt64 :=
  if p < 0x5000 then UInt64.ofNat ((p / 0x1000 + 1) * 0x1000 + 1)
  else if (p - 0x5000) / 8 ∈ niSyscalls then 0xffffffff81000000 else 1

/-- The table of each level points to the next one, and the last one to the page. -/
theorem entryAt_repeatedPage (level vaddr : ℕ) (hlevel : level < 4) :
    Paging.entryAt repeatedPage ((4 - level) * 0x1000) level vaddr =
      UInt64.ofNat ((5 - level) * 0x1000 + 1) := by
  have hindex : Paging.index level vaddr < 512 := Nat.mod_lt _ (by decide)
  rw [Paging.entryAt, repeatedPage, if_pos (by omega)]
  congr 3
  omega

/-- The entry of a table, and the table that it points to. -/
theorem repeatedPage_entry (vaddr level : ℕ) (hlevel : level < 4) {table : ℕ}
    (htable : table = (4 - level) * 0x1000) :
    ∃ w, Paging.entryAt repeatedPage table level vaddr = w ∧ Paging.Present w ∧ ¬Paging.Large w ∧
      Plain w ∧ tableOf w = (5 - level) * 0x1000 := by
  subst htable
  have hword : ∀ level < 4, ∀ w, UInt64.ofNat ((5 - level) * 0x1000 + 1) = w →
      Paging.Present w ∧ ¬Paging.Large w ∧ Plain w ∧ tableOf w = (5 - level) * 0x1000 := by
    rintro level hlevel w rfl
    revert level
    decide
  exact ⟨_, rfl, hword level hlevel _ (entryAt_repeatedPage level vaddr hlevel).symm⟩

theorem walkable_repeatedPage (vaddr level : ℕ) (hlevel : level < 4) {table : ℕ}
    (htable : table = (4 - level) * 0x1000) : Walkable repeatedPage vaddr level table := by
  induction level generalizing table with
  | zero =>
    obtain ⟨w, hw, -, -, hplain, -⟩ := repeatedPage_entry vaddr 0 hlevel htable
    rw [Walkable, hw]
    exact fun _ => hplain
  | succ level ih =>
    obtain ⟨w, hw, -, hsmall, hplain, hnext⟩ := repeatedPage_entry vaddr _ hlevel htable
    rw [Nat.succ_sub_succ] at hnext
    rw [Walkable, hw]
    exact fun _ => ⟨hplain, fun h => hsmall h.1, fun _ => ih (by omega) hnext⟩

theorem leaf_repeatedPage (vaddr level : ℕ) (hlevel : level < 4) {table : ℕ}
    (htable : table = (4 - level) * 0x1000) :
    leaf repeatedPage vaddr level table = some (0, UInt64.ofNat 0x5001) := by
  induction level generalizing table with
  | zero =>
    obtain ⟨w, hw, hpresent, -⟩ := repeatedPage_entry vaddr 0 hlevel htable
    rw [Paging.leaf_zero_of_present (hw ▸ hpresent), htable, entryAt_repeatedPage 0 vaddr hlevel]
  | succ level ih =>
    obtain ⟨w, hw, hpresent, hsmall, -, hnext⟩ := repeatedPage_entry vaddr _ hlevel htable
    rw [Nat.succ_sub_succ] at hnext
    rw [Paging.leaf_of_table (hw ▸ hpresent) (fun h => hsmall (hw ▸ h.1)), hw]
    exact ih (by omega) hnext

/-- The page tables of `repeatedPage`. -/
def repeatedTables : KernelTables where
  phys := repeatedPage
  cr3 := 0x1000
  root := by decide
  walkable v _ _ := walkable_repeatedPage v 3 (by decide) (by decide)
  frames v _ _ x hx := by
    rw [leaf_repeatedPage v 3 (by decide) (by decide)] at hx
    obtain rfl := Option.some.inj hx
    decide

theorem translate_repeatedTables (a : ℤ) :
    translate repeatedPage (tableOf 0x1000) a.toNat = some (0x5000 + a.toNat % 2 ^ 12) := by
  rw [Paging.translate, leaf_repeatedPage _ 3 (by decide) (by decide)]
  rfl

/-- The page is everywhere, so the first place is the first address of the scan. -/
theorem discoverReads_kernelTables_repeatedTables :
    discoverReads repeatedTables.space.read repeatedTables.vtpmo =
      some (some ⟨startAddr, 0xffffffff81000000, [134, 174, 182, 183, 214, 215, 236]⟩) := by
  have hmapped : ∀ a, repeatedTables.space.mapped a = true := by
    intro a
    show (translate repeatedPage (tableOf 0x1000) a.toNat).isSome = true
    rw [translate_repeatedTables, Option.isSome_some]
  have hentry : repeatedTables.space.mem.entry startAddr = fun (i : ℕ) =>
      repeatedPage (0x5000 + (entryAddr startAddr i).toNat % 2 ^ 12) := by
    funext i
    show (((translate repeatedPage (tableOf 0x1000) _).map repeatedPage).getD 0) = _
    rw [translate_repeatedTables]
    rfl
  have hreadable : repeatedTables.space.FreeReadable startAddr 0xffffffff81000000 :=
    fun j _ => Or.inl (hmapped _)
  have hleast : IsLeast {a | repeatedTables.space.TableAt a} startAddr := by
    refine ⟨⟨le_rfl, by decide, by decide, hmapped _, hmapped _, ?_⟩,
      fun _ => AddressSpace.TableAt.lower⟩
    rw [hentry]
    decide +kernel
  rw [(discoverReads_kernelTables repeatedTables).2.1 startAddr 0xffffffff81000000 hleast
    (by rw [hentry]; decide +kernel), if_pos hreadable, hentry,
    show freeEntries (fun (i : ℕ) => repeatedPage (0x5000 + (entryAddr startAddr i).toNat % 2 ^ 12))
      0xffffffff81000000 = [134, 174, 182, 183, 214, 215, 236] by decide +kernel]

end StackReferenceMonitor
