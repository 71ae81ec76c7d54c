import StackReferenceMonitor.Foundations.MachineInt
import StackReferenceMonitor.Foundations.Paging

/-!
# Is an address mapped?

`sys_vtpmo` of `lib/vtpmo.c`, which the discoverer asks before it reads kernel memory. It goes
through the page tables by hand, and returns a frame number as an `int`, or `NO_MAP`.

It takes an entry's bits up to 62 for its address, which goes up to bit 51, and it does not know
pages of 1 GiB. A frame number whose low 32 bits are ones comes out as `NO_MAP`.

## Main definitions

* `sysVtpmo`: the function.
* `Walkable`: page tables that it can go through.

## Main results

* `sysVtpmo_spec`: what the number says that it returns.
-/

namespace StackReferenceMonitor

open MachineInt (signed)
open Paging (Phys Present Large entryAt tableOf leaf translate field index)

/-! ### The function -/

/-- `NO_MAP`. -/
def noMap : ℤ := -1

/-- `ADDRESS_MASK`. -/
def addressMask : UInt64 := 0xfffffffffffff000

/-- `PT_ADDRESS_MASK`. -/
def ptAddressMask : UInt64 := 0x7ffffffffffff000

/-- `VALID`. -/
def validBit : UInt64 := 0x1

/-- `LH_MAPPING`. -/
def lhMapping : UInt64 := 0x80

/-- `PML4`. -/
def pml4Index (addr : UInt64) : UInt64 := (addr >>> 39) &&& 0x1ff

/-- `PDP`. -/
def pdpIndex (addr : UInt64) : UInt64 := (addr >>> 30) &&& 0x1ff

/-- `PDE`. -/
def pdeIndex (addr : UInt64) : UInt64 := (addr >>> 21) &&& 0x1ff

/-- `PTE`. -/
def pteIndex (addr : UInt64) : UInt64 := (addr >>> 12) &&& 0x1ff

/-- The entry of a table that is read through `__va`. The direct mapping has no address beyond the
physical ones, and the read of one faults. -/
def readEntry (phys : Phys) (table index : UInt64) : Option UInt64 :=
  if table.toNat + 8 * index.toNat < 2 ^ 52 then some (phys (table.toNat + 8 * index.toNat))
  else none

/-- `frame_number`, which is an `int`. -/
def frameNumber (w : UInt64) : ℤ :=
  signed 32 ((w &&& ptAddressMask) >>> 12).toNat

/-- `sys_vtpmo`. -/
def sysVtpmo (phys : Phys) (cr3 vaddr : UInt64) : Option ℤ := do
  let pml4e ← readEntry phys (cr3 &&& addressMask) (pml4Index vaddr)
  if pml4e &&& validBit = 0 then return noMap
  let pdpe ← readEntry phys (pml4e &&& ptAddressMask) (pdpIndex vaddr)
  if pdpe &&& validBit = 0 then return noMap
  let pde ← readEntry phys (pdpe &&& ptAddressMask) (pdeIndex vaddr)
  if pde &&& validBit = 0 then return noMap
  if pde &&& lhMapping ≠ 0 then return frameNumber pde
  let pte ← readEntry phys (pde &&& ptAddressMask) (pteIndex vaddr)
  if pte &&& validBit = 0 then return noMap
  return frameNumber pte

/-! ### Its steps -/

theorem and_validBit_eq_zero_iff (w : UInt64) : w &&& validBit = 0 ↔ ¬Present w := by
  rw [Present, ← UInt64.toNat_inj, UInt64.toNat_and, show validBit.toNat = 1 from rfl,
    show (0 : UInt64).toNat = 0 from rfl, Nat.and_one_is_mod, Nat.testBit_zero, decide_eq_true_eq]
  omega

theorem and_lhMapping_ne_zero_iff (w : UInt64) : w &&& lhMapping ≠ 0 ↔ Large w := by
  have hbit := Nat.and_two_pow w.toNat 7
  rw [Ne, ← UInt64.toNat_inj, UInt64.toNat_and, show lhMapping.toNat = 2 ^ 7 from rfl, hbit,
    show (0 : UInt64).toNat = 0 from rfl, Large]
  cases w.toNat.testBit 7 <;> simp

theorem toNat_and_ptAddressMask (w : UInt64) :
    (w &&& ptAddressMask).toNat = field 12 63 w.toNat := by
  rw [UInt64.toNat_and]
  exact Paging.and_eq_field rfl

theorem toNat_and_addressMask (w : UInt64) :
    (w &&& addressMask).toNat = field 12 64 w.toNat := by
  rw [UInt64.toNat_and]
  exact Paging.and_eq_field rfl

/-- The four indices are those of the four levels. -/
theorem toNat_index (addr shift : UInt64) {level : ℕ}
    (h : shift.toNat % 64 = 12 + 9 * level) :
    ((addr >>> shift) &&& 0x1ff).toNat = index level addr.toNat := by
  rw [UInt64.toNat_and, UInt64.toNat_shiftRight, h, Nat.shiftRight_eq_div_pow, index]
  exact Nat.and_two_pow_sub_one_eq_mod _ 9

theorem toNat_pml4Index (addr : UInt64) : (pml4Index addr).toNat = index 3 addr.toNat :=
  toNat_index addr 39 rfl

theorem toNat_pdpIndex (addr : UInt64) : (pdpIndex addr).toNat = index 2 addr.toNat :=
  toNat_index addr 30 rfl

theorem toNat_pdeIndex (addr : UInt64) : (pdeIndex addr).toNat = index 1 addr.toNat :=
  toNat_index addr 21 rfl

theorem toNat_pteIndex (addr : UInt64) : (pteIndex addr).toNat = index 0 addr.toNat :=
  toNat_index addr 12 rfl

/-- An entry that uses no bit beyond its address. -/
def Plain (w : UInt64) : Prop :=
  w.toNat % 2 ^ 63 < 2 ^ 52

instance (w : UInt64) : Decidable (Plain w) := inferInstanceAs (Decidable (_ < _))

theorem toNat_and_ptAddressMask_of_plain {w : UInt64} (h : Plain w) :
    (w &&& ptAddressMask).toNat = tableOf w := by
  rw [toNat_and_ptAddressMask, tableOf, Paging.field_eq_of_lt (by decide) h]

/-- One level: the entry is read, and an address without one is not mapped. -/
theorem level_eq {phys : Phys} {table i e : UInt64} {level vaddr : ℕ}
    (htable : table.toNat = tableOf e) (hindex : i.toNat = index level vaddr)
    (next : UInt64 → Option ℤ) :
    (readEntry phys table i >>= fun w =>
        if w &&& validBit = 0 then pure noMap else next w) =
      if Present (entryAt phys (tableOf e) level vaddr) then
        next (entryAt phys (tableOf e) level vaddr)
      else some noMap := by
  have hlt : tableOf e + 8 * index level vaddr < 2 ^ 52 := by
    rw [tableOf, field, index]
    omega
  have hread : readEntry phys table i = some (entryAt phys (tableOf e) level vaddr) := by
    rw [readEntry, htable, hindex, if_pos hlt, entryAt]
  rw [hread, Option.bind_eq_bind, Option.bind_some, ite_cond_congr
    (propext (and_validBit_eq_zero_iff _)), ite_not]
  rfl

/-! ### What it says -/

/-- The tables on the way to an address have plain entries, and none of them maps 1 GiB. -/
def Walkable (phys : Phys) (vaddr : ℕ) : ℕ → ℕ → Prop
  | 0, table => Present (entryAt phys table 0 vaddr) → Plain (entryAt phys table 0 vaddr)
  | level + 1, table =>
    let w := entryAt phys table (level + 1) vaddr
    Present w → Plain w ∧ ¬(Large w ∧ level + 1 = 2) ∧
      (¬(Large w ∧ level + 1 = 1) → Walkable phys vaddr level (tableOf w))

instance Walkable.decidable (phys : Phys) (vaddr : ℕ) :
    (level table : ℕ) → Decidable (Walkable phys vaddr level table)
  | 0, _ => inferInstanceAs (Decidable (_ → _))
  | level + 1, table =>
    haveI := Walkable.decidable phys vaddr level (tableOf (entryAt phys table (level + 1) vaddr))
    inferInstanceAs (Decidable (_ → _ ∧ _ ∧ (_ → _)))

/-- The number that is returned for an address, by the entry that maps it. -/
def vtpmoResult : Option (ℕ × UInt64) → ℤ
  | none => noMap
  | some (_, w) => frameNumber w

/-- On tables that it can go through, the function finds the entry that maps the address. -/
theorem sysVtpmo_eq {phys : Phys} {cr3 vaddr : UInt64} (hcr3 : cr3.toNat < 2 ^ 52)
    (h : Walkable phys vaddr.toNat 3 (tableOf cr3)) :
    sysVtpmo phys cr3 vaddr = some (vtpmoResult (leaf phys vaddr.toNat 3 (tableOf cr3))) := by
  have hroot : (cr3 &&& addressMask).toNat = tableOf cr3 := by
    rw [toNat_and_addressMask]
    exact Paging.field_eq_of_lt (by decide) ((Nat.mod_le _ _).trans_lt hcr3)
  rw [sysVtpmo, level_eq hroot (toNat_pml4Index vaddr)]
  set pml4e := entryAt phys (tableOf cr3) 3 vaddr.toNat with hpml4e
  by_cases hpml4 : Present pml4e
  swap
  · rw [if_neg hpml4, Paging.leaf_of_not_present hpml4, vtpmoResult]
  obtain ⟨hplain3, -, hpdp⟩ := h hpml4
  replace hpdp := hpdp (by simp)
  rw [if_pos hpml4, Paging.leaf_of_table hpml4 (by simp),
    level_eq (toNat_and_ptAddressMask_of_plain hplain3) (toNat_pdpIndex vaddr), ← hpml4e]
  set pdpe := entryAt phys (tableOf pml4e) 2 vaddr.toNat with hpdpe
  by_cases hpd : Present pdpe
  swap
  · rw [if_neg hpd, Paging.leaf_of_not_present hpd, vtpmoResult]
  obtain ⟨hplain2, hsmall, hpde⟩ := hpdp hpd
  replace hpde := hpde (by simp)
  replace hsmall : ¬Large pdpe := fun hlarge => hsmall ⟨hlarge, rfl⟩
  rw [if_pos hpd, Paging.leaf_of_table hpd (fun hlarge => hsmall hlarge.1),
    level_eq (toNat_and_ptAddressMask_of_plain hplain2) (toNat_pdeIndex vaddr), ← hpdpe]
  set pde := entryAt phys (tableOf pdpe) 1 vaddr.toNat with hpdeq
  by_cases hpt : Present pde
  swap
  · rw [if_neg hpt, Paging.leaf_of_not_present hpt, vtpmoResult]
  obtain ⟨hplain1, -, hpte⟩ := hpde hpt
  rw [if_pos hpt]
  by_cases hlarge : Large pde
  · -- a page of 2 MiB
    rw [if_pos ((and_lhMapping_ne_zero_iff _).mpr hlarge),
      Paging.leaf_of_large (by decide) hpt hlarge]
    rfl
  · replace hpte := hpte (fun hlarge' => hlarge hlarge'.1)
    rw [if_neg (mt (and_lhMapping_ne_zero_iff _).mp hlarge),
      Paging.leaf_of_table hpt (fun hlarge' => hlarge hlarge'.1),
      level_eq (toNat_and_ptAddressMask_of_plain hplain1) (toNat_pteIndex vaddr), ← hpdeq]
    by_cases hpage : Present (entryAt phys (tableOf pde) 0 vaddr.toNat)
    · rw [if_pos hpage, Paging.leaf_zero_of_present hpage]
      rfl
    · rw [if_neg hpage, Paging.leaf_of_not_present hpage, vtpmoResult]

/-- The frame number of an entry is a part of it. -/
theorem toNat_frame (w : UInt64) :
    ((w &&& ptAddressMask) >>> 12).toNat = w.toNat % 2 ^ 63 / 2 ^ 12 := by
  rw [UInt64.toNat_shiftRight, toNat_and_ptAddressMask, field, Nat.shiftRight_eq_div_pow]
  exact Nat.mul_div_cancel _ (by decide)

/-- The low 32 bits of the frame number that an entry holds are ones. -/
def FrameOfOnes (w : UInt64) : Prop :=
  w.toNat / 2 ^ 12 % 2 ^ 32 = 2 ^ 32 - 1

instance (w : UInt64) : Decidable (FrameOfOnes w) := inferInstanceAs (Decidable (_ = _))

theorem frameNumber_eq_noMap_iff (w : UInt64) : frameNumber w = noMap ↔ FrameOfOnes w := by
  rw [frameNumber, toNat_frame, MachineInt.signed_32_eq, noMap, FrameOfOnes]
  omega

theorem vtpmoResult_eq_noMap_iff (x : Option (ℕ × UInt64)) :
    vtpmoResult x = noMap ↔ x = none ∨ ∃ y ∈ x, FrameOfOnes y.2 := by
  cases x with
  | none => simp [vtpmoResult]
  | some x => simp [vtpmoResult, frameNumber_eq_noMap_iff]

/-- On page tables that it can go through, `sys_vtpmo` does not fault. It says that an address is
not mapped exactly if it is not, or if the low 32 bits of the frame number are ones. For a page of
4 KiB the number is that of the frame, as far as an `int` holds it. -/
theorem sysVtpmo_spec (phys : Phys) (cr3 vaddr : UInt64) (hcr3 : cr3.toNat < 2 ^ 52)
    (h : Walkable phys vaddr.toNat 3 (tableOf cr3)) :
    ∃ r, sysVtpmo phys cr3 vaddr = some r ∧
      (r = noMap ↔ translate phys (tableOf cr3) vaddr.toNat = none ∨
        ∃ x ∈ leaf phys vaddr.toNat 3 (tableOf cr3), FrameOfOnes x.2) ∧
      ∀ w p, leaf phys vaddr.toNat 3 (tableOf cr3) = some (0, w) →
        translate phys (tableOf cr3) vaddr.toNat = some p → r = signed 32 (p / 2 ^ 12 : ℕ) := by
  refine ⟨_, sysVtpmo_eq hcr3 h, ?_, fun w p hleaf hp => ?_⟩
  · rw [Paging.translate_eq_none_iff, vtpmoResult_eq_noMap_iff]
  · rw [Paging.translate, hleaf, Option.map_some] at hp
    obtain rfl : w.toNat % 2 ^ 52 / 2 ^ 12 * 2 ^ 12 + vaddr.toNat % 2 ^ 12 = p :=
      Option.some.inj hp
    rw [hleaf, vtpmoResult, frameNumber, toNat_frame, MachineInt.signed_32_eq,
      MachineInt.signed_32_eq]
    omega

/-- Page tables of one page, in which each entry points to the page itself. -/
theorem sysVtpmo_spec_selfMap :
    ∃ r, sysVtpmo (fun _ => 0x1001) 0x1000 0xffffffff81000000 = some r ∧ r = 1 := by
  obtain ⟨r, hr, -, hframe⟩ := sysVtpmo_spec (fun _ => 0x1001) 0x1000 0xffffffff81000000
    (by decide) (by decide +kernel)
  exact ⟨r, hr, hframe 0x1001 0x1000 (by decide +kernel) (by decide +kernel)⟩

end StackReferenceMonitor
