import Mathlib.Data.Nat.Bitwise

/-!
# Paging with four levels

The translation of an address by the page tables of x86-64. Level 3 is the root table, and level 0
the one whose entries map pages of 4 KiB. At the levels 1 and 2 an entry can map a page of 2 MiB or
1 GiB itself. A table has 512 entries of eight bytes.

That the processor also faults on a reserved bit is left out.

## Main definitions

* `Paging.field`: the bits of a number from one position to another, in their places.
* `Paging.leaf`: the entry that maps an address, and its level.
* `Paging.translate`: the physical address.

## Main results

* `Paging.and_eq_field`: a mask of consecutive ones takes a field;
* `Paging.isSome_translate_congr`: the addresses of one page are mapped or not together.
-/

namespace Paging

/-! ### Fields -/

/-- The bits of `n` from `lo` up to `hi`, in their places. -/
def field (lo hi n : ℕ) : ℕ :=
  n % 2 ^ hi / 2 ^ lo * 2 ^ lo

theorem testBit_field (lo hi n i : ℕ) :
    (field lo hi n).testBit i = (decide (lo ≤ i ∧ i < hi) && n.testBit i) := by
  rw [field, Nat.testBit_mul_two_pow, Nat.testBit_div_two_pow, Nat.testBit_mod_two_pow]
  by_cases hlo : lo ≤ i
  · rw [Nat.sub_add_cancel hlo]
    simp [hlo]
  · simp [hlo]

/-- A mask of consecutive ones takes a field. -/
theorem and_eq_field {lo hi n mask : ℕ} (h : mask = (2 ^ (hi - lo) - 1) * 2 ^ lo) :
    n &&& mask = field lo hi n := by
  refine Nat.eq_of_testBit_eq fun i => ?_
  rw [Nat.testBit_and, testBit_field, h, Nat.testBit_mul_two_pow, Nat.testBit_two_pow_sub_one,
    Bool.and_comm]
  congr 1
  rw [← Bool.decide_and, decide_eq_decide]
  omega

/-- A field that has no bits beyond `hi`. -/
theorem field_eq_of_lt {lo hi hi' n : ℕ} (hle : hi ≤ hi') (h : n % 2 ^ hi' < 2 ^ hi) :
    field lo hi' n = field lo hi n := by
  rw [field, field, ← Nat.mod_mod_of_dvd n (Nat.pow_dvd_pow 2 hle), Nat.mod_eq_of_lt h]

/-! ### Tables -/

/-- The words of physical memory. -/
abbrev Phys := ℕ → UInt64

/-- The position in its table of the entry for an address. -/
def index (level vaddr : ℕ) : ℕ :=
  vaddr / 2 ^ (12 + 9 * level) % 512

/-- The entry for an address in a table. -/
def entryAt (phys : Phys) (table level vaddr : ℕ) : UInt64 :=
  phys (table + 8 * index level vaddr)

/-- The entry is in use. -/
def Present (w : UInt64) : Prop :=
  w.toNat.testBit 0 = true

/-- The entry maps a page, at a level at which it can. -/
def Large (w : UInt64) : Prop :=
  w.toNat.testBit 7 = true

instance (w : UInt64) : Decidable (Present w) := inferInstanceAs (Decidable (_ = true))

instance (w : UInt64) : Decidable (Large w) := inferInstanceAs (Decidable (_ = true))

/-- The table that an entry points to. -/
def tableOf (w : UInt64) : ℕ :=
  field 12 52 w.toNat

/-- The entry that maps an address, and its level. -/
def leaf (phys : Phys) (vaddr : ℕ) : ℕ → ℕ → Option (ℕ × UInt64)
  | 0, table =>
    if Present (entryAt phys table 0 vaddr) then some (0, entryAt phys table 0 vaddr) else none
  | level + 1, table =>
    let w := entryAt phys table (level + 1) vaddr
    if ¬Present w then none
    else if Large w ∧ level + 1 ≤ 2 then some (level + 1, w)
    else leaf phys vaddr level (tableOf w)

/-- The translation of an address by the tables at `root`. -/
def translate (phys : Phys) (root vaddr : ℕ) : Option ℕ :=
  (leaf phys vaddr 3 root).map fun x =>
    field (12 + 9 * x.1) 52 x.2.toNat + vaddr % 2 ^ (12 + 9 * x.1)

section Leaf

variable {phys : Phys} {vaddr level table : ℕ}

theorem leaf_of_not_present (h : ¬Present (entryAt phys table level vaddr)) :
    leaf phys vaddr level table = none := by
  cases level with
  | zero => rw [leaf, if_neg h]
  | succ level => rw [leaf, if_pos h]

theorem leaf_zero_of_present (h : Present (entryAt phys table 0 vaddr)) :
    leaf phys vaddr 0 table = some (0, entryAt phys table 0 vaddr) := by
  rw [leaf, if_pos h]

theorem leaf_of_large (hlevel : level + 1 ≤ 2)
    (hpresent : Present (entryAt phys table (level + 1) vaddr))
    (hlarge : Large (entryAt phys table (level + 1) vaddr)) :
    leaf phys vaddr (level + 1) table = some (level + 1, entryAt phys table (level + 1) vaddr) := by
  rw [leaf, if_neg (not_not_intro hpresent), if_pos ⟨hlarge, hlevel⟩]

/-- An entry that points to the table of the next level. -/
theorem leaf_of_table (hpresent : Present (entryAt phys table (level + 1) vaddr))
    (htable : ¬(Large (entryAt phys table (level + 1) vaddr) ∧ level + 1 ≤ 2)) :
    leaf phys vaddr (level + 1) table =
      leaf phys vaddr level (tableOf (entryAt phys table (level + 1) vaddr)) := by
  rw [leaf, if_neg (not_not_intro hpresent), if_neg htable]

end Leaf

theorem translate_eq_none_iff {phys : Phys} {root vaddr : ℕ} :
    translate phys root vaddr = none ↔ leaf phys vaddr 3 root = none := by
  rw [translate, Option.map_eq_none_iff]

/-- All addresses of a page have the same entries. -/
theorem index_congr {v v' : ℕ} (h : v / 2 ^ 12 = v' / 2 ^ 12) (level : ℕ) :
    index level v = index level v' := by
  rw [index, index, Nat.pow_add, ← Nat.div_div_eq_div_mul, ← Nat.div_div_eq_div_mul, h]

theorem leaf_congr {v v' : ℕ} (h : v / 2 ^ 12 = v' / 2 ^ 12) (phys : Phys) (level table : ℕ) :
    leaf phys v level table = leaf phys v' level table := by
  have hentry : ∀ table level, entryAt phys table level v = entryAt phys table level v' := by
    intro table level
    rw [entryAt, entryAt, index_congr h]
  induction level generalizing table with
  | zero => rw [leaf, leaf, hentry]
  | succ level ih => rw [leaf, leaf, hentry, ih]

/-- The addresses of a page are mapped or not together. -/
theorem isSome_translate_congr {v v' : ℕ} (h : v / 2 ^ 12 = v' / 2 ^ 12) (phys : Phys)
    (root : ℕ) : (translate phys root v).isSome = (translate phys root v').isSome := by
  rw [translate, translate, Option.isSome_map, Option.isSome_map, leaf_congr h]

end Paging
