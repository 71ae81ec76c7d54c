import Mathlib.Algebra.GroupWithZero.Nat
import Mathlib.Logic.Function.Basic
import Mathlib.Data.List.Infix

/-!
# Block devices

A device of numbered blocks of `n` bytes each, seen through the buffer cache: a block that was
written is the block that is read next. Reads of numbers past the end of the device fail, and so
may others.

A data area that begins at the block `base` is a sequence of bytes: byte `x` of it is in the block
`x / n + base`. `BlockDevice.store` writes some bytes of the area, all in one block.

## Main definitions

* `Block`, `Block.patch`, `Block.slice`: the bytes of a block.
* `BlockDevice`, `BlockDevice.read`, `BlockDevice.write`.
* `BlockDevice.bytes`, `BlockDevice.store`: the data area.

## Main results

* `BlockDevice.bytes_store`: after a store within one block, the area up to the end of the store is
  what preceded it and the bytes stored;
* `BlockDevice.store_block_of_ne`: all other blocks are as they were.
-/

/-- A block of `n` bytes. -/
abbrev Block (n : ℕ) := Fin n → UInt8

namespace Block

variable {n : ℕ}

/-- The block with the bytes from `off` on overwritten by `data`. -/
def patch (b : Block n) (off : ℕ) (data : List UInt8) : Block n :=
  fun i => if off ≤ i.val then (data[i.val - off]?).getD (b i) else b i

/-- The `w` bytes of the block from `off` on. -/
def slice (b : Block n) (off w : ℕ) : List UInt8 :=
  ((List.ofFn b).drop off).take w

theorem patch_of_lt (b : Block n) {off : ℕ} (data : List UInt8) {i : Fin n} (h : i.val < off) :
    b.patch off data i = b i :=
  if_neg (Nat.not_le.mpr h)

/-- A patch of no bytes changes nothing. -/
@[simp]
theorem patch_nil (b : Block n) (off : ℕ) : b.patch off [] = b := by
  funext i
  simp [patch]

/-- The bytes of a patch are read back. -/
theorem slice_patch (b : Block n) (off : ℕ) (data : List UInt8)
    (h : off + data.length ≤ n) :
    (b.patch off data).slice off data.length = data := by
  refine List.ext_getElem ?_ fun i hi hi' => ?_
  · simp [slice]
    omega
  · simp [slice, patch, hi']

/-- Another part of the block is read as it was. -/
theorem slice_patch_of_le (b : Block n) {off : ℕ} (data : List UInt8) {off' w : ℕ}
    (h : off' + w ≤ off) : (b.patch off data).slice off' w = b.slice off' w := by
  refine List.ext_getElem (by simp [slice]) fun i hi hi' => ?_
  have hlt : i < w := by
    simp [slice] at hi
    omega
  simp only [slice, List.getElem_take, List.getElem_drop, List.getElem_ofFn]
  exact patch_of_lt b data (by simp; omega)

@[simp]
theorem length_slice (b : Block n) (off w : ℕ) : (b.slice off w).length = min w (n - off) := by
  simp [slice]

/-- A slice is a part of the block. -/
theorem slice_infix (b : Block n) (off w : ℕ) : b.slice off w <:+: List.ofFn b :=
  (List.take_prefix _ _).isInfix.trans (List.drop_suffix _ _).isInfix

end Block

/-- A device: as many blocks as `count` says. Block numbers fit a signed 64-bit integer. -/
structure BlockDevice (n : ℕ) where
  /-- The number of blocks. -/
  count : ℕ
  /-- A device has less than `2 ^ 63` blocks. -/
  count_lt : count < 2 ^ 63
  /-- The contents of a block. -/
  block : ℕ → Block n

namespace BlockDevice

variable {n : ℕ}

/-- Reads a block. The device may fail, and has no block past its end. -/
def read (d : BlockDevice n) (works : Bool) (k : ℕ) : Option (Block n) :=
  if works ∧ k < d.count then some (d.block k) else none

/-- Writes a block. -/
def write (d : BlockDevice n) (k : ℕ) (b : Block n) : BlockDevice n :=
  { d with block := Function.update d.block k b }

@[simp]
theorem count_write (d : BlockDevice n) (k : ℕ) (b : Block n) : (d.write k b).count = d.count := rfl

@[simp]
theorem write_block_self (d : BlockDevice n) (k : ℕ) (b : Block n) : (d.write k b).block k = b :=
  Function.update_self ..

theorem write_block_of_ne (d : BlockDevice n) {k k' : ℕ} (b : Block n) (h : k' ≠ k) :
    (d.write k b).block k' = d.block k' :=
  Function.update_of_ne h ..

/-- Writing back what was read changes nothing. -/
@[simp]
theorem write_block (d : BlockDevice n) (k : ℕ) : d.write k (d.block k) = d := by
  simp [write]

theorem read_of_lt (d : BlockDevice n) {k : ℕ} (h : k < d.count) :
    d.read true k = some (d.block k) :=
  if_pos ⟨rfl, h⟩

theorem read_of_le (d : BlockDevice n) (works : Bool) {k : ℕ} (h : d.count ≤ k) :
    d.read works k = none :=
  if_neg fun hread => Nat.not_lt.mpr h hread.2

/-- What is read is the block. -/
theorem block_of_read {d : BlockDevice n} {works : Bool} {k : ℕ} {b : Block n}
    (h : d.read works k = some b) : d.block k = b := by
  unfold read at h
  split_ifs at h
  exact Option.some.inj h

/-! ### The data area -/

/-- Stores `data` from byte `start` of the data area on, in the block of that byte. -/
def store (d : BlockDevice n) (base start : ℕ) (data : List UInt8) : BlockDevice n :=
  d.write (start / n + base) ((d.block (start / n + base)).patch (start % n) data)

@[simp]
theorem count_store (d : BlockDevice n) (base start : ℕ) (data : List UInt8) :
    (d.store base start data).count = d.count := rfl

/-- A store writes one block. -/
theorem store_block_of_ne (d : BlockDevice n) {base start k : ℕ} (data : List UInt8)
    (h : k ≠ start / n + base) : (d.store base start data).block k = d.block k :=
  d.write_block_of_ne _ h

@[simp]
theorem store_nil (d : BlockDevice n) (base start : ℕ) : d.store base start [] = d := by
  simp [store]

/-- A byte of the same block is further on in it. -/
theorem add_mod_of_fits {start i : ℕ} (h : start % n + i < n) :
    (start + i) % n = start % n + i := by
  rw [Nat.add_mod, Nat.mod_eq_of_lt (show i < n by omega), Nat.mod_eq_of_lt h]

section Bytes

variable [NeZero n]

/-- Byte `x` of the data area that begins at the block `base`. -/
def byte (d : BlockDevice n) (base x : ℕ) : UInt8 :=
  d.block (x / n + base) (Fin.ofNat n x)

/-- The first `m` bytes of the data area. -/
def bytes (d : BlockDevice n) (base m : ℕ) : List UInt8 :=
  (List.range m).map (d.byte base)

/-- A byte of the same block has the same block number. -/
theorem add_div_of_fits {start i : ℕ} (h : start % n + i < n) : (start + i) / n = start / n := by
  have hi : i < n := by omega
  rw [Nat.add_div (Nat.pos_of_ne_zero (NeZero.ne n)), Nat.mod_eq_of_lt hi, Nat.div_eq_of_lt hi,
    if_neg (by omega)]
  omega

@[simp]
theorem length_bytes (d : BlockDevice n) (base m : ℕ) : (d.bytes base m).length = m := by
  simp [bytes]

theorem bytes_prefix (d : BlockDevice n) (base : ℕ) {m m' : ℕ} (h : m ≤ m') :
    d.bytes base m <+: d.bytes base m' := by
  obtain ⟨k, rfl⟩ := Nat.exists_eq_add_of_le h
  rw [bytes, bytes, List.range_add, List.map_append]
  exact List.prefix_append _ _

theorem take_bytes (d : BlockDevice n) (base : ℕ) {m m' : ℕ} (h : m ≤ m') :
    (d.bytes base m').take m = d.bytes base m := by
  have htake := List.prefix_iff_eq_take.mp (d.bytes_prefix base h)
  rw [length_bytes] at htake
  exact htake.symm

/-- Some bytes of one block are the bytes of the data area at their place. -/
theorem slice_block (d : BlockDevice n) (base start k : ℕ) (hfit : start % n + k ≤ n) :
    (d.block (start / n + base)).slice (start % n) k = (d.bytes base (start + k)).drop start := by
  refine List.ext_getElem ?_ fun i hi hi' => ?_
  · simp [Block.slice]
    omega
  · have hik : i < k := by simpa using hi'
    have hmod : start % n + i < n := by omega
    simp only [Block.slice, bytes, byte, List.getElem_take, List.getElem_drop, List.getElem_ofFn,
      List.getElem_map, List.getElem_range, add_div_of_fits hmod]
    exact congrArg _ (Fin.ext (add_mod_of_fits hmod).symm)

/-- What precedes the store is as it was. -/
theorem byte_store_of_lt (d : BlockDevice n) {base start x : ℕ} (data : List UInt8)
    (h : x < start) : (d.store base start data).byte base x = d.byte base x := by
  unfold byte
  by_cases hblock : x / n = start / n
  · rw [store, hblock, write_block_self, Block.patch_of_lt]
    -- in the same block, the byte is at a lower offset
    have hx := Nat.div_add_mod x n
    have hstart := Nat.div_add_mod start n
    rw [hblock] at hx
    rw [Fin.val_ofNat]
    omega
  · rw [store_block_of_ne _ _ (by omega)]

/-- The bytes stored are there. -/
theorem byte_store_of_mem (d : BlockDevice n) {base start i : ℕ} {data : List UInt8}
    (hfit : start % n + data.length ≤ n) (hi : i < data.length) :
    (d.store base start data).byte base (start + i) = data[i] := by
  have hmod : start % n + i < n := by omega
  simp [byte, store, add_div_of_fits hmod, Block.patch, add_mod_of_fits hmod, hi]

/-- After a store within one block, the data area up to its end: what preceded it, then the bytes
stored. -/
theorem bytes_store (d : BlockDevice n) (base start : ℕ) (data : List UInt8)
    (hfit : start % n + data.length ≤ n) :
    (d.store base start data).bytes base (start + data.length) = d.bytes base start ++ data := by
  rw [bytes, List.range_add, List.map_append]
  congr 1
  · refine List.map_congr_left fun x hx => ?_
    exact d.byte_store_of_lt data (List.mem_range.mp hx)
  · refine List.ext_getElem (by simp) fun i hi hi' => ?_
    simp only [List.getElem_map, List.getElem_range]
    exact d.byte_store_of_mem hfit hi'

end Bytes

end BlockDevice
