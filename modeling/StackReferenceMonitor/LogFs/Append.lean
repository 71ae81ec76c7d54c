import StackReferenceMonitor.Foundations.Runs
import StackReferenceMonitor.LogFs.Defs

/-!
# Appending to the log file

Within one mount a write of at most one block either appends its payload, all in one block, or
changes nothing. The payload begins at the end of the file if the rest of the last block has room
for it, and else at the next block: `appendAt`.

Block numbers are `int`. While the file has at most `2 ^ 43` bytes, the number that is computed is
right or negative, and no device has a block with a negative number. So a file that was that small
stays so.

## Main definitions

* `appendAt`, `Fs.append`: what a write that succeeds does.
* `Fs.Small`: the range of sizes in which this is so.
* `WriteCall`, `Fs.write`: runs of writes.

## Main results

* `onefileWrite_eq`: the code computes `Fs.append`, or fails and changes nothing;
* `Fs.write_cases`: what a call can do to the file system;
* `append_only`: every run of writes.
-/

namespace StackReferenceMonitor

namespace LogFs

open MachineInt (signed unsigned)

/-! ### What a write does -/

/-- The position in a file of `size` bytes at which a payload of `len` bytes is put. -/
def appendAt (size len : ℕ) : ℕ :=
  if size % blockSize + len ≤ blockSize then size else (size / blockSize + 1) * blockSize

theorem le_appendAt (size len : ℕ) : size ≤ appendAt size len := by
  unfold appendAt blockSize
  split_ifs <;> omega

/-- A payload is in one block. -/
theorem appendAt_fits (size : ℕ) {len : ℕ} (h : len ≤ blockSize) :
    appendAt size len % blockSize + len ≤ blockSize := by
  unfold appendAt
  split_ifs with hfits
  · exact hfits
  · simpa using h

/-- An append of nothing is at the end of the file. -/
@[simp]
theorem appendAt_zero (size : ℕ) : appendAt size 0 = size := by
  unfold appendAt blockSize
  rw [if_pos (by omega)]

/-- The file system after `data` was appended. -/
def Fs.append (fs : Fs) (data : List UInt8) : Fs where
  device := fs.device.store dataBlock (appendAt fs.iSize.toNat data.length) data
  iSize := (appendAt fs.iSize.toNat data.length + data.length : ℕ)

/-- The size is in the range in which block numbers are right or negative. -/
structure Fs.Small (fs : Fs) : Prop where
  /-- The size is not negative. -/
  nonneg : 0 ≤ fs.iSize
  /-- The size is at most `2 ^ 43`. -/
  le : fs.iSize ≤ 2 ^ 43

/-- Such a size is the same as a `uint64_t`. -/
theorem Fs.Small.unsigned_iSize {fs : Fs} (h : fs.Small) :
    unsigned 64 fs.iSize = (fs.iSize.toNat : ℤ) := by
  have hle := h.le
  rw [Int.toNat_of_nonneg h.nonneg]
  exact MachineInt.unsigned_of_mem h.nonneg (by omega)

/-- The block that an append writes. -/
def Fs.appendBlock (fs : Fs) (data : List UInt8) : ℕ :=
  appendAt fs.iSize.toNat data.length / blockSize + dataBlock

/-- The variables of `onefile_write`, for a size that is not negative as a `loff_t`. -/
theorem Target.ofSize_of_lt (size len : ℕ) (hsize : size < 2 ^ 63) :
    Target.ofSize size len =
      { blockToWrite := signed 32 (appendAt size len / blockSize + dataBlock : ℕ)
        offset := signed 64 (appendAt size len)
        blockOffset := (appendAt size len % blockSize : ℕ) } := by
  have hoffset : signed 64 (size : ℤ) = size :=
    MachineInt.signed_64_of_mem (by omega) (by omega)
  have hmod : (size : ℤ).tmod 4096 = (size % 4096 : ℕ) := rfl
  have hdiv : (size : ℤ).tdiv 4096 = (size / 4096 : ℕ) := rfl
  have hrest : unsigned 64 (4096 - (size % 4096 : ℕ) : ℤ) = 4096 - (size % 4096 : ℕ) :=
    MachineInt.unsigned_of_mem (by omega) (by omega)
  simp only [Target.ofSize, hoffset, hmod, hdiv, hrest]
  -- the test of the code, with the subtraction on its other side
  by_cases hfits : size % blockSize + len ≤ blockSize
  · rw [if_neg (by simp only [blockSize] at hfits; omega), appendAt, if_pos hfits, hoffset]
    simp
  · rw [if_pos (by simp only [blockSize] at hfits; omega), appendAt, if_neg hfits,
      MachineInt.signed_signed_add]
    -- the payload goes to the beginning of the next block
    have hstart : ((size : ℤ) + (4096 - (size % 4096 : ℕ))) =
        ((size / blockSize + 1) * blockSize : ℕ) := by
      simp only [blockSize]
      omega
    have hblock : ((size / 4096 : ℕ) : ℤ) + 2 + 1 =
        ((size / blockSize + 1) * blockSize / blockSize + dataBlock : ℕ) := by
      simp only [blockSize, dataBlock]
      omega
    rw [hstart, hblock, Nat.mul_mod_left, Int.natCast_zero]

/-- For a size in range, the position does not overflow either. -/
theorem Target.ofSize_eq (size len : ℕ) (hsize : size ≤ 2 ^ 43) :
    Target.ofSize size len =
      { blockToWrite := signed 32 (appendAt size len / blockSize + dataBlock : ℕ)
        offset := appendAt size len
        blockOffset := (appendAt size len % blockSize : ℕ) } := by
  have hbound : appendAt size len < 2 ^ 63 := by
    unfold appendAt blockSize
    split_ifs <;> omega
  rw [Target.ofSize_of_lt size len (by omega), MachineInt.signed_64_of_mem (by omega) (by omega)]

/-- A block number that is negative as an `int` is past the end of every device. -/
theorem read_overflowed (d : Device) (works : Bool) {k : ℤ} (h : 2 ^ 31 ≤ k % 2 ^ 32) :
    d.read works (unsigned 64 (signed 32 k)).toNat = none := by
  -- it becomes a `sector_t` near its maximum
  have hbig := MachineInt.le_unsigned_64_signed_32 h
  have hcount := d.count_lt
  exact d.read_of_le works (by omega)

/-- A payload that fits is copied. -/
theorem memcpy_of_fits (bh : Block blockSize) {off : ℕ} {data : List UInt8}
    (h : off + data.length ≤ blockSize) : memcpy bh off data = some (bh.patch off data) :=
  if_pos (Or.inr ⟨Int.natCast_nonneg off, by omega⟩)

/-- The variables of a call. -/
abbrev Fs.target (fs : Fs) (data : List UInt8) : Target :=
  Target.ofSize (unsigned 64 fs.iSize) data.length

/-- The block that a call reads, or `none` if it fails before. -/
def WriteEnv.bread (env : WriteEnv) (data : List UInt8) (fs : Fs) : Option (Block blockSize) :=
  if env.kmalloc = true ∧ env.copied = data.length then
    fs.device.read env.sbBread (unsigned 64 (fs.target data).blockToWrite).toNat
  else none

/-- A call that has read its block returns if the payload stays within the block. -/
theorem onefileWrite_of_bread {env : WriteEnv} {data : List UInt8} {fs : Fs} {bh : Block blockSize}
    (h : env.bread data fs = some bh) :
    ∃ iSize, onefileWrite env data fs =
      (memcpy bh (fs.target data).blockOffset data).map fun bh => ((data.length : ℤ),
        ⟨fs.device.write (unsigned 64 (fs.target data).blockToWrite).toNat bh, iSize⟩) := by
  rw [WriteEnv.bread] at h
  split_ifs at h with hcopied
  simp only [onefileWrite]
  rw [if_neg (by simp [hcopied.1]), if_neg (by simp [hcopied.2]), h]
  dsimp only
  cases memcpy bh (fs.target data).blockOffset data with
  | none => exact ⟨0, rfl⟩
  | some bh => exact ⟨_, rfl⟩

/-- A call that fails before that changes nothing. -/
theorem onefileWrite_of_bread_eq_none {env : WriteEnv} {data : List UInt8} {fs : Fs}
    (h : env.bread data fs = none) :
    onefileWrite env data fs = some (0, fs) ∨ onefileWrite env data fs = some (- EIO, fs) := by
  rw [WriteEnv.bread] at h
  simp only [onefileWrite]
  by_cases hkmalloc : env.kmalloc = true
  · by_cases hcopied : env.copied = data.length
    · rw [if_pos ⟨hkmalloc, hcopied⟩] at h
      right
      rw [if_neg (by simp [hkmalloc]), if_neg (by simp [hcopied]), h]
    · left
      rw [if_neg (by simp [hkmalloc]), if_pos hcopied]
  · left
    rw [if_pos (by simpa using hkmalloc)]

/-- The code of `onefile_write`, for a size in range and a payload of at most one block: it fails
and changes nothing, or appends. -/
theorem onefileWrite_eq {fs : Fs} (hfs : fs.Small) (env : WriteEnv) {data : List UInt8}
    (hlen : data.length ≤ blockSize) :
    onefileWrite env data fs =
      if env.kmalloc ∧ env.copied = data.length then
        if env.sbBread ∧ fs.appendBlock data < fs.device.count ∧ fs.appendBlock data < 2 ^ 31 then
          some ((data.length : ℤ), fs.append data)
        else some (- EIO, fs)
      else some (0, fs) := by
  -- from here on the size is a natural number
  obtain ⟨size, hsize⟩ := Int.eq_ofNat_of_zero_le hfs.nonneg
  have hle : size ≤ 2 ^ 43 := by
    have hle := hfs.le
    omega
  have hfileSize : unsigned 64 fs.iSize = size := by
    rw [hfs.unsigned_iSize, hsize, Int.toNat_natCast]
  have hstart := le_appendAt size data.length
  have hpayload : data.length ≤ 4096 := hlen
  have hfits := appendAt_fits size hlen
  -- no sum in the call leaves the range of its type
  have hbound : appendAt size data.length ≤ 2 ^ 43 + 4096 := by
    unfold appendAt blockSize
    split_ifs <;> omega
  -- the new size is past the old one, unless nothing was written at the end of the file
  have hnewSize : (if unsigned 64 (appendAt size data.length + data.length) > size then
      signed 64 (unsigned 64 (appendAt size data.length + data.length)) else fs.iSize) =
        (appendAt size data.length + data.length : ℕ) := by
    rw [MachineInt.unsigned_of_mem (by omega) (by omega),
      MachineInt.signed_64_of_mem (by omega) (by omega), hsize]
    split_ifs <;> omega
  simp only [onefileWrite, hfileSize, Target.ofSize_eq size data.length hle]
  rw [hnewSize]
  by_cases hcopied : env.kmalloc = true ∧ env.copied = data.length
  · rw [if_neg (by simp [hcopied.1]), if_neg (by simp [hcopied.2]), if_pos hcopied]
    have happend : fs.appendBlock data = appendAt size data.length / blockSize + dataBlock := by
      rw [Fs.appendBlock, hsize, Int.toNat_natCast]
    rw [happend]
    -- `block_to_write` is an `int`: a number from `2 ^ 31` on is another one
    by_cases hint : appendAt size data.length / blockSize + dataBlock < 2 ^ 31
    · rw [MachineInt.toNat_unsigned_64_signed_32 hint, BlockDevice.read]
      by_cases hread : env.sbBread = true ∧
          appendAt size data.length / blockSize + dataBlock < fs.device.count
      · rw [if_pos hread, if_pos ⟨hread.1, hread.2, hint⟩]
        simp only [memcpy_of_fits _ hfits, Option.bind_eq_bind, Option.bind_some, Option.pure_def,
          Fs.append, BlockDevice.store, hsize, Int.toNat_natCast]
      · rw [if_neg hread, if_neg (fun h => hread ⟨h.1, h.2.1⟩)]
    · rw [read_overflowed fs.device _ (by simp only [blockSize, dataBlock] at hint ⊢; omega),
        if_neg (fun h => hint h.2.2)]
  · rw [if_neg hcopied]
    -- both failures return `0`
    by_cases hkmalloc : env.kmalloc = true
    · rw [if_neg (by simp [hkmalloc]), if_pos (fun h => hcopied ⟨hkmalloc, h⟩)]
    · rw [if_pos (by simpa using hkmalloc)]

/-- What a call of `onefile_write` can do, for a size in range and a payload of at most one
block. -/
theorem onefileWrite_cases {fs : Fs} (hfs : fs.Small) (env : WriteEnv) {data : List UInt8}
    (hlen : data.length ≤ blockSize) :
    (onefileWrite env data fs = some ((data.length : ℤ), fs.append data) ∧
        fs.appendBlock data < fs.device.count ∧ fs.appendBlock data < 2 ^ 31) ∨
      onefileWrite env data fs = some (0, fs) ∨ onefileWrite env data fs = some (- EIO, fs) := by
  rw [onefileWrite_eq hfs env hlen]
  split_ifs with hcopied hread
  · exact Or.inl ⟨rfl, hread.2⟩
  · exact Or.inr (Or.inr rfl)
  · exact Or.inr (Or.inl rfl)

/-! ### The file after an append -/

section Append

variable (fs : Fs) (data : List UInt8)

/-- The file after an append: what was there up to the place of the payload, and the payload. -/
theorem Fs.contents_append {data : List UInt8} (hlen : data.length ≤ blockSize) :
    (fs.append data).contents =
      fs.device.bytes dataBlock (appendAt fs.iSize.toNat data.length) ++ data :=
  fs.device.bytes_store dataBlock _ _ (appendAt_fits fs.iSize.toNat hlen)

theorem Fs.contents_prefix_append {data : List UInt8} (hlen : data.length ≤ blockSize) :
    fs.contents <+: (fs.append data).contents := by
  rw [fs.contents_append hlen]
  exact (fs.device.bytes_prefix dataBlock (le_appendAt _ _)).trans (List.prefix_append _ _)

/-- The superblock and the inode are not written. -/
theorem Fs.append_block {k : ℕ} (hk : k < dataBlock) :
    (fs.append data).device.block k = fs.device.block k :=
  fs.device.store_block_of_ne data (Nat.ne_of_lt (Nat.lt_of_lt_of_le hk (Nat.le_add_left _ _)))

theorem Fs.append_nil {fs : Fs} (hfs : fs.Small) : fs.append [] = fs := by
  have hsize := Int.toNat_of_nonneg hfs.nonneg
  simp [Fs.append, hsize]

/-- A file whose block numbers are in range stays so. -/
theorem Fs.Small.append {fs : Fs} {data : List UInt8} (hlen : data.length ≤ blockSize)
    (hblock : fs.appendBlock data < 2 ^ 31) : (fs.append data).Small := by
  have hfits := appendAt_fits fs.iSize.toNat hlen
  unfold Fs.appendBlock at hblock
  simp only [blockSize, dataBlock] at hfits hblock
  constructor
  · exact Int.natCast_nonneg _
  · show ((appendAt fs.iSize.toNat data.length + data.length : ℕ) : ℤ) ≤ 2 ^ 43
    omega

end Append

/-! ### Runs of writes -/

/-- A call of `onefile_write` with a payload of at most one block. -/
structure WriteCall where
  /-- What it meets. -/
  env : WriteEnv
  /-- The payload. -/
  data : List UInt8
  /-- The payload is at most one block. -/
  length_le : data.length ≤ blockSize

/-- The file system after a call. -/
def Fs.write (fs : Fs) (c : WriteCall) : Fs :=
  match onefileWrite c.env c.data fs with
  | some (_, fs') => fs'
  | none => fs

theorem Fs.write_eq {fs fs' : Fs} {c : WriteCall} {ret : ℤ}
    (h : onefileWrite c.env c.data fs = some (ret, fs')) : fs.write c = fs' := by
  rw [Fs.write, h]

/-- A call appends, to a block that the device has and with a number that is right, or changes
nothing. -/
theorem Fs.write_cases {fs : Fs} (hfs : fs.Small) (c : WriteCall) :
    (fs.write c = fs.append c.data ∧
        fs.appendBlock c.data < fs.device.count ∧ fs.appendBlock c.data < 2 ^ 31) ∨
      fs.write c = fs := by
  rcases onefileWrite_cases hfs c.env c.length_le with ⟨h, hblock⟩ | h | h
  · exact Or.inl ⟨Fs.write_eq h, hblock⟩
  · exact Or.inr (Fs.write_eq h)
  · exact Or.inr (Fs.write_eq h)

theorem Fs.Small.write {fs : Fs} (hfs : fs.Small) (c : WriteCall) : (fs.write c).Small := by
  rcases Fs.write_cases hfs c with ⟨h, -, hblock⟩ | h
  · rw [h]
    exact .append c.length_le hblock
  · rwa [h]

/-- The call returns the length of its payload. -/
def WriteCall.Succeeds (fs : Fs) (c : WriteCall) : Prop :=
  ∃ fs', onefileWrite c.env c.data fs = some ((c.data.length : ℤ), fs')

theorem WriteCall.succeeds_iff {fs : Fs} {c : WriteCall} :
    c.Succeeds fs ↔ (onefileWrite c.env c.data fs).map Prod.fst = some (c.data.length : ℤ) := by
  simp [WriteCall.Succeeds, Option.map_eq_some_iff]

instance (fs : Fs) (c : WriteCall) : Decidable (c.Succeeds fs) :=
  decidable_of_iff _ WriteCall.succeeds_iff.symm

/-- A call that succeeds has appended, or had nothing to write. -/
theorem WriteCall.Succeeds.cases {fs : Fs} {c : WriteCall} (h : c.Succeeds fs) (hfs : fs.Small) :
    (fs.write c = fs.append c.data ∧
        fs.appendBlock c.data < fs.device.count ∧ fs.appendBlock c.data < 2 ^ 31) ∨
      (c.data = [] ∧ fs.write c = fs) := by
  obtain ⟨fs', hwrite⟩ := h
  rcases onefileWrite_cases hfs c.env c.length_le with ⟨happend, hblock⟩ | hzero | heio
  · exact Or.inl ⟨Fs.write_eq happend, hblock⟩
  · -- without memory it returns `0`, the length of an empty payload
    rw [hzero] at hwrite
    obtain ⟨hlen, -⟩ := Prod.mk.inj (Option.some.inj hwrite)
    exact Or.inr ⟨List.eq_nil_of_length_eq_zero (by omega), Fs.write_eq hzero⟩
  · rw [heio] at hwrite
    obtain ⟨hlen, -⟩ := Prod.mk.inj (Option.some.inj hwrite)
    simp only [ EIO] at hlen
    omega

theorem Fs.write_of_succeeds {fs : Fs} (hfs : fs.Small) {c : WriteCall} (h : c.Succeeds fs) :
    fs.write c = fs.append c.data := by
  rcases h.cases hfs with ⟨happend, -⟩ | ⟨hnil, hsame⟩
  · exact happend
  · rw [hsame, hnil, Fs.append_nil hfs]

/-- The size after a write that succeeds. -/
theorem Fs.iSize_write {fs : Fs} (hfs : fs.Small) {c : WriteCall} (h : c.Succeeds fs) :
    fs.iSize + c.data.length ≤ (fs.write c).iSize := by
  have hle := le_appendAt fs.iSize.toNat c.data.length
  have hsize := Int.toNat_of_nonneg hfs.nonneg
  rw [Fs.write_of_succeeds hfs h]
  show fs.iSize + c.data.length ≤ ((appendAt fs.iSize.toNat c.data.length + c.data.length : ℕ) : ℤ)
  omega

/-- A payload that was written is in a block that the device has, with a number that is right. -/
theorem WriteCall.Succeeds.appendBlock_lt {fs : Fs} {c : WriteCall} (h : c.Succeeds fs)
    (hfs : fs.Small) (hne : c.data ≠ []) :
    fs.appendBlock c.data < fs.device.count ∧ fs.appendBlock c.data < 2 ^ 31 := by
  rcases h.cases hfs with ⟨-, hblock⟩ | ⟨hnil, -⟩
  · exact hblock
  · exact absurd hnil hne

/-- A call either appends its payload within one block or changes nothing. -/
structure AppendsOrFails (fs : Fs) (data : List UInt8) (ret : ℤ) (fs' : Fs) : Prop where
  /-- What was in the file is still there. -/
  contents_prefix : fs.contents <+: fs'.contents
  /-- Block 0 is as it was. -/
  superblock : fs'.device.block 0 = fs.device.block 0
  /-- Block 1 is as it was. -/
  inode : fs'.device.block 1 = fs.device.block 1
  /-- It returns the length of the payload, or `0`, or `-EIO`. -/
  returns : ret = data.length ∨ ret = 0 ∨ ret = - EIO
  /-- If it returns the length of the payload, the file ends with the payload. -/
  stored : ret = data.length → data <:+ fs'.contents
  /-- These bytes are then in one block. -/
  one_block : ret = data.length → ∀ x, fs'.contents.length ≤ x + data.length →
    x < fs'.contents.length → x / blockSize = (fs'.contents.length - data.length) / blockSize
  /-- If it fails, the size is as it was. -/
  size : ret = 0 ∨ ret = - EIO → fs'.iSize = fs.iSize
  /-- If it fails, every block is as it was. -/
  blocks : ret = 0 ∨ ret = - EIO → ∀ k, fs'.device.block k = fs.device.block k

/-- A call that fails. -/
theorem AppendsOrFails.of_failure (fs : Fs) (data : List UInt8) {ret : ℤ}
    (hret : ret = 0 ∨ ret = - EIO) : AppendsOrFails fs data ret fs := by
  -- a failure that returns the length of the payload is one of an empty payload
  have hempty : ret = data.length → data = [] := by
    intro hlen
    rcases hret with rfl | rfl
    · exact List.eq_nil_of_length_eq_zero (by omega)
    · exact absurd hlen (by simp only [ EIO]; omega)
  refine ⟨List.prefix_refl _, rfl, rfl, Or.inr hret, fun hlen => ?_, fun hlen x hlo hhi => ?_,
    fun _ => rfl, fun _ _ => rfl⟩
  · rw [hempty hlen]
    exact List.nil_suffix
  · rw [hempty hlen, List.length_nil] at hlo
    omega

/-- A call that appends. -/
theorem AppendsOrFails.of_append {fs : Fs} (hfs : fs.Small) {data : List UInt8}
    (hlen : data.length ≤ blockSize) : AppendsOrFails fs data data.length (fs.append data) := by
  -- an append of nothing cannot be told from a failure, and changes as little
  have hempty : (data.length : ℤ) = 0 ∨ (data.length : ℤ) = - EIO → fs.append data = fs := by
    intro hret
    obtain rfl : data = [] := by
      refine List.eq_nil_of_length_eq_zero ?_
      simp only [ EIO] at hret
      omega
    exact Fs.append_nil hfs
  refine ⟨fs.contents_prefix_append hlen, fs.append_block data (by decide),
    fs.append_block data (by decide), Or.inl rfl, fun _ => ?_, fun _ x hlo hhi => ?_,
    fun hret => ?_, fun hret k => ?_⟩
  · rw [fs.contents_append hlen]
    exact List.suffix_append _ _
  · have hfits := appendAt_fits fs.iSize.toNat hlen
    rw [fs.contents_append hlen, List.length_append, BlockDevice.length_bytes] at *
    simp only [blockSize] at *
    omega
  · rw [hempty hret]
  · rw [hempty hret]

/-- From every device and every size below `2 ^ 42`, in every run of writes with payloads of at most
one block and every pattern of failures: each call returns, and either appends its payload within
one block or changes nothing. -/
theorem append_only (fs : Fs) (hlo : 0 ≤ fs.iSize) (hhi : fs.iSize < 2 ^ 42)
    (calls : List WriteCall) :
    Run.EachStep Fs.write (fun fs c => ∃ ret fs', onefileWrite c.env c.data fs = some (ret, fs') ∧
      AppendsOrFails fs c.data ret fs') fs calls := by
  intro xs c _
  -- the size may pass `2 ^ 42` in the run, but not the bound of the invariant
  have hsmall : (Run.exec Fs.write fs xs).Small :=
    Run.invariant (P := Fs.Small) (fun _ c hfs => hfs.write c) ⟨hlo, by omega⟩ xs
  generalize Run.exec Fs.write fs xs = fs at hsmall ⊢
  rcases onefileWrite_cases hsmall c.env c.length_le with ⟨h, -⟩ | h | h
  · exact ⟨_, _, h, .of_append hsmall c.length_le⟩
  · exact ⟨_, _, h, .of_failure fs c.data (Or.inl rfl)⟩
  · exact ⟨_, _, h, .of_failure fs c.data (Or.inr rfl)⟩

/-- A device of zeros with a hundred blocks. -/
def zeroDevice : Device where
  count := 100
  count_lt := by decide
  block := fun _ _ => 0

/-- A write for which nothing fails. -/
def plainWrite (data : List UInt8) (h : data.length ≤ blockSize) : WriteCall :=
  ⟨⟨true, data.length, true⟩, data, h⟩

/-- A write into an empty file, and one that fails for want of memory. -/
theorem append_only_two :
    Run.EachStep Fs.write (fun fs c => ∃ ret fs', onefileWrite c.env c.data fs = some (ret, fs') ∧
      AppendsOrFails fs c.data ret fs') ⟨zeroDevice, 0⟩
      [plainWrite [97] (by decide), ⟨⟨false, 1, true⟩, [98], by decide⟩] :=
  append_only ⟨zeroDevice, 0⟩ (by decide) (by decide) _

end LogFs

end StackReferenceMonitor
