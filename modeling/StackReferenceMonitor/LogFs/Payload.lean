import StackReferenceMonitor.LogFs.Read

/-!
# Payloads of any length

`onefile_write` tests whether the payload fits in the rest of the last block, and if it does not, it
goes to the next one. It does not test whether the payload fits there. A payload of at most one
block always does; a longer one is copied over the end of the block's buffer, if the call gets that
far.

## Main definitions

* `CopiesAt`: a call copies its payload into the buffer of a block.
* `WritesWhole`: the copy stays within the buffer, and what was written is read back.

## Main results

* `writesWhole_iff`: this is so for payloads of at most one block, and for calls that fail before
  the copy.
-/

namespace StackReferenceMonitor

namespace LogFs

open MachineInt (signed unsigned)

/-- The call copies its payload to the position `blockOffset` of a block that it has read. -/
structure CopiesAt (env : WriteEnv) (data : List UInt8) (fs : Fs) (blockOffset : ℤ) : Prop where
  /-- The payload was copied from the caller, and the block was read. -/
  read : (env.bread data fs).isSome
  /-- Where the payload goes. -/
  offset : blockOffset = (fs.target data).blockOffset

/-- If the payload is copied, it stays within the block, and if its length is returned, then reads
of any length from there on return the payload. -/
structure WritesWhole (env : WriteEnv) (data : List UInt8) (fs : Fs) : Prop where
  /-- The copy. -/
  within : ∀ blockOffset, CopiesAt env data fs blockOffset →
    blockOffset + data.length ≤ blockSize
  /-- Reading the payload back, on a device that has all blocks of the file. -/
  readBack : ∀ fs', onefileWrite env data fs = some ((data.length : ℤ), fs') → fs'.OnDevice →
    ∀ len, 0 < len → len < 2 ^ 63 →
      readToEnd plainRead fs' len (data.length + 1) (fs'.iSize - data.length) = some data

section Payload

variable {fs : Fs} {env : WriteEnv} {data : List UInt8}

/-- The block of a call, for a size in range. -/
theorem bread_of_small (hfs : fs.Small) (hint : fs.appendBlock data < 2 ^ 31) :
    env.bread data fs =
      if env.kmalloc = true ∧ env.copied = data.length ∧ env.sbBread = true ∧
          fs.appendBlock data < fs.device.count then
        some (fs.device.block (fs.appendBlock data))
      else none := by
  have hle := hfs.le
  have htarget : (fs.target data).blockToWrite = signed 32 (fs.appendBlock data) := by
    rw [Fs.target, hfs.unsigned_iSize, Target.ofSize_eq _ _ (by omega), Fs.appendBlock]
  rw [WriteEnv.bread, htarget, MachineInt.toNat_unsigned_64_signed_32 hint, BlockDevice.read,
    ← ite_and]
  simp only [and_assoc]

/-- A call copies its payload if nothing fails and the device has the block. -/
theorem copiesAt_iff (hfs : fs.Small) (hint : fs.appendBlock data < 2 ^ 31) (blockOffset : ℤ) :
    CopiesAt env data fs blockOffset ↔
      (env.kmalloc = true ∧ env.copied = data.length ∧ env.sbBread = true ∧
        fs.appendBlock data < fs.device.count) ∧
      blockOffset = (appendAt fs.iSize.toNat data.length % blockSize : ℕ) := by
  have hle := hfs.le
  have hoffset : (fs.target data).blockOffset =
      (appendAt fs.iSize.toNat data.length % blockSize : ℕ) := by
    rw [Fs.target, hfs.unsigned_iSize, Target.ofSize_eq _ _ (by omega)]
  have hread : (env.bread data fs).isSome ↔ env.kmalloc = true ∧ env.copied = data.length ∧
      env.sbBread = true ∧ fs.appendBlock data < fs.device.count := by
    rw [bread_of_small hfs hint]
    split_ifs with hworks
    · exact iff_of_true rfl hworks
    · exact iff_of_false Bool.false_ne_true hworks
  constructor
  · rintro ⟨hisSome, hat⟩
    exact ⟨hread.mp hisSome, hat.trans hoffset⟩
  · rintro ⟨hworks, hat⟩
    exact ⟨hread.mpr hworks, hat.trans hoffset.symm⟩

/-- What an append has written is read back. -/
theorem readToEnd_append (hlen : data.length ≤ blockSize) (hint : fs.appendBlock data < 2 ^ 31)
    (hdev : (fs.append data).OnDevice) {len : ℕ} (hpos : 0 < len) (hlt : len < 2 ^ 63) :
    readToEnd plainRead (fs.append data) len (data.length + 1)
      ((fs.append data).iSize - data.length) = some data := by
  have hsize : (fs.append data).iSize =
      (appendAt fs.iSize.toNat data.length + data.length : ℕ) := rfl
  have hstart : (fs.append data).iSize - data.length =
      (appendAt fs.iSize.toNat data.length : ℤ) := by
    rw [hsize]
    omega
  rw [hstart, hdev.readToEnd (.append hlen hint) hpos hlt (by rw [hsize]; omega)
    (by rw [hsize]; omega), fs.contents_append hlen,
    List.drop_left' (BlockDevice.length_bytes _ _ _)]

/-- A payload of at most one block. -/
theorem WritesWhole.of_le (hfs : fs.Small) (hint : fs.appendBlock data < 2 ^ 31)
    (hlen : data.length ≤ blockSize) : WritesWhole env data fs := by
  constructor
  · intro blockOffset hcopies
    obtain ⟨-, rfl⟩ := (copiesAt_iff hfs hint blockOffset).mp hcopies
    have hfits := appendAt_fits fs.iSize.toNat hlen
    omega
  · intro fs' hwrite hdev len hpos hlt
    rcases onefileWrite_cases hfs env hlen with ⟨happend, -⟩ | hzero | heio
    · obtain ⟨-, rfl⟩ := Prod.mk.inj (Option.some.inj (happend.symm.trans hwrite))
      exact readToEnd_append hlen hint hdev hpos hlt
    · -- without memory the call returns `0`, the length of an empty payload
      obtain ⟨hnil, rfl⟩ := Prod.mk.inj (Option.some.inj (hzero.symm.trans hwrite))
      obtain rfl : data = [] := List.eq_nil_of_length_eq_zero (by omega)
      have happend := Fs.append_nil hfs
      rw [← happend] at hdev ⊢
      exact readToEnd_append hlen hint hdev hpos hlt
    · obtain ⟨hret, -⟩ := Prod.mk.inj (Option.some.inj (heio.symm.trans hwrite))
      simp only [ EIO] at hret
      omega

/-- A longer payload that is not copied: the call does not return its length. -/
theorem WritesWhole.of_failure (hlen : blockSize < data.length)
    (hfails : env.bread data fs = none) : WritesWhole env data fs := by
  constructor
  · rintro blockOffset ⟨hisSome, -⟩
    rw [hfails] at hisSome
    exact absurd hisSome Bool.false_ne_true
  · intro fs' hwrite
    exfalso
    rcases onefileWrite_of_bread_eq_none hfails with hzero | heio
    · obtain ⟨hret, -⟩ := Prod.mk.inj (Option.some.inj (hzero.symm.trans hwrite))
      omega
    · obtain ⟨hret, -⟩ := Prod.mk.inj (Option.some.inj (heio.symm.trans hwrite))
      simp only [ EIO] at hret
      omega

end Payload

/-- For every size below `2 ^ 42`, every payload and every pattern of failures: the payload stays
within its block and is read back whole, if and only if it has at most 4096 bytes, or the call fails
before the copy, for want of memory, by a copy from the caller that is cut short, or because the
block after the last one cannot be read. -/
theorem writesWhole_iff (env : WriteEnv) (data : List UInt8) (fs : Fs) (hlo : 0 ≤ fs.iSize)
    (hhi : fs.iSize < 2 ^ 42) :
    WritesWhole env data fs ↔
      data.length ≤ 4096 ∨ env.kmalloc = false ∨ env.copied ≠ data.length ∨ env.sbBread = false ∨
        fs.device.count ≤ fs.iSize.toNat / 4096 + 3 := by
  have hfs : fs.Small := ⟨hlo, by omega⟩
  have hint : fs.appendBlock data < 2 ^ 31 := by
    simp only [Fs.appendBlock, appendAt, blockSize, dataBlock]
    split_ifs <;> omega
  by_cases hlen : data.length ≤ 4096
  · exact iff_of_true (.of_le hfs hint hlen) (Or.inl hlen)
  -- a longer payload goes to the beginning of the block after the last one
  have happend : appendAt fs.iSize.toNat data.length = (fs.iSize.toNat / 4096 + 1) * 4096 :=
    if_neg (by simp only [blockSize]; omega)
  have hblock : fs.appendBlock data = fs.iSize.toNat / 4096 + 3 := by
    simp only [Fs.appendBlock, happend, blockSize, dataBlock]
    omega
  rw [or_iff_right hlen]
  constructor
  · intro h
    by_contra hnot
    obtain ⟨hkmalloc, hcopied, hworks, hcount⟩ : env.kmalloc = true ∧ env.copied = data.length ∧
        env.sbBread = true ∧ fs.iSize.toNat / 4096 + 3 < fs.device.count := by
      simpa only [not_or, not_not, Bool.not_eq_false, ne_eq, not_le] using hnot
    rw [← hblock] at hcount
    have hwithin := h.within _
      ((copiesAt_iff hfs hint _).mpr ⟨⟨hkmalloc, hcopied, hworks, hcount⟩, rfl⟩)
    simp only [blockSize] at hwithin
    omega
  · intro h
    refine .of_failure (Nat.lt_of_not_le hlen) ?_
    rw [bread_of_small hfs hint, if_neg]
    rintro ⟨hkmalloc, hcopied, hworks, hcount⟩
    rw [hblock] at hcount
    rcases h with h | h | h | h
    · exact absurd hkmalloc (by simp [h])
    · exact h hcopied
    · exact absurd hworks (by simp [h])
    · omega

/-- A payload of two bytes at the end of a block. -/
theorem writesWhole_two_bytes :
    WritesWhole ⟨true, 2, true⟩ [97, 98] ⟨zeroDevice, 4095⟩ :=
  (writesWhole_iff _ _ _ (by decide) (by decide)).mpr (Or.inl (by decide))

/-- In an empty file, 4097 bytes are copied to the beginning of block 3, one more than its buffer
has. -/
theorem payload_overruns_block :
    CopiesAt ⟨true, 4097, true⟩ (List.replicate 4097 0) ⟨zeroDevice, 0⟩ 0 ∧
      onefileWrite ⟨true, 4097, true⟩ (List.replicate 4097 0) ⟨zeroDevice, 0⟩ = none ∧
      ¬WritesWhole ⟨true, 4097, true⟩ (List.replicate 4097 0) ⟨zeroDevice, 0⟩ := by
  have hlen : (List.replicate 4097 (0 : UInt8)).length = 4097 := List.length_replicate
  have hoffset : (Target.ofSize (unsigned 64 0) 4097).blockOffset = 0 := by decide +kernel
  have hblock : (unsigned 64 (Target.ofSize (unsigned 64 0) 4097).blockToWrite).toNat = 3 := by
    decide +kernel
  have hbread : WriteEnv.bread ⟨true, 4097, true⟩ (List.replicate 4097 0) ⟨zeroDevice, 0⟩ =
      some (zeroDevice.block 3) := by
    rw [WriteEnv.bread, Fs.target, hlen, hblock]
    rfl
  have hcopies : CopiesAt ⟨true, 4097, true⟩ (List.replicate 4097 0) ⟨zeroDevice, 0⟩ 0 := by
    refine ⟨by rw [hbread]; rfl, ?_⟩
    rw [Fs.target, hlen, hoffset]
  refine ⟨hcopies, ?_, fun h => ?_⟩
  · obtain ⟨iSize, hwrite⟩ := onefileWrite_of_bread hbread
    have hmemcpy : memcpy (zeroDevice.block 3) 0 (List.replicate 4097 0) = none := by
      refine if_neg ?_
      rw [← List.length_eq_zero_iff, hlen]
      decide
    rw [hwrite, Fs.target, hlen, hoffset, hmemcpy, Option.map_none]
  · have hwithin := h.within 0 hcopies
    rw [hlen] at hwithin
    exact absurd hwithin (by decide)

end LogFs

end StackReferenceMonitor
