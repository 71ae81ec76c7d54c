import StackReferenceMonitor.LogFs.Append

/-!
# Reading the log file

A read returns bytes of one block, and the reader asks again for the rest. When no block read and
no copy fails, what a reader gets from the beginning to the end of the file is its contents.

## Main definitions

* `chunk`: how many bytes one read returns.
* `Fs.OnDevice`: the device has the blocks of the file.
* `Fs.readBack`: reading the whole file.

## Main results

* `onefilefsRead_of_lt`: one read;
* `Fs.OnDevice.readBack`: the reader gets the contents, whatever the length it reads with.
-/

namespace StackReferenceMonitor

namespace LogFs

open MachineInt (signed unsigned)

/-- A read in which nothing fails. -/
def plainRead : ReadEnv :=
  ⟨true, fun _ => 0⟩

/-- The bytes that a read of `len` bytes returns: up to the end of the file, and of the block. -/
def chunk (size len off : ℕ) : ℕ :=
  min (min len (size - off)) (blockSize - off % blockSize)

/-- Bytes within the block are copied. -/
theorem copyOut_of_fits (bh : Block blockSize) {off copied : ℕ} (h : off + copied ≤ blockSize) :
    copyOut bh off copied = some (bh.slice off copied) :=
  if_pos (Or.inr ⟨Int.natCast_nonneg off, by omega⟩)

/-- At the end of the file, a read returns `0`. -/
theorem onefilefsRead_of_le (env : ReadEnv) (d : Device) {size off : ℕ} (len : ℕ) (h : size ≤ off)
    (hoff : off < 2 ^ 63) : onefilefsRead env d size len off = some ⟨0, [], off⟩ := by
  have hunsigned : unsigned 64 (off : ℤ) = off :=
    MachineInt.unsigned_of_mem (by omega) (by omega)
  rw [onefilefsRead, hunsigned, if_pos (by omega)]

/-- Within the file, a read returns the bytes at its place. -/
theorem onefilefsRead_of_lt {d : Device} {size len off : ℕ} (hoff : off < size)
    (hsize : size ≤ 2 ^ 43) (hlen : len < 2 ^ 63)
    (hcount : off / blockSize + dataBlock < d.count)
    (hint : off / blockSize + dataBlock < 2 ^ 31) :
    onefilefsRead plainRead d size len off =
      some
        { ret := chunk size len off
          bytes := (d.bytes dataBlock (off + chunk size len off)).drop off
          off := (off + chunk size len off : ℕ) } := by
  have hunsigned : unsigned 64 (off : ℤ) = off :=
    MachineInt.unsigned_of_mem (by omega) (by omega)
  have hmod : (off : ℤ).tmod 4096 = (off % 4096 : ℕ) := rfl
  have hdiv : (off : ℤ).tdiv 4096 + 2 = (off / blockSize + dataBlock : ℕ) := rfl
  -- the first bound on `len`, by the end of the file
  have hfirst : (if unsigned 64 ((off : ℤ) + len) > size then unsigned 64 ((size : ℤ) - off)
      else (len : ℤ)) = (min len (size - off) : ℕ) := by
    rw [MachineInt.unsigned_of_mem (by omega) (by omega),
      MachineInt.unsigned_of_mem (by omega) (by omega)]
    split_ifs <;> omega
  -- the second, by the end of the block
  have hsecond : (if unsigned 64 ((off % 4096 : ℕ) + (min len (size - off) : ℕ) : ℤ) > 4096 then
      unsigned 64 (4096 - (off % 4096 : ℕ)) else ((min len (size - off) : ℕ) : ℤ)) =
        (chunk size len off : ℕ) := by
    rw [MachineInt.unsigned_of_mem (by omega) (by omega),
      MachineInt.unsigned_of_mem (by omega) (by omega)]
    unfold chunk blockSize
    split_ifs <;> omega
  -- the read is of one block, and both bounds are of that block
  have hfits : off % blockSize + chunk size len off ≤ blockSize := by
    unfold chunk blockSize
    omega
  have hread : d.read plainRead.sbBread (off / blockSize + dataBlock) =
      some (d.block (off / blockSize + dataBlock)) := d.read_of_lt hcount
  have hcopied : chunk size len off - plainRead.copyToUser (chunk size len off) =
      chunk size len off := Nat.sub_zero _
  simp only [onefilefsRead, hunsigned, hmod, hdiv, hfirst, hsecond,
    MachineInt.toNat_unsigned_64_signed_32 hint, hread]
  rw [if_neg (by omega), Int.toNat_natCast, hcopied, copyOut_of_fits _ hfits,
    d.slice_block dataBlock off _ hfits]
  simp

/-- The device has all blocks of the file, and their numbers are right. -/
def Fs.OnDevice (fs : Fs) : Prop :=
  ∀ x < fs.iSize.toNat, x / blockSize + dataBlock < fs.device.count ∧
    x / blockSize + dataBlock < 2 ^ 31

/-- Reading the whole file, `len` bytes at a time. -/
def Fs.readBack (fs : Fs) (len : ℕ) : Option (List UInt8) :=
  readToEnd plainRead fs len (fs.iSize.toNat + 1) 0

/-- Enough reads from `off` on return the rest of the file. -/
theorem Fs.OnDevice.readToEnd {fs : Fs} (hfs : fs.OnDevice) (hsmall : fs.Small) {len : ℕ}
    (hpos : 0 < len) (hlen : len < 2 ^ 63) {fuel off : ℕ} (hoff : off ≤ fs.iSize.toNat)
    (hfuel : fs.iSize.toNat - off < fuel) :
    LogFs.readToEnd plainRead fs len fuel off = some (fs.contents.drop off) := by
  have hle := hsmall.le
  have hsize := hsmall.unsigned_iSize
  -- each read but the last returns at least one byte, so that the fuel suffices
  induction fuel generalizing off with
  | zero => omega
  | succ fuel ih =>
    rw [LogFs.readToEnd, hsize]
    rcases Nat.lt_or_eq_of_le hoff with hlt | heq
    · have hblock := hfs off hlt
      have hmod : off % blockSize < blockSize := Nat.mod_lt _ (by decide)
      have hchunk : 0 < chunk fs.iSize.toNat len off := by
        unfold chunk
        omega
      have hend : off + chunk fs.iSize.toNat len off ≤ fs.iSize.toNat := by
        unfold chunk
        omega
      simp only [onefilefsRead_of_lt hlt (by omega) hlen hblock.1 hblock.2, Option.bind_eq_bind,
        Option.bind_some, ih hend (by omega)]
      rw [if_neg (by omega), if_neg (by omega), Option.pure_def]
      -- what this read returns, and what the others do
      obtain ⟨rest, hrest⟩ := fs.device.bytes_prefix dataBlock hend
      have hlength : (fs.device.bytes dataBlock (off + chunk fs.iSize.toNat len off)).length =
        off + chunk fs.iSize.toNat len off := BlockDevice.length_bytes _ _ _
      rw [Fs.contents, ← hrest, List.drop_left' hlength, List.drop_append_of_le_length (by omega)]
    · -- the last read is at the end of the file and returns `0`
      rw [onefilefsRead_of_le plainRead fs.device len heq.ge (by omega)]
      simp [Fs.contents, heq, List.drop_of_length_le]

/-- Reading the whole file returns its contents. -/
theorem Fs.OnDevice.readBack {fs : Fs} (hfs : fs.OnDevice) (hsmall : fs.Small) {len : ℕ}
    (hpos : 0 < len) (hlen : len < 2 ^ 63) : fs.readBack len = some fs.contents :=
  hfs.readToEnd hsmall hpos hlen (Nat.zero_le _) (Nat.lt_succ_self _)

/-- A write keeps the file on the device. -/
theorem Fs.OnDevice.write {fs : Fs} (hfs : fs.OnDevice) (hsmall : fs.Small) (c : WriteCall) :
    (fs.write c).OnDevice := by
  rcases Fs.write_cases hsmall c with ⟨happend, hcount, hint⟩ | hsame
  · rw [happend]
    intro x hx
    have hfits := appendAt_fits fs.iSize.toNat c.length_le
    have hx' : x < appendAt fs.iSize.toNat c.data.length + c.data.length := hx
    -- no byte is past the block that was written
    have hle : x / blockSize + dataBlock ≤ fs.appendBlock c.data := by
      simp only [Fs.appendBlock, blockSize] at *
      omega
    exact ⟨Nat.lt_of_le_of_lt hle hcount, Nat.lt_of_le_of_lt hle hint⟩
  · rwa [hsame]

end LogFs

end StackReferenceMonitor
