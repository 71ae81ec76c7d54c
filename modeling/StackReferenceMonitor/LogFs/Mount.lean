import StackReferenceMonitor.LogFs.Append

/-!
# Mounting what `mkfs` wrote

What `mkfs` writes is what a mount accepts: the magic number of block 0 is the one that
`singlefilefs_fill_super` looks for, the size that `onefilefs_lookup` finds in block 1 is that of
`file_body`, and the file then has these bytes.

## Main definitions

* `mount`: a mount and the first lookup of the file.
* `Formatted`: blocks 0 and 1 are as `mkfs` writes them.

## Main results

* `mount_eq_some`: the file after a mount of a formatted device;
* `contents_mkfs`: its contents, right after `mkfs`.
-/

namespace StackReferenceMonitor

namespace LogFs

open MachineInt (signed)

/-- A mount, and the first lookup of the file after it: the file system, if both succeed. -/
def mount (menv : MountEnv) (lenv : LookupEnv) (d : Device) : Option Fs :=
  if singlefilefsFillSuper menv d = some 0 then
    match onefilefsLookup lenv d none uniqueFileName with
    | .ok (some iSize) => some { device := d, iSize }
    | _ => none
  else none

/-- Blocks 0 and 1 have the magic number and the size that `mkfs` writes. -/
structure Formatted (d : Device) : Prop where
  /-- The superblock. -/
  magic : magicOf (d.block 0) = magic
  /-- The inode. -/
  size : fileSizeOf (d.block 1) = fileBody.length

theorem magicOf_superblock (sb : Block blockSize) : magicOf (superblock sb) = magic := by
  have hslice : (superblock sb).slice 8 8 = MachineInt.encodeLe 8 magic := by
    -- the magic number is written after the version, and both are kept
    rw [superblock, Block.slice_patch_of_le _ _ (by decide)]
    exact Block.slice_patch _ _ _ (by decide)
  rw [magicOf, hslice, MachineInt.decodeLe_encodeLe]
  rfl

theorem fileSizeOf_inodeBlock (inode : Block blockSize) {size : ℕ} (h : size < 2 ^ 64) :
    fileSizeOf (inodeBlock inode size) = size := by
  have hslice : (inodeBlock inode size).slice 24 8 = MachineInt.encodeLe 8 size := by
    have hpatch := Block.slice_patch (((inode.patch 0 (MachineInt.encodeLe 4 0x8000)).patch 8
      (MachineInt.encodeLe 8 1))) 24 (MachineInt.encodeLe 8 size) (by simp [blockSize])
    rwa [MachineInt.length_encodeLe] at hpatch
  rw [fileSizeOf, hslice, MachineInt.decodeLe_encodeLe]
  exact Nat.mod_eq_of_lt h

theorem fileBody_length : fileBody.length = 58 := by
  decide +kernel

theorem signed_fileBody_length : signed 64 (fileBody.length : ℤ) = fileBody.length := by
  rw [fileBody_length]
  decide

/-- The file that `mkfs` makes has a size in range. -/
theorem Fs.small_image (d : Device) : Fs.Small { device := d, iSize := fileBody.length } := by
  refine ⟨Int.natCast_nonneg _, ?_⟩
  show (fileBody.length : ℤ) ≤ 2 ^ 43
  rw [fileBody_length]
  decide

/-- What `mkfs` writes is formatted. -/
theorem formatted_mkfs (d : Device) (sb inode : Block blockSize) : Formatted (mkfs d sb inode) := by
  -- each write goes to a block of its own
  have h0 : (mkfs d sb inode).block 0 = superblock sb := by
    rw [mkfs, BlockDevice.store_block_of_ne _ _ (by decide),
      BlockDevice.write_block_of_ne _ _ (by decide), BlockDevice.write_block_self]
  have h1 : (mkfs d sb inode).block 1 = inodeBlock inode fileBody.length := by
    rw [mkfs, BlockDevice.store_block_of_ne _ _ (by decide), BlockDevice.write_block_self]
  constructor
  · rw [h0]
    exact magicOf_superblock sb
  · rw [h1]
    exact fileSizeOf_inodeBlock inode (by rw [fileBody_length]; decide)

/-- The name of the file is looked up. -/
theorem strcmp_uniqueFileName : CString.strcmp uniqueFileName uniqueFileName = 0 :=
  (CString.strcmp_eq_zero_iff _ _).mpr rfl

/-- The file after a mount of a formatted device has the size that `mkfs` wrote, whatever was
written since. -/
theorem mount_eq_some {menv : MountEnv} {lenv : LookupEnv} {d : Device} {fs : Fs}
    (hd : Formatted d) (h : mount menv lenv d = some fs) :
    fs = { device := d, iSize := fileBody.length } := by
  unfold mount onefilefsLookup at h
  rw [if_pos strcmp_uniqueFileName] at h
  split_ifs at h with hsuper higet
  -- `onefilefs_lookup` takes the size from block 1 and from nowhere else
  cases hread : d.read lenv.sbBread 1 with
  | none => simp [hread] at h
  | some bh =>
    obtain rfl := BlockDevice.block_of_read hread
    simp only [hread, hd.size, signed_fileBody_length] at h
    exact (Option.some.inj h).symm

/-- A device that has its first two blocks can be mounted. -/
theorem mount_eq_some_of_formatted {d : Device} (hd : Formatted d) (hcount : 2 ≤ d.count) :
    mount ⟨true, true, true⟩ ⟨true, true⟩ d =
      some { device := d, iSize := fileBody.length } := by
  have hsuper : singlefilefsFillSuper ⟨true, true, true⟩ d = some 0 := by
    simp [singlefilefsFillSuper, d.read_of_lt (show 0 < d.count by omega), hd.magic]
  simp [mount, hsuper, onefilefsLookup, strcmp_uniqueFileName,
    d.read_of_lt (show 1 < d.count by omega), hd.size, signed_fileBody_length]

/-- The file that `mkfs` makes has `file_body`. -/
theorem contents_mkfs (d : Device) (sb inode : Block blockSize) :
    Fs.contents { device := mkfs d sb inode, iSize := fileBody.length } = fileBody := by
  have hbytes := BlockDevice.bytes_store ((d.write 0 (superblock sb)).write 1
    (inodeBlock inode fileBody.length)) dataBlock 0 fileBody
    (by rw [fileBody_length]; decide)
  rw [Nat.zero_add] at hbytes
  rw [Fs.contents, Int.toNat_natCast]
  exact hbytes

/-- The image on a device of zeros, mounted. -/
def sampleImage : Fs where
  device := mkfs zeroDevice (fun _ => 0) (fun _ => 0)
  iSize := fileBody.length

theorem mount_sampleImage :
    mount ⟨true, true, true⟩ ⟨true, true⟩ (mkfs zeroDevice (fun _ => 0) (fun _ => 0)) =
      some sampleImage :=
  mount_eq_some_of_formatted (formatted_mkfs _ _ _) (by decide)

end LogFs

end StackReferenceMonitor
