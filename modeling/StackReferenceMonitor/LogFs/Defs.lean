import StackReferenceMonitor.Errno
import StackReferenceMonitor.Foundations.BlockDevice
import StackReferenceMonitor.Foundations.CString
import StackReferenceMonitor.Foundations.MachineInt

/-!
# The log file system

The file system of `log-filesystem/`, which has one file. Block 0 is the superblock, block 1 the
inode of the file, and the data of the file begins at block 2. The size of the file is in two
places: in block 1, as `mkfs` wrote it, and in the inode that the kernel keeps in memory while the
file system is mounted.

What the functions take from their environment is a parameter: the outcome of each allocation, copy
and block read, and the bytes of memory that nobody has initialised. A call that writes outside the
buffer of its block, or reads outside it, or dereferences `NULL`, returns nothing: its result is
`none`.

## Main definitions

* `onefileWrite`, `onefilefsRead`, `onefilefsLookup` of `file.c`.
* `singlefilefsFillSuper` of `file_system.c`.
* `mkfs`: what the program of `singlefilemakefs.c` writes.
* `Fs`: the device and the inode in memory; `Fs.contents`.
-/

namespace StackReferenceMonitor

namespace LogFs

open CString (text)
open MachineInt (signed unsigned)

/-! ### On the device -/

/-- `DEFAULT_BLOCK_SIZE`. -/
abbrev blockSize : ℕ := 4096

/-- A device with blocks of that size. -/
abbrev Device := BlockDevice blockSize

/-- `MAGIC`. -/
def magic : ℕ := 0x42424242

/-- `UNIQUE_FILE_NAME`. -/
def uniqueFileName : List UInt8 := text "ref_monitor_log.txt"

/-- The block that the data of the file begins at, after the superblock and the inode. -/
abbrev dataBlock : ℕ := 2

/-- `file_body`: the line that `mkfs` begins the file with. -/
def fileBody : List UInt8 := text "TID, TGID, UID, EUID, Offending program path, Fingerprint\n"

/-- `struct onefilefs_sb_info`, in memory that held `stack` before: the fields `version`, `magic`
and `block_size`. -/
def superblock (stack : Block blockSize) : Block blockSize :=
  ((stack.patch 0 (MachineInt.encodeLe 8 1)).patch 8 (MachineInt.encodeLe 8 magic)).patch 16
    (MachineInt.encodeLe 8 blockSize)

/-- `struct onefilefs_inode` and the padding of its block, in memory that held `stack` before: the
fields `mode`, `inode_no` and `file_size`. -/
def inodeBlock (stack : Block blockSize) (fileSize : ℕ) : Block blockSize :=
  ((stack.patch 0 (MachineInt.encodeLe 4 0x8000)).patch 8 (MachineInt.encodeLe 8 1)).patch 24
    (MachineInt.encodeLe 8 fileSize)

/-- The field `magic` of the superblock. -/
def magicOf (bh : Block blockSize) : ℕ :=
  MachineInt.decodeLe (bh.slice 8 8)

/-- The field `file_size` of the inode. -/
def fileSizeOf (bh : Block blockSize) : ℕ :=
  MachineInt.decodeLe (bh.slice 24 8)

/-- The image that `singlefilemakefs.c` writes on a device: the two blocks, and `file_body` over
what the device held. -/
def mkfs (d : Device) (sb inode : Block blockSize) : Device :=
  ((d.write 0 (superblock sb)).write 1 (inodeBlock inode fileBody.length)).store
    dataBlock 0 fileBody

/-! ### Mounting -/

/-- What mounting meets. -/
structure MountEnv where
  /-- Whether `sb_bread` of the superblock succeeds. -/
  superblock : Bool
  /-- Whether `iget_locked` of the root succeeds. -/
  rootInode : Bool
  /-- Whether `d_make_root` succeeds. -/
  dMakeRoot : Bool

/-- `singlefilefs_fill_super`. A superblock that cannot be read is dereferenced all the same: what
is tested is `sb` and not `bh`. -/
def singlefilefsFillSuper (env : MountEnv) (d : Device) : Option ℤ := do
  let bh ← d.read env.superblock 0
  if magicOf bh ≠ magic then return -EBADF
  else if !env.rootInode then return -ENOMEM
  else if !env.dMakeRoot then return -ENOMEM
  else return 0

/-- What a lookup meets. -/
structure LookupEnv where
  /-- Whether `iget_locked` succeeds. -/
  igetLocked : Bool
  /-- Whether `sb_bread` of the inode's block succeeds. -/
  sbBread : Bool

/-- `onefilefs_lookup`: the `i_size` of the inode that the name now has, or an error. An inode that
is in the cache is left as it is; a new one takes its size from block 1. Another name has no
inode. -/
def onefilefsLookup (env : LookupEnv) (d : Device) (cached : Option ℤ) (name : List UInt8) :
    Except ℤ (Option ℤ) :=
  if CString.strcmp name uniqueFileName = 0 then
    if !env.igetLocked then .error (-ENOMEM)
    else
      match cached with
      | some iSize => .ok (some iSize)
      | none =>
        match d.read env.sbBread 1 with
        | none => .error (- EIO)
        | some bh => .ok (some (signed 64 (fileSizeOf bh)))
  else .ok none

/-! ### The mounted file -/

/-- The file system while it is mounted and its file was looked up. -/
structure Fs where
  /-- The device. -/
  device : Device
  /-- `i_size` of the file's inode, a `loff_t`. -/
  iSize : ℤ

/-- The bytes of the file. -/
def Fs.contents (fs : Fs) : List UInt8 :=
  fs.device.bytes dataBlock fs.iSize.toNat

/-! ### Writing -/

/-- What a write meets. -/
structure WriteEnv where
  /-- Whether `kmalloc` of `data` succeeds. -/
  kmalloc : Bool
  /-- What `_copy_from_iter` copies. -/
  copied : ℕ
  /-- Whether `sb_bread` succeeds, if the device has the block. -/
  sbBread : Bool

/-- The variables of `onefile_write` that say where the payload goes. -/
structure Target where
  /-- `block_to_write`, an `int`. -/
  blockToWrite : ℤ
  /-- `offset`, a `loff_t`: the position in the file. -/
  offset : ℤ
  /-- `block_offset`, a `loff_t`: the position in the block. -/
  blockOffset : ℤ

/-- Where a payload goes that is appended to a file of this size. -/
def Target.ofSize (fileSize : ℤ) (payload : ℕ) : Target :=
  let offset := signed 64 fileSize
  let blockOffset := offset.tmod 4096
  let blockToWrite := signed 32 (offset.tdiv 4096 + 2)
  -- the rest of the block is too small, and the payload goes to the next one; the subtraction is
  -- compared as unsigned
  if unsigned 64 (4096 - blockOffset) < payload then
    { blockToWrite := signed 32 (blockToWrite + 1)
      offset := signed 64 (offset + (4096 - blockOffset))
      blockOffset := 0 }
  else
    { blockToWrite, offset, blockOffset }

/-- `memcpy` into the buffer of a block. -/
def memcpy (bh : Block blockSize) (off : ℤ) (data : List UInt8) : Option (Block blockSize) :=
  if data = [] ∨ 0 ≤ off ∧ off + data.length ≤ blockSize then some (bh.patch off.toNat data)
  else none

/-- `onefile_write`: what it returns, and the file system after it. -/
def onefileWrite (env : WriteEnv) (data : List UInt8) (fs : Fs) : Option (ℤ × Fs) :=
  let fileSize := unsigned 64 fs.iSize
  if !env.kmalloc then some (0, fs)
  else if env.copied ≠ data.length then some (0, fs)
  else
    let target := Target.ofSize fileSize data.length
    -- the block number is a `sector_t`, an unsigned type
    let block := (unsigned 64 target.blockToWrite).toNat
    match fs.device.read env.sbBread block with
    | none => some (- EIO, fs)
    | some bh => do
      let bh ← memcpy bh target.blockOffset data
      let newSize := unsigned 64 (target.offset + data.length)
      -- only the inode in memory is changed: block 1 keeps the size that `mkfs` wrote
      return (data.length,
        { device := fs.device.write block bh
          iSize := if newSize > fileSize then signed 64 newSize else fs.iSize })

/-! ### Reading -/

/-- What a read meets. -/
structure ReadEnv where
  /-- Whether `sb_bread` succeeds, if the device has the block. -/
  sbBread : Bool
  /-- What `copy_to_user` leaves uncopied, of `len` bytes. -/
  copyToUser : ℕ → ℕ

/-- What a read returns. -/
structure ReadResult where
  /-- The return value. -/
  ret : ℤ
  /-- The bytes that were copied. -/
  bytes : List UInt8
  /-- `*off` after the read. -/
  off : ℤ

/-- The bytes that `copy_to_user` copies from the buffer of a block. -/
def copyOut (bh : Block blockSize) (off : ℤ) (copied : ℕ) : Option (List UInt8) :=
  if copied = 0 ∨ 0 ≤ off ∧ off + copied ≤ blockSize then some (bh.slice off.toNat copied)
  else none

/-- `onefilefs_read` of `len` bytes at `*off`, with `fileSize` the size that it has looked at before
it takes the lock. -/
def onefilefsRead (env : ReadEnv) (d : Device) (fileSize : ℤ) (len : ℕ) (off : ℤ) :
    Option ReadResult :=
  if unsigned 64 off ≥ fileSize then some ⟨0, [], off⟩
  else
    let len := if unsigned 64 (off + len) > fileSize then unsigned 64 (fileSize - off) else len
    let offset := off.tmod 4096
    -- one block at most
    let len := if unsigned 64 (offset + len) > 4096 then unsigned 64 (4096 - offset) else len
    let blockToRead := signed 32 (off.tdiv 4096 + 2)
    match d.read env.sbBread (unsigned 64 blockToRead).toNat with
    | none => some ⟨- EIO, [], off⟩
    | some bh => do
      let copied := len.toNat - env.copyToUser len.toNat
      let bytes ← copyOut bh offset copied
      return ⟨copied, bytes, off + copied⟩

/-- A reader that reads `len` bytes at a time from `*off` on, until a read returns `0`: all that it
has got. -/
def readToEnd (env : ReadEnv) (fs : Fs) (len : ℕ) : ℕ → ℤ → Option (List UInt8)
  | 0, _ => none
  | fuel + 1, off => do
    let result ← onefilefsRead env fs.device (unsigned 64 fs.iSize) len off
    if result.ret < 0 then none
    else if result.ret = 0 then return []
    else
      let rest ← readToEnd env fs len fuel result.off
      return result.bytes ++ rest

end LogFs

end StackReferenceMonitor
