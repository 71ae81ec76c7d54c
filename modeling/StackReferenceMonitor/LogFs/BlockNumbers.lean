import StackReferenceMonitor.LogFs.Mount
import StackReferenceMonitor.LogFs.Read

/-!
# Block numbers that do not fit

Sizes and positions have 64 bits, and the block that belongs to one is computed in 64 bits and kept
in an `int`. `onefilefs_lookup` takes the size from the image unchecked. From `2 ^ 31` blocks on the
number that is kept is another one: a negative one is no block of any device, and the call fails;
but `2 ^ 32` numbers later it is the superblock.

## Main definitions

* `WritesOneBlock`, `ReadsOneBlock`: a call touches the block of its position only.
* `codeBlock`: the number that `onefile_write` computes, before it is kept in an `int`.

## Main results

* `writesOneBlock_iff`, `readsOneBlock_iff`: when they do;
* `blockNumbers_iff`: both, for every size on the image, payload, position and length.
-/

namespace StackReferenceMonitor

namespace LogFs

open MachineInt (signed unsigned)

/-! ### Writing -/

/-- With the size `v` on the image, a write returns, and modifies at most the block of the position
at which the payload is appended. -/
def WritesOneBlock (v : ℕ) (data : List UInt8) : Prop :=
  ∀ (env : WriteEnv) (d : Device), ∃ ret fs',
    onefileWrite env data ⟨d, signed 64 v⟩ = some (ret, fs') ∧
      ∀ k, k ≠ appendAt v data.length / blockSize + dataBlock → fs'.device.block k = d.block k

/-- The number that `onefile_write` computes for the block, up to a multiple of `2 ^ 32`. A size
from `2 ^ 63` on is negative as a `loff_t`, and is divided towards zero. -/
def codeBlock (v len : ℕ) : ℕ :=
  if v < 2 ^ 63 then appendAt v len / blockSize + dataBlock
  else (v + (blockSize - 1)) / blockSize + dataBlock

/-- A size that as a `loff_t` is `-w`. -/
theorem Target.ofSize_of_neg {v w len : ℕ} (hvw : v + w = 2 ^ 64) (hv : 2 ^ 63 ≤ v)
    (hlen : len ≤ blockSize) :
    Target.ofSize v len =
      { blockToWrite := signed 32 (-(w / 4096 : ℕ) + 2)
        offset := -(w : ℤ)
        blockOffset := -((w % 4096 : ℕ) : ℤ) } := by
  have hoffset : signed 64 (v : ℤ) = -(w : ℤ) := by
    have hsub : (v : ℤ) - (2 ^ 64 : ℕ) = -(w : ℤ) := by omega
    rw [signed, ← Int.sub_bmod_right, hsub, Int.bmod_eq_of_le (by omega) (by omega)]
  have hdiv : (-(w : ℤ)).tdiv 4096 = -((w / 4096 : ℕ) : ℤ) := by
    rw [Int.neg_tdiv]
    rfl
  have hmod : (-(w : ℤ)).tmod 4096 = -((w % 4096 : ℕ) : ℤ) := by
    rw [Int.neg_tmod]
    rfl
  -- the rest of the block is taken to be more than a block, so that there is always room
  have hroom : ¬unsigned 64 (4096 - -((w % 4096 : ℕ) : ℤ)) < len := by
    rw [MachineInt.unsigned_of_mem (by omega) (by omega)]
    simp only [blockSize] at hlen
    omega
  simp only [Target.ofSize, hoffset, hdiv, hmod]
  rw [if_neg hroom]

/-- The number that is computed. -/
theorem Target.blockToWrite_ofSize {v len : ℕ} (hv : v < 2 ^ 64) (hlen : len ≤ blockSize) :
    ∃ n : ℤ, (Target.ofSize v len).blockToWrite = signed 32 n ∧
      n % 2 ^ 32 = (codeBlock v len % 2 ^ 32 : ℕ) := by
  by_cases hlo : v < 2 ^ 63
  · refine ⟨codeBlock v len, ?_, by omega⟩
    rw [Target.ofSize_of_lt v len hlo, codeBlock, if_pos hlo]
  · obtain ⟨w, hw⟩ : ∃ w, v + w = 2 ^ 64 := ⟨2 ^ 64 - v, by omega⟩
    rw [Target.ofSize_of_neg hw (by omega) hlen, codeBlock, if_neg hlo]
    refine ⟨_, rfl, ?_⟩
    simp only [blockSize, dataBlock]
    omega

section Write

variable {v : ℕ} {data : List UInt8}

/-- `block_to_write` as a `sector_t`. -/
def sector (v len : ℕ) : ℕ :=
  (unsigned 64 (Target.ofSize v len).blockToWrite).toNat

theorem sector_eq (hv : v < 2 ^ 64) {len : ℕ} (hlen : len ≤ blockSize)
    (h : codeBlock v len % 2 ^ 32 < 2 ^ 31) : sector v len = codeBlock v len % 2 ^ 32 := by
  obtain ⟨n, hblock, hn⟩ := Target.blockToWrite_ofSize hv hlen
  rw [sector, hblock, MachineInt.toNat_unsigned_64_signed_32_of_lt (by omega), hn,
    Int.toNat_natCast]

/-- A negative number is no block of any device. -/
theorem read_sector (hv : v < 2 ^ 64) {len : ℕ} (hlen : len ≤ blockSize)
    (h : 2 ^ 31 ≤ codeBlock v len % 2 ^ 32) (d : Device) (works : Bool) :
    d.read works (sector v len) = none := by
  obtain ⟨n, hblock, hn⟩ := Target.blockToWrite_ofSize hv hlen
  rw [sector, hblock, read_overflowed d works (by omega)]

/-- The size that a call finds in the inode is the one on the image. -/
theorem unsigned_of_image (hv : v < 2 ^ 64) : unsigned 64 (signed 64 (v : ℤ)) = v := by
  rw [MachineInt.unsigned_signed, MachineInt.unsigned_of_mem (by omega) (by omega)]

/-- The block that a write reads is the one with the computed number. -/
theorem bread_of_image (hv : v < 2 ^ 64) (env : WriteEnv) (data : List UInt8) (d : Device) :
    env.bread data ⟨d, signed 64 v⟩ =
      if env.kmalloc = true ∧ env.copied = data.length then
        d.read env.sbBread (sector v data.length)
      else none := by
  rw [WriteEnv.bread, Fs.target, unsigned_of_image hv, sector]

/-- A write that has read its block. -/
theorem onefileWrite_of_read (hv : v < 2 ^ 64) (env : WriteEnv) {d : Device}
    {bh : Block blockSize} (hkmalloc : env.kmalloc = true) (hcopied : env.copied = data.length)
    (hread : d.read env.sbBread (sector v data.length) = some bh) :
    ∃ iSize, onefileWrite env data ⟨d, signed 64 v⟩ =
      (memcpy bh (Target.ofSize v data.length).blockOffset data).map fun bh =>
        ((data.length : ℤ), ⟨d.write (sector v data.length) bh, iSize⟩) := by
  have hbread : env.bread data ⟨d, signed 64 v⟩ = some bh := by
    rw [bread_of_image hv, if_pos ⟨hkmalloc, hcopied⟩, hread]
  have hwrite := onefileWrite_of_bread hbread
  simp only [Fs.target, unsigned_of_image hv] at hwrite
  simp only [sector]
  exact hwrite

/-- A write that fails before that. -/
theorem onefileWrite_of_failure (hv : v < 2 ^ 64) (env : WriteEnv) (d : Device)
    (h : ¬(env.kmalloc = true ∧ env.copied = data.length) ∨
      d.read env.sbBread (sector v data.length) = none) :
    ∃ ret, onefileWrite env data ⟨d, signed 64 v⟩ = some (ret, ⟨d, signed 64 v⟩) := by
  have hbread : env.bread data ⟨d, signed 64 v⟩ = none := by
    rw [bread_of_image hv]
    split_ifs with hcopied
    · exact h.resolve_left (not_not.mpr hcopied)
    · rfl
  rcases onefileWrite_of_bread_eq_none hbread with hwrite | hwrite
  · exact ⟨_, hwrite⟩
  · exact ⟨_, hwrite⟩

/-- A payload of nothing changes no block. -/
theorem memcpy_nil (bh : Block blockSize) (off : ℤ) : memcpy bh off [] = some bh := by
  rw [memcpy, if_pos (Or.inl rfl), Block.patch_nil]

/-- What `memcpy` has copied is at its place in the block. -/
theorem memcpy_eq_some {bh bh' : Block blockSize} {off : ℤ} {b : UInt8} {rest : List UInt8}
    (h : memcpy bh off (b :: rest) = some bh') : ∃ i, bh' i = b := by
  by_cases hfits : 0 ≤ off ∧ off + (b :: rest).length ≤ blockSize
  swap
  · rw [memcpy, if_neg (by simpa using hfits)] at h
    exact absurd h (by simp)
  obtain ⟨hlo, hhi⟩ := hfits
  rw [memcpy, if_pos (Or.inr ⟨hlo, hhi⟩)] at h
  have hlt : off.toNat < blockSize := by
    rw [List.length_cons] at hhi
    omega
  refine ⟨⟨off.toNat, hlt⟩, ?_⟩
  rw [← Option.some.inj h]
  simp [Block.patch]

/-- The append position of a size whose computed block number overflows is in a block whose number
does. -/
theorem le_appendBlock {len : ℕ} (h : 2 ^ 31 ≤ codeBlock v len) :
    2 ^ 31 ≤ appendAt v len / blockSize + dataBlock := by
  have hle := le_appendAt v len
  rw [codeBlock] at h
  split_ifs at h with hlo
  · exact h
  · simp only [blockSize, dataBlock]
    omega

/-- A write touches the block of its position only, if and only if it has nothing to write, or the
number of the block fits an `int`, or as an `int` it is negative. -/
theorem writesOneBlock_iff (hv : v < 2 ^ 64) (hlen : data.length ≤ blockSize) :
    WritesOneBlock v data ↔
      data = [] ∨ codeBlock v data.length < 2 ^ 31 ∨
        2 ^ 31 ≤ codeBlock v data.length % 2 ^ 32 := by
  constructor
  · intro h
    by_contra hnot
    obtain ⟨hne, hbig, hsmall⟩ : data ≠ [] ∧ 2 ^ 31 ≤ codeBlock v data.length ∧
        codeBlock v data.length % 2 ^ 32 < 2 ^ 31 := by
      simpa only [not_or, not_lt, not_le] using hnot
    obtain ⟨b, rest, rfl⟩ := List.exists_cons_of_ne_nil hne
    have hsector := sector_eq hv hlen hsmall
    -- a device that has the wrong block, and the first byte of the payload nowhere
    let d : Device := ⟨2 ^ 31, by decide, fun _ _ => b + 1⟩
    have hread : d.read true (sector v (b :: rest).length) =
        some (d.block (sector v (b :: rest).length)) := d.read_of_lt (by rw [hsector]; exact hsmall)
    let env : WriteEnv := ⟨true, (b :: rest).length, true⟩
    obtain ⟨ret, fs', hwrite, hblocks⟩ := h env d
    obtain ⟨iSize, hrun⟩ := onefileWrite_of_read hv env rfl rfl hread
    rw [hrun, Option.map_eq_some_iff] at hwrite
    obtain ⟨bh, hmemcpy, hresult⟩ := hwrite
    obtain ⟨i, hi⟩ := memcpy_eq_some hmemcpy
    have hother : sector v (b :: rest).length ≠
        appendAt v (b :: rest).length / blockSize + dataBlock := by
      have hle := le_appendBlock hbig
      omega
    have hsame := hblocks _ hother
    rw [← (Prod.mk.inj hresult).2, BlockDevice.write_block_self] at hsame
    rw [hsame] at hi
    exact absurd hi (by simp [d])
  · intro h env d
    by_cases hworks : env.kmalloc = true ∧ env.copied = data.length
    · cases hread : d.read env.sbBread (sector v data.length) with
      | none =>
        obtain ⟨ret, hrun⟩ := onefileWrite_of_failure hv env d (Or.inr hread)
        exact ⟨ret, _, hrun, fun _ _ => rfl⟩
      | some bh =>
        obtain ⟨iSize, hrun⟩ := onefileWrite_of_read hv env hworks.1 hworks.2 hread
        obtain rfl := BlockDevice.block_of_read hread
        rcases h with rfl | hsmall | hneg
        · -- the block is written back as it was read
          rw [memcpy_nil] at hrun
          exact ⟨_, _, hrun, fun k _ => by simp⟩
        · have hlo : v < 2 ^ 63 := by
            by_contra hlo
            rw [codeBlock, if_neg hlo] at hsmall
            simp only [blockSize, dataBlock] at hsmall
            omega
          have hsector := sector_eq hv hlen (by omega)
          rw [Nat.mod_eq_of_lt (by omega), codeBlock, if_pos hlo] at hsector
          rw [Target.ofSize_of_lt v data.length hlo,
            memcpy_of_fits _ (appendAt_fits v hlen)] at hrun
          refine ⟨_, _, hrun, fun k hk => ?_⟩
          rw [← hsector] at hk
          exact d.write_block_of_ne _ hk
        · rw [read_sector hv hlen hneg] at hread
          exact absurd hread (by simp)
    · obtain ⟨ret, hrun⟩ := onefileWrite_of_failure hv env d (Or.inl hworks)
      exact ⟨ret, _, hrun, fun _ _ => rfl⟩

end Write

/-! ### Reading -/

/-- With the size `v` on the image, a read of `len` bytes at `x` returns, and what it returns are
bytes of the block of `x`, or none. -/
def ReadsOneBlock (v x len : ℕ) : Prop :=
  ∀ (env : ReadEnv) (d : Device), ∃ r, onefilefsRead env d v len x = some r ∧
    r.bytes <:+: List.ofFn (d.block (x / blockSize + dataBlock))

section Read

variable {v x len : ℕ}

/-- `block_to_read` as a `sector_t`. -/
def readSector (x : ℕ) : ℕ :=
  (unsigned 64 (signed 32 (x / blockSize + dataBlock : ℕ))).toNat

/-- What is left of the length of a read after both cuts. A length for which the sum with the
position in the block overflows is not cut at all. -/
theorem cut_length (hx : x < v) (hv : v < 2 ^ 64) (hx' : x < 2 ^ 63) (hlen : len < 2 ^ 64) :
    ∃ l : ℕ,
      (x % 4096 + len < 2 ^ 64 → x % 4096 + l ≤ 4096 ∧ (l = 0 ↔ len = 0)) ∧
      (2 ^ 64 ≤ x % 4096 + len → l = len) ∧
      ∀ (env : ReadEnv) (d : Device),
        (d.read env.sbBread (readSector x) = none →
          onefilefsRead env d v len x = some ⟨- EIO, [], x⟩) ∧
        ∀ bh, d.read env.sbBread (readSector x) = some bh →
          onefilefsRead env d v len x =
            (copyOut bh (x % 4096 : ℕ) (l - env.copyToUser l)).map fun bytes =>
              ⟨(l - env.copyToUser l : ℕ), bytes, x + (l - env.copyToUser l : ℕ)⟩ := by
  have hunsigned : unsigned 64 (x : ℤ) = x :=
    MachineInt.unsigned_of_mem (by omega) (by omega)
  have hmod : (x : ℤ).tmod 4096 = (x % 4096 : ℕ) := rfl
  have hdiv : (x : ℤ).tdiv 4096 + 2 = (x / blockSize + dataBlock : ℕ) := rfl
  -- the cut at the end of the file, which a sum that overflows escapes
  obtain ⟨m, hm, hfits, hover⟩ : ∃ m : ℕ,
      (if unsigned 64 ((x : ℤ) + len) > v then unsigned 64 ((v : ℤ) - x) else (len : ℤ)) = m ∧
        (x % 4096 + len < 2 ^ 64 → x % 4096 + m < 2 ^ 64 ∧ (m = 0 ↔ len = 0)) ∧
        (2 ^ 64 ≤ x % 4096 + len → m = len) := by
    unfold unsigned
    split_ifs with hcut
    · exact ⟨v - x, by omega, by omega, by omega⟩
    · exact ⟨len, rfl, fun h => ⟨h, Iff.rfl⟩, fun _ => rfl⟩
  -- the cut at the end of the block
  obtain ⟨l, hl, hlfits, hlover⟩ : ∃ l : ℕ,
      (if unsigned 64 (((x % 4096 : ℕ) : ℤ) + m) > 4096 then
          unsigned 64 (4096 - ((x % 4096 : ℕ) : ℤ)) else (m : ℤ)) = l ∧
        (x % 4096 + m < 2 ^ 64 → x % 4096 + l ≤ 4096 ∧ (l = 0 ↔ m = 0)) ∧
        (2 ^ 64 ≤ x % 4096 + m → m < 2 ^ 64 → l = m) := by
    unfold unsigned
    split_ifs with hcut
    · exact ⟨4096 - x % 4096, by omega, by omega, by omega⟩
    · exact ⟨m, rfl, by omega, fun _ _ => rfl⟩
  refine ⟨l, ?_, ?_, ?_⟩
  · intro h
    obtain ⟨hlt, hzero⟩ := hfits h
    obtain ⟨hle, hzero'⟩ := hlfits hlt
    exact ⟨hle, hzero'.trans hzero⟩
  · intro h
    obtain rfl := hover h
    exact hlover h hlen
  · intro env d
    simp only [onefilefsRead, hunsigned, hmod, hdiv, hm, hl]
    rw [if_neg (by omega), Int.toNat_natCast]
    constructor
    · intro hread
      rw [readSector] at hread
      rw [hread]
    · intro bh hread
      rw [readSector] at hread
      rw [hread]
      dsimp only
      cases copyOut bh (x % 4096 : ℕ) (l - env.copyToUser l) <;> rfl

/-- A read gets bytes of its own block only, if and only if it is at or past the end of the file, or
the number of the block is negative as an `int`, or its length does not overflow the position in the
block and it is for nothing, or of a block whose number fits an `int`. -/
theorem readsOneBlock_iff (hv : v < 2 ^ 64) (hx : x < 2 ^ 63) (hlen : len < 2 ^ 64) :
    ReadsOneBlock v x len ↔
      v ≤ x ∨ 2 ^ 31 ≤ (x / blockSize + dataBlock) % 2 ^ 32 ∨
        x % blockSize + len < 2 ^ 64 ∧ (len = 0 ∨ x / blockSize + dataBlock < 2 ^ 31) := by
  rcases Nat.lt_or_ge x v with hlt | hge
  swap
  · refine iff_of_true (fun env d => ?_) (Or.inl hge)
    exact ⟨_, onefilefsRead_of_le env d len hge hx, List.nil_infix⟩
  obtain ⟨l, hfits, hover, hread⟩ := cut_length hlt hv hx hlen
  rw [or_iff_right (Nat.not_le.mpr hlt)]
  constructor
  · intro h
    by_contra hnot
    obtain ⟨hpos, hbad⟩ : (x / blockSize + dataBlock) % 2 ^ 32 < 2 ^ 31 ∧
        (x % blockSize + len < 2 ^ 64 → len ≠ 0 ∧ 2 ^ 31 ≤ x / blockSize + dataBlock) := by
      simpa only [not_or, not_le, not_and, not_lt] using hnot
    -- a device with ones in the block of `x`, and zeros in all others
    let d : Device := ⟨x / blockSize + dataBlock + 1, by simp only [blockSize, dataBlock]; omega,
      fun k _ => if k = x / blockSize + dataBlock then 1 else 0⟩
    have hsector : readSector x = (x / blockSize + dataBlock) % 2 ^ 32 := by
      rw [readSector, MachineInt.toNat_unsigned_64_signed_32_of_lt (by omega)]
      omega
    have hbh : d.read true (readSector x) = some (d.block (readSector x)) :=
      d.read_of_lt (by rw [hsector]; exact Nat.lt_succ_of_le (Nat.mod_le _ _))
    obtain ⟨r, hr, hpart⟩ := h plainRead d
    rw [(hread plainRead d).2 _ hbh] at hr
    have hcopied : l - plainRead.copyToUser l = l := Nat.sub_zero l
    rw [hcopied] at hr
    by_cases hsum : x % blockSize + len < 2 ^ 64
    · obtain ⟨hne, hbig⟩ := hbad hsum
      obtain ⟨hle, hzero⟩ := hfits hsum
      rw [copyOut_of_fits _ hle, Option.map_some] at hr
      have hbytes : r.bytes = (d.block (readSector x)).slice (x % 4096) l := by
        rw [← Option.some.inj hr]
      obtain ⟨b, hb⟩ : ∃ b, b ∈ r.bytes := by
        refine List.exists_mem_of_length_pos ?_
        rw [hbytes, Block.length_slice]
        simp only [blockSize]
        omega
      -- the byte is a zero of the wrong block, and a one of the right one
      have hone := List.mem_ofFn.mp (hpart.subset hb)
      rw [hbytes] at hb
      have hzero := List.mem_ofFn.mp ((Block.slice_infix _ _ _).subset hb)
      obtain ⟨i, rfl⟩ := hzero
      obtain ⟨j, hj⟩ := hone
      have hother : readSector x ≠ x / blockSize + dataBlock := by omega
      simp [d, hother] at hj
    · -- the length is not cut, and the copy runs out of the block
      have hl := hover (Nat.not_lt.mp hsum)
      have hnone : copyOut (d.block (readSector x)) (x % 4096 : ℕ) l = none := by
        refine if_neg ?_
        simp only [blockSize] at hsum ⊢
        omega
      rw [hnone] at hr
      exact absurd hr (by simp)
  · intro h env d
    cases hbh : d.read env.sbBread (readSector x) with
    | none => exact ⟨_, (hread env d).1 hbh, List.nil_infix⟩
    | some bh =>
      have hpos : ¬2 ^ 31 ≤ (x / blockSize + dataBlock) % 2 ^ 32 := by
        intro hneg
        rw [readSector, read_overflowed d _ (by omega)] at hbh
        exact absurd hbh (by simp)
      obtain ⟨hsum, hkind⟩ := h.resolve_left hpos
      obtain ⟨hle, hzero⟩ := hfits hsum
      have hcopy : x % 4096 + (l - env.copyToUser l) ≤ blockSize := by
        simp only [blockSize]
        omega
      have hrun := (hread env d).2 bh hbh
      rw [copyOut_of_fits _ hcopy, Option.map_some] at hrun
      refine ⟨_, hrun, ?_⟩
      rcases hkind with hnil | hsmall
      · -- nothing is copied, from whichever block
        have hcopied : l - env.copyToUser l = 0 := by
          rw [hzero.mpr hnil, Nat.zero_sub]
        show bh.slice (x % 4096) (l - env.copyToUser l) <:+: _
        rw [hcopied, Block.slice, List.take_zero]
        exact List.nil_infix
      · rw [readSector, MachineInt.toNat_unsigned_64_signed_32 hsmall] at hbh
        rw [BlockDevice.block_of_read hbh]
        exact Block.slice_infix _ _ _

end Read

/-! ### Both -/

/-- Every size can be on the image, and a lookup takes it as it is. -/
theorem onefilefsLookup_of_inodeBlock (d : Device) (stack : Block blockSize) {v : ℕ}
    (hv : v < 2 ^ 64) (hcount : 1 < d.count) :
    onefilefsLookup ⟨true, true⟩ (d.write 1 (inodeBlock stack v)) none uniqueFileName =
      .ok (some (signed 64 v)) := by
  have hread : (d.write 1 (inodeBlock stack v)).read true 1 = some (inodeBlock stack v) := by
    rw [BlockDevice.read, if_pos ⟨rfl, hcount⟩, BlockDevice.write_block_self]
  rw [onefilefsLookup, if_pos strcmp_uniqueFileName, hread, if_neg (by decide)]
  dsimp only
  rw [fileSizeOf_inodeBlock stack hv]

/-- For every size on the image, every payload of at most one block, and every position and length
of a read: the write modifies the block of its position only and the read returns bytes of the block
of its position only, if and only if the numbers of these blocks are right or negative as an `int`,
apart from calls that have nothing to write or to read, and the length of the read does not overflow
the position in its block. -/
theorem blockNumbers_iff {v x len : ℕ} {data : List UInt8} (hv : v < 2 ^ 64)
    (hdata : data.length ≤ blockSize) (hx : x < 2 ^ 63) (hlen : len < 2 ^ 64) :
    WritesOneBlock v data ∧ ReadsOneBlock v x len ↔
      (data = [] ∨ codeBlock v data.length < 2 ^ 31 ∨
          2 ^ 31 ≤ codeBlock v data.length % 2 ^ 32) ∧
        (v ≤ x ∨ 2 ^ 31 ≤ (x / blockSize + dataBlock) % 2 ^ 32 ∨
          x % blockSize + len < 2 ^ 64 ∧ (len = 0 ∨ x / blockSize + dataBlock < 2 ^ 31)) :=
  and_congr (writesOneBlock_iff hv hdata) (readsOneBlock_iff hv hx hlen)

/-- A file of three blocks. -/
theorem blockNumbers_three_blocks : WritesOneBlock 12288 [97] ∧ ReadsOneBlock 12288 5000 100 :=
  (blockNumbers_iff (by decide) (by decide) (by decide) (by decide)).mpr
    ⟨by decide, by decide⟩

/-- An image with a `file_size` of `2 ^ 44 - 8192`. -/
def hugeImage : Device :=
  zeroDevice.write 1 (inodeBlock (fun _ => 0) (2 ^ 44 - 8192))

/-- After a lookup on that image, a write of one byte returns `1` and has overwritten the
superblock. -/
theorem superblock_overwritten :
    onefilefsLookup ⟨true, true⟩ hugeImage none uniqueFileName =
        .ok (some (signed 64 (2 ^ 44 - 8192 : ℕ))) ∧
      (∃ fs', onefileWrite ⟨true, 1, true⟩ [97] ⟨hugeImage, signed 64 (2 ^ 44 - 8192 : ℕ)⟩ =
          some (1, fs') ∧ fs'.device.block 0 ≠ hugeImage.block 0) ∧
      ¬WritesOneBlock (2 ^ 44 - 8192) [97] := by
  have hbyte : (onefileWrite ⟨true, 1, true⟩ [97]
      ⟨hugeImage, signed 64 (2 ^ 44 - 8192 : ℕ)⟩).map (fun r => (r.1, r.2.device.block 0 0)) =
        some (1, 97) := by decide +kernel
  have hzero : hugeImage.block 0 0 = 0 := by decide +kernel
  obtain ⟨⟨ret, fs'⟩, hrun, heq⟩ := Option.map_eq_some_iff.mp hbyte
  obtain ⟨hret, hblock⟩ := Prod.mk.inj heq
  obtain rfl : ret = 1 := hret
  have hchanged : fs'.device.block 0 ≠ hugeImage.block 0 := by
    intro hsame
    rw [hsame, hzero] at hblock
    exact absurd hblock (by decide)
  refine ⟨onefilefsLookup_of_inodeBlock _ _ (by decide) (by decide), ⟨fs', hrun, hchanged⟩, ?_⟩
  intro h
  obtain ⟨ret, fs'', hrun', hblocks⟩ := h ⟨true, 1, true⟩ hugeImage
  obtain ⟨-, rfl⟩ := Prod.mk.inj (Option.some.inj (hrun.symm.trans hrun'))
  exact hchanged (hblocks 0 (by decide))

end LogFs

end StackReferenceMonitor
