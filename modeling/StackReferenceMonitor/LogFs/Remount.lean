import Mathlib.Data.Set.Lattice
import Mathlib.Order.CompletePartialOrder
import StackReferenceMonitor.LogFs.Mount

/-!
# The log over several mounts

A write changes the size of the file in memory only. Block 1 keeps the size that `mkfs` wrote, and
every mount goes back to it: what was logged before is no longer in the file, and the next write
goes over it.

## Main definitions

* `MountAction`, `Fs.act`: runs of writes and remounts.
* `Fs.written`: the bytes of the device that a write fills.
* `SurvivesRemounts`: what a log should keep over remounts.
* `EmptyBeforeRemounts`: the condition under which it does.

## Main results

* `survivesRemounts_iff`: the log survives exactly the runs in which nothing was logged before a
  remount.
-/

namespace StackReferenceMonitor

namespace LogFs

open MachineInt (unsigned)

/-- A step of the life of the log. -/
inductive MountAction where
  /-- A write. -/
  | write (c : WriteCall)
  /-- An unmount, which flushes the buffers, and a mount. -/
  | remount (menv : MountEnv) (lenv : LookupEnv)

/-- The file system after a step. -/
def Fs.act (fs : Fs) : MountAction → Fs
  | .write c => fs.write c
  | .remount menv lenv => (mount menv lenv fs.device).getD fs

/-- The step succeeds: a write returns the length of its payload, and a mount mounts. -/
def MountAction.Succeeds (fs : Fs) : MountAction → Prop
  | .write c => c.Succeeds fs
  | .remount menv lenv => ∃ fs', mount menv lenv fs.device = some fs'

instance (fs : Fs) : (a : MountAction) → Decidable (a.Succeeds fs)
  | .write c => inferInstanceAs (Decidable (c.Succeeds fs))
  | .remount _ _ => decidable_of_iff _ Option.isSome_iff_exists

/-- The bytes of the device that a write of `data` fills: block numbers, and positions in the
block. -/
def Fs.written (fs : Fs) (data : List UInt8) : Set (ℤ × ℤ) :=
  let target := Target.ofSize (unsigned 64 fs.iSize) data.length
  {p | p.1 = target.blockToWrite ∧ target.blockOffset ≤ p.2 ∧
    p.2 < target.blockOffset + data.length}

/-- The file is the same after each remount, and no write fills bytes that an earlier one has
filled. -/
structure SurvivesRemounts (fs : Fs) (as : List MountAction) : Prop where
  /-- A remount keeps the size and the contents. -/
  remount : ∀ xs menv lenv, xs ++ [.remount menv lenv] <+: as →
    (Run.exec Fs.act fs (xs ++ [.remount menv lenv])).iSize = (Run.exec Fs.act fs xs).iSize ∧
      (Run.exec Fs.act fs (xs ++ [.remount menv lenv])).contents =
        (Run.exec Fs.act fs xs).contents
  /-- A write does not go over what was written before. -/
  disjoint : ∀ xs c ys c', xs ++ [.write c] ++ ys ++ [.write c'] <+: as →
    Disjoint ((Run.exec Fs.act fs xs).written c.data)
      ((Run.exec Fs.act fs (xs ++ [.write c] ++ ys)).written c'.data)

/-- All writes before a remount have an empty payload. -/
def EmptyBeforeRemounts (as : List MountAction) : Prop :=
  ∀ xs menv lenv, xs ++ [.remount menv lenv] <+: as → ∀ c, .write c ∈ xs → c.data = []

/-! ### Steps -/

/-- What every run from the image keeps: block numbers in range, and blocks 0 and 1 as `mkfs` wrote
them. -/
structure Fs.Sound (fs : Fs) : Prop where
  /-- Block numbers are right or negative. -/
  small : fs.Small
  /-- Blocks 0 and 1 were not written. -/
  formatted : Formatted fs.device

theorem Fs.sound_of_formatted {d : Device} (hd : Formatted d) :
    Fs.Sound { device := d, iSize := fileBody.length } :=
  ⟨Fs.small_image d, hd⟩

/-- A remount that succeeds goes back to the size that `mkfs` wrote. -/
theorem Fs.Sound.remount {fs : Fs} (hfs : fs.Sound) {menv : MountEnv} {lenv : LookupEnv}
    (h : MountAction.Succeeds fs (.remount menv lenv)) :
    fs.act (.remount menv lenv) = { device := fs.device, iSize := fileBody.length } := by
  obtain ⟨fs', hmount⟩ := h
  rw [Fs.act, hmount, Option.getD_some]
  exact mount_eq_some hfs.formatted hmount

theorem Fs.Sound.act {fs : Fs} (hfs : fs.Sound) {a : MountAction} (ha : a.Succeeds fs) :
    (fs.act a).Sound := by
  cases a with
  | write c =>
    -- a write leaves the two blocks before the file alone
    have hblock : ∀ k < dataBlock, (fs.write c).device.block k = fs.device.block k := by
      rw [Fs.write_of_succeeds hfs.small ha]
      exact fun k hk => fs.append_block c.data hk
    refine ⟨hfs.small.write c, ?_, ?_⟩
    · rw [Fs.act, hblock 0 (by decide)]
      exact hfs.formatted.magic
    · rw [Fs.act, hblock 1 (by decide)]
      exact hfs.formatted.size
  | remount menv lenv =>
    rw [hfs.remount ha]
    exact Fs.sound_of_formatted hfs.formatted

/-- The bytes that a write fills, for a payload that is not empty. -/
theorem Fs.mem_written {fs : Fs} (hfs : fs.Small) {data : List UInt8}
    (hblock : fs.appendBlock data < 2 ^ 31) (p : ℤ × ℤ) :
    p ∈ fs.written data ↔ p.1 = fs.appendBlock data ∧
      (appendAt fs.iSize.toNat data.length % blockSize : ℕ) ≤ p.2 ∧
      p.2 < (appendAt fs.iSize.toNat data.length % blockSize : ℕ) + data.length := by
  have hle := hfs.le
  have hunsigned := hfs.unsigned_iSize
  have htarget := Target.ofSize_eq fs.iSize.toNat data.length (by omega)
  have hint := MachineInt.signed_32_of_mem (x := fs.appendBlock data) (by omega) (by omega)
  rw [Fs.appendBlock] at hint ⊢
  simp only [Fs.written, hunsigned, htarget, hint, Set.mem_ofPred_eq]

theorem Fs.written_nil (fs : Fs) : fs.written [] = ∅ := by
  ext p
  refine iff_of_false ?_ id
  rintro ⟨-, hlo, hhi⟩
  rw [List.length_nil] at hlo hhi
  omega

/-- Two writes, the second into a file that has at least the size that the first has left: they
fill different bytes. -/
theorem Fs.disjoint_written {fs fs' : Fs} (hfs : fs.Small) (hfs' : fs'.Small) {c c' : WriteCall}
    (hc : c.Succeeds fs) (hc' : c'.Succeeds fs') (hle : (fs.write c).iSize ≤ fs'.iSize) :
    Disjoint (fs.written c.data) (fs'.written c'.data) := by
  -- an empty payload fills nothing, wherever it would be put
  by_cases hnil : c.data = []
  · rw [hnil, Fs.written_nil]
    exact Set.empty_disjoint _
  by_cases hnil' : c'.data = []
  · rw [hnil', Fs.written_nil]
    exact Set.disjoint_empty _
  have hblock := hc.appendBlock_lt hfs hnil
  have hblock' := hc'.appendBlock_lt hfs' hnil'
  rw [Fs.write_of_succeeds hfs hc] at hle
  rw [Set.disjoint_left]
  intro p hp hp'
  rw [Fs.mem_written hfs hblock.2] at hp
  rw [Fs.mem_written hfs' hblock'.2] at hp'
  -- the second begins where the first ends, or later
  have hstart := le_appendAt fs'.iSize.toNat c'.data.length
  have hend : ((appendAt fs.iSize.toNat c.data.length + c.data.length : ℕ) : ℤ) ≤ fs'.iSize := hle
  have hsize' := Int.toNat_of_nonneg hfs'.nonneg
  simp only [Fs.appendBlock, blockSize, dataBlock] at hp hp'
  omega

/-! ### Runs -/

section Run

variable {fs : Fs} {as : List MountAction}

/-- Every state of a run from the image is sound. -/
theorem Fs.Sound.always (hfs : fs.Sound)
    (h : Run.EachStep Fs.act (fun fs a => a.Succeeds fs) fs as) :
    Run.Always Fs.act Fs.Sound fs as :=
  Run.always_of_eachStep (fun _ _ hfs ha => hfs.act ha) hfs h

/-- Without a remount the file does not get shorter. -/
theorem Fs.Sound.iSize_le_exec (hfs : fs.Sound)
    (h : Run.EachStep Fs.act (fun fs a => a.Succeeds fs) fs as)
    (hwrites : ∀ menv lenv, .remount menv lenv ∉ as) :
    fs.iSize ≤ (Run.exec Fs.act fs as).iSize := by
  -- the state moves with each step, and soundness with it
  induction as generalizing fs with
  | nil => exact Int.le_refl _
  | cons a as ih =>
    obtain ⟨ha, hrest⟩ := Run.eachStep_cons.mp h
    have hnext := ih (hfs.act ha) hrest fun menv lenv hmem =>
      hwrites menv lenv (List.mem_cons_of_mem a hmem)
    cases a with
    | write c =>
      have hgrows := Fs.iSize_write hfs.small ha
      rw [Fs.act] at hnext
      rw [Run.exec_cons, Fs.act]
      omega
    | remount menv lenv => exact absurd List.mem_cons_self (hwrites menv lenv)

/-- A run that writes nothing stays in the state after the first mount. -/
theorem exec_eq_self_of_empty (hfs : fs.Sound) (hsize : fs.iSize = fileBody.length)
    (h : Run.EachStep Fs.act (fun fs a => a.Succeeds fs) fs as)
    (hempty : ∀ c, .write c ∈ as → c.data = []) : Run.exec Fs.act fs as = fs := by
  induction as with
  | nil => rfl
  | cons a as ih =>
    obtain ⟨ha, hrest⟩ := Run.eachStep_cons.mp h
    have hsame : fs.act a = fs := by
      cases a with
      | write c =>
        rw [Fs.act, Fs.write_of_succeeds hfs.small ha, hempty c List.mem_cons_self,
          Fs.append_nil hfs.small]
      -- a remount goes back to the size that the file still has
      | remount menv lenv => rw [hfs.remount ha, ← hsize]
    rw [hsame] at hrest
    rw [Run.exec_cons, hsame]
    exact ih hrest fun c hmem => hempty c (List.mem_cons_of_mem a hmem)

/-- If remounts keep the size, the file is as short as `mkfs` made it only while nothing was
written. -/
theorem SurvivesRemounts.empty_of_iSize (hsurvives : SurvivesRemounts fs as) (hfs : fs.Sound)
    (hsize : fs.iSize = fileBody.length)
    (h : Run.EachStep Fs.act (fun fs a => a.Succeeds fs) fs as) {xs : List MountAction}
    (hxs : xs <+: as) :
    (fileBody.length : ℤ) ≤ (Run.exec Fs.act fs xs).iSize ∧
      ((Run.exec Fs.act fs xs).iSize = fileBody.length → ∀ c, .write c ∈ xs → c.data = []) := by
  -- on the last step: a write makes the file longer, and a remount is assumed to keep it
  induction xs using List.reverseRecOn with
  | nil => exact ⟨hsize.ge, by simp⟩
  | append_singleton xs a ih =>
    obtain ⟨hle, hempty⟩ := ih ((List.prefix_append xs [a]).trans hxs)
    have hsound := hfs.always h xs ((List.prefix_append xs [a]).trans hxs)
    have ha := h xs a hxs
    cases a with
    | write c =>
      have hgrows := Fs.iSize_write hsound.small ha
      rw [Run.exec_concat, Fs.act]
      refine ⟨by omega, fun heq c' hmem => ?_⟩
      rcases List.mem_append.mp hmem with hmem | hmem
      · exact hempty (by omega) c' hmem
      · obtain rfl : c' = c := by simpa using hmem
        exact List.eq_nil_of_length_eq_zero (by omega)
    | remount menv lenv =>
      rw [(hsurvives.remount xs menv lenv hxs).1]
      refine ⟨hle, fun heq c' hmem => hempty heq c' ?_⟩
      simpa using hmem

end Run

/-- From the image that `mkfs` writes, in every run of writes and remounts that succeed: the file is
the same after each remount, and no payload is written over, exactly when nothing was written
before any remount. -/
theorem survivesRemounts_iff (d : Device) (sb inode : Block blockSize) (menv : MountEnv)
    (lenv : LookupEnv) (fs : Fs) (hmount : mount menv lenv (mkfs d sb inode) = some fs)
    (as : List MountAction) (h : Run.EachStep Fs.act (fun fs a => a.Succeeds fs) fs as) :
    SurvivesRemounts fs as ↔ EmptyBeforeRemounts as := by
  obtain rfl := mount_eq_some (formatted_mkfs d sb inode) hmount
  have hfs := Fs.sound_of_formatted (formatted_mkfs d sb inode)
  constructor
  · intro hsurvives xs menv lenv hxs c hmem
    have hpre : xs <+: as := (List.prefix_append xs _).trans hxs
    -- the remount goes back to the size that `mkfs` wrote, so that was the size before it
    have hsize := (hsurvives.remount xs menv lenv hxs).1
    rw [Run.exec_concat, (hfs.always h xs hpre).remount (h xs _ hxs)] at hsize
    exact (hsurvives.empty_of_iSize hfs rfl h hpre).2 hsize.symm c hmem
  · intro hempty
    constructor
    · intro xs menv lenv hxs
      have hpre : xs <+: as := (List.prefix_append xs _).trans hxs
      -- nothing was written so far, and there is nothing to lose
      have hstay := exec_eq_self_of_empty hfs rfl (h.of_prefix hpre) (hempty xs menv lenv hxs)
      have hact := (hfs.always h xs hpre).remount (h xs _ hxs)
      rw [hstay] at hact
      rw [Run.exec_concat, hstay, hact]
      exact ⟨rfl, rfl⟩
    · intro xs c ys c' hxs
      by_cases hnil : c.data = []
      · rw [hnil, Fs.written_nil]
        exact Set.empty_disjoint _
      have hpre : xs ++ [.write c] ++ ys <+: as := (List.prefix_append _ _).trans hxs
      have hfirst : xs ++ [.write c] <+: as := (List.prefix_append _ ys).trans hpre
      -- after a payload there is no remount, so the file only grows
      have hwrites : ∀ menv lenv, .remount menv lenv ∉ ys := by
        intro menv lenv hmem
        obtain ⟨us, vs, rfl⟩ := List.append_of_mem hmem
        refine hnil (hempty (xs ++ [.write c] ++ us) menv lenv ?_ c (by simp))
        refine List.IsPrefix.trans ⟨vs, ?_⟩ hpre
        simp
      have hsound := hfs.always h (xs ++ [.write c]) hfirst
      have hgrows := hsound.iSize_le_exec (h.of_prefix hpre).of_append hwrites
      rw [← Run.exec_append, Run.exec_concat] at hgrows
      exact Fs.disjoint_written (hfs.always h xs ((List.prefix_append _ _).trans hfirst)).small
        (hfs.always h _ hpre).small (h xs _ hfirst) (h _ _ hxs) hgrows

/-- A write of one byte that meets no failure. -/
def sampleWrite (b : UInt8) : MountAction :=
  .write (plainWrite [b] (Nat.le_of_ble_eq_true rfl))

/-- An unmount and a mount that meet no failure. -/
def sampleRemount : MountAction :=
  .remount ⟨true, true, true⟩ ⟨true, true⟩

/-- A remount and then two writes. -/
theorem survivesRemounts_iff_writes :
    SurvivesRemounts sampleImage [sampleRemount, sampleWrite 97, sampleWrite 98] ↔
      EmptyBeforeRemounts [sampleRemount, sampleWrite 97, sampleWrite 98] := by
  refine survivesRemounts_iff zeroDevice (fun _ => 0) (fun _ => 0) ⟨true, true, true⟩ ⟨true, true⟩
    sampleImage mount_sampleImage _ ?_
  decide +kernel

/-- A write, a remount and a write: all succeed, the remount takes the byte out of the file again,
and the second write goes over it. -/
theorem remount_loses_write :
    Run.EachStep Fs.act (fun fs a => a.Succeeds fs) sampleImage
        [sampleWrite 97, sampleRemount, sampleWrite 98] ∧
      (Run.exec Fs.act sampleImage [sampleWrite 97]).iSize = 59 ∧
      (Run.exec Fs.act sampleImage [sampleWrite 97, sampleRemount]).iSize = 58 ∧
      ¬SurvivesRemounts sampleImage [sampleWrite 97, sampleRemount, sampleWrite 98] := by
  have hbefore : (Run.exec Fs.act sampleImage [sampleWrite 97]).iSize = 59 := by decide +kernel
  have hafter : (Run.exec Fs.act sampleImage [sampleWrite 97, sampleRemount]).iSize = 58 := by
    decide +kernel
  refine ⟨by decide +kernel, hbefore, hafter, fun hsurvives => ?_⟩
  have hsize := (hsurvives.remount [sampleWrite 97] _ _ ⟨[sampleWrite 98], rfl⟩).1
  have hloss : (58 : ℤ) = 59 := hafter.symm.trans (hsize.trans hbefore)
  exact absurd hloss (by decide)

end LogFs

end StackReferenceMonitor
