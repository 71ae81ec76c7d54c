import StackReferenceMonitor.LogFs.Mount
import StackReferenceMonitor.LogFs.Read

/-!
# The rows of the log file

A row that does not fit in the rest of the last block is put at the beginning of the next one, and
the file then has the rest of the block as well: bytes that nobody has written. So the file is the
header and the rows exactly as long as every row has fitted.

## Main definitions

* `rowsOf`: the payloads of a run, one after the other.
* `RowsFit`: each row fits in the rest of the block in which the rows before it have ended.

## Main results

* `readBack_rows_iff`: the file read back is the header and the rows, and has their length, exactly
  when the rows fit.
-/

namespace StackReferenceMonitor

namespace LogFs

/-- The payloads of the calls, one after the other. -/
def rowsOf (calls : List WriteCall) : List UInt8 :=
  (calls.map WriteCall.data).flatten

/-- Each payload fits in the rest of the block in which the header and the payloads before it
end. -/
def RowsFit (calls : List WriteCall) : Prop :=
  ∀ xs c, xs ++ [c] <+: calls →
    (fileBody.length + (rowsOf xs).length) % blockSize + c.data.length ≤ blockSize

@[simp]
theorem rowsOf_nil : rowsOf [] = [] := rfl

@[simp]
theorem rowsOf_append (xs ys : List WriteCall) : rowsOf (xs ++ ys) = rowsOf xs ++ rowsOf ys := by
  simp [rowsOf]

@[simp]
theorem rowsOf_singleton (c : WriteCall) : rowsOf [c] = c.data := by
  simp [rowsOf]

/-- A payload is put at the end of the file exactly when it fits in the rest of the block. -/
theorem appendAt_eq_self_iff (size len : ℕ) :
    appendAt size len = size ↔ size % blockSize + len ≤ blockSize := by
  unfold appendAt
  split_ifs with hfits
  · exact iff_of_true rfl hfits
  · -- the beginning of the next block is past the end of the file
    refine iff_of_false ?_ hfits
    simp only [blockSize] at *
    omega

section Run

variable {fs : Fs} {calls : List WriteCall}

/-- What a run of writes that succeed keeps. -/
theorem Fs.Small.always_write (hfs : fs.Small) (hdev : fs.OnDevice)
    (h : Run.EachStep Fs.write (fun fs c => c.Succeeds fs) fs calls) :
    Run.Always Fs.write (fun fs => fs.Small ∧ fs.OnDevice) fs calls :=
  Run.always_of_eachStep (fun _ c hfs _ => ⟨hfs.1.write c, hfs.2.write hfs.1 c⟩) ⟨hfs, hdev⟩ h

/-- The file grows by the payloads at least. -/
theorem Fs.Small.iSize_exec_write (hfs : fs.Small)
    (h : Run.EachStep Fs.write (fun fs c => c.Succeeds fs) fs calls) :
    fs.iSize + (rowsOf calls).length ≤ (Run.exec Fs.write fs calls).iSize := by
  induction calls generalizing fs with
  | nil => simp
  | cons c calls ih =>
    obtain ⟨hc, hrest⟩ := Run.eachStep_cons.mp h
    have hgrows := Fs.iSize_write hfs hc
    have hrec := ih (hfs.write c) hrest
    have hrows : (rowsOf (c :: calls)).length = c.data.length + (rowsOf calls).length := by
      simp [rowsOf]
    rw [Run.exec_cons, hrows]
    omega

/-- If the rows fit, the file is what it was and the rows. -/
theorem contents_of_rowsFit (hfs : fs.Small) (hdev : fs.OnDevice)
    (hsize : fs.iSize = fileBody.length)
    (h : Run.EachStep Fs.write (fun fs c => c.Succeeds fs) fs calls) (hfit : RowsFit calls) :
    (Run.exec Fs.write fs calls).contents = fs.contents ++ rowsOf calls ∧
      (Run.exec Fs.write fs calls).iSize = (fileBody.length + (rowsOf calls).length : ℕ) := by
  -- on the last write, before which the file is the header and the rows so far
  induction calls using List.reverseRecOn with
  | nil => simp [hsize]
  | append_singleton calls c ih =>
    obtain ⟨hcontents, hlength⟩ :=
      ih h.init fun xs c hxs => hfit xs c (hxs.trans (List.prefix_append _ _))
    have hsmall := (hfs.always_write hdev h.init).exec.1
    -- the payload fits, so it is put right at the end
    have hstart := (appendAt_eq_self_iff _ _).mpr (hfit calls c (List.prefix_refl _))
    have hnat : (Run.exec Fs.write fs calls).iSize.toNat =
        fileBody.length + (rowsOf calls).length := by
      rw [hlength, Int.toNat_natCast]
    rw [Run.exec_concat, Fs.write_of_succeeds hsmall h.last, rowsOf_append, rowsOf_singleton]
    constructor
    · rw [Fs.contents_append _ c.length_le, hnat, hstart, ← hnat, ← List.append_assoc, ← hcontents]
      rfl
    · rw [Fs.append, hnat, hstart, List.length_append, Nat.add_assoc]

/-- If the file has the length of the header and the rows, the rows fit. -/
theorem rowsFit_of_iSize (hfs : fs.Small) (hdev : fs.OnDevice) (hsize : fs.iSize = fileBody.length)
    (h : Run.EachStep Fs.write (fun fs c => c.Succeeds fs) fs calls)
    (hlength : (Run.exec Fs.write fs calls).iSize = (fileBody.length + (rowsOf calls).length : ℕ)) :
    RowsFit calls := by
  intro xs c hxs
  obtain ⟨ys, rfl⟩ := hxs
  have hxs : xs <+: xs ++ [c] ++ ys := by simp
  have hsmall := (hfs.always_write hdev h xs hxs).1
  -- neither the rows before this one nor those after it leave room for a gap
  have hbefore := hfs.iSize_exec_write (h.of_prefix hxs)
  have hrest := h.of_append
  rw [Run.exec_concat] at hrest
  have hafter := (hsmall.write c).iSize_exec_write hrest
  rw [Run.exec_append, Run.exec_concat] at hlength
  rw [Fs.write_of_succeeds hsmall (h xs c (List.prefix_append _ _))] at hafter hlength
  have hstart := le_appendAt (Run.exec Fs.write fs xs).iSize.toNat c.data.length
  have happend : ((Run.exec Fs.write fs xs).append c.data).iSize =
    (appendAt (Run.exec Fs.write fs xs).iSize.toNat c.data.length + c.data.length : ℕ) := rfl
  have hnonneg := Int.toNat_of_nonneg hsmall.nonneg
  simp only [rowsOf_append, rowsOf_singleton, List.length_append] at hlength
  have hnat : (Run.exec Fs.write fs xs).iSize.toNat = fileBody.length + (rowsOf xs).length := by
    omega
  -- so the file ends where the rows before this one do, and the row is put there
  rw [← hnat, ← appendAt_eq_self_iff]
  omega

end Run

/-- From the image that `mkfs` writes, after every run of writes that succeed: the file read back,
`len` bytes at a time, is the header and the rows, and its size is the sum of their lengths, exactly
when each row has fitted in the rest of the block that the rows before it have ended in. -/
theorem readBack_rows_iff (d : Device) (sb inode : Block blockSize) (hcount : dataBlock < d.count)
    (menv : MountEnv) (lenv : LookupEnv) (fs : Fs)
    (hmount : mount menv lenv (mkfs d sb inode) = some fs) (calls : List WriteCall)
    (h : Run.EachStep Fs.write (fun fs c => c.Succeeds fs) fs calls) (len : ℕ) (hpos : 0 < len)
    (hlen : len < 2 ^ 63) :
    ((Run.exec Fs.write fs calls).readBack len = some (fileBody ++ rowsOf calls) ∧
        (Run.exec Fs.write fs calls).iSize = (fileBody.length + (rowsOf calls).length : ℕ)) ↔
      RowsFit calls := by
  obtain rfl := mount_eq_some (formatted_mkfs d sb inode) hmount
  have hfs := Fs.small_image (mkfs d sb inode)
  have hdev : Fs.OnDevice { device := mkfs d sb inode, iSize := fileBody.length } := by
    intro x hx
    have hx' : x < fileBody.length := by simpa using hx
    rw [fileBody_length] at hx'
    have hblock : x / blockSize = 0 := Nat.div_eq_of_lt (by simp only [blockSize]; omega)
    rw [hblock, Nat.zero_add]
    exact ⟨hcount, by decide⟩
  constructor
  · rintro ⟨-, hlength⟩
    exact rowsFit_of_iSize hfs hdev rfl h hlength
  · intro hfit
    obtain ⟨hcontents, hlength⟩ := contents_of_rowsFit hfs hdev rfl h hfit
    obtain ⟨hsmall, hdev'⟩ := (hfs.always_write hdev h).exec
    rw [contents_mkfs] at hcontents
    exact ⟨by rw [hdev'.readBack hsmall hpos hlen, hcontents], hlength⟩

/-- A row of 255 bytes. -/
def longRow : WriteCall :=
  plainWrite (List.replicate 255 65) (by rw [List.length_replicate]; decide)

/-- Fifteen such rows, one that ends where the block ends, and one more. -/
def fullBlock : List WriteCall :=
  List.replicate 15 longRow ++
    [plainWrite (List.replicate 213 66) (by rw [List.length_replicate]; decide), longRow]

theorem rowsFit_fullBlock : RowsFit fullBlock := by
  intro xs c hxs
  have hall : ∀ n < 17, ∀ c ∈ fullBlock[n]?,
      (fileBody.length + (rowsOf (fullBlock.take n)).length) % blockSize + c.data.length ≤
        blockSize := by
    -- only the lengths are to be computed
    simp only [rowsOf, List.length_flatten, List.map_map]
    decide +kernel
  have htake := List.prefix_iff_eq_take.mp ((List.prefix_append xs [c]).trans hxs)
  have hget : fullBlock[xs.length]? = some c := by
    obtain ⟨after, hafter⟩ := hxs
    rw [← hafter]
    simp
  have hlt : xs.length < 17 := (List.getElem?_eq_some_iff.mp hget).1
  rw [htake]
  exact hall _ hlt c hget

/-- The block is filled to its end, the last row begins the next one, and all is read back. -/
theorem readBack_rows_iff_fullBlock :
    (Run.exec Fs.write sampleImage fullBlock).readBack 10 = some (fileBody ++ rowsOf fullBlock) ∧
      (Run.exec Fs.write sampleImage fullBlock).iSize =
        (fileBody.length + (rowsOf fullBlock).length : ℕ) :=
  (readBack_rows_iff zeroDevice (fun _ => 0) (fun _ => 0) (by decide) ⟨true, true, true⟩
    ⟨true, true⟩ sampleImage mount_sampleImage fullBlock (by decide +kernel) 10 (by decide)
    (by decide)).mpr rowsFit_fullBlock

/-- Sixteen rows of 255 bytes are all written, and the last one is put at the beginning of the next
block: the file is longer than the header and the rows. -/
theorem rows_with_gap :
    Run.EachStep Fs.write (fun fs c => c.Succeeds fs) sampleImage (List.replicate 16 longRow) ∧
      (Run.exec Fs.write sampleImage (List.replicate 16 longRow)).iSize = 4351 ∧
      fileBody.length + (rowsOf (List.replicate 16 longRow)).length = 4138 := by
  decide +kernel

end LogFs

end StackReferenceMonitor
