import StackReferenceMonitor.LogFs.Read

/-!
# A reader of a growing file

`onefilefs_read` looks at the size before it takes the lock, so that the file may have grown when it
reads. A reader that starts at the beginning and asks again and again, while others write, still
gets the file and nothing else: what was in the file stays where it is.

## Main definitions

* `Reading`: the file system, and a reader with its position and what it has got.
* `ReaderStep`: the first look at the size, the locked part of the read, or a write by someone else.

## Main results

* `Reading.Consistent.step`: what every step keeps;
* `Reading.Consistent.reaches_end`: without writes, the reader gets to the end;
* `reader_sees_file`: all interleavings.
-/

namespace StackReferenceMonitor

namespace LogFs

open MachineInt (unsigned)

/-- The length of a read: positive, and not negative as a `ssize_t`, which `vfs_read` checks. -/
abbrev ReadLen := { len : ℕ // 0 < len ∧ len < 2 ^ 63 }

/-- A reader of the file. -/
structure Reading where
  /-- The file system. -/
  fs : Fs
  /-- `*off`. -/
  off : ℤ
  /-- What the reads so far have returned. -/
  got : List UInt8
  /-- A read that waits for the lock: the `file_size` that it has looked at, and its length. -/
  pending : Option (ℤ × ReadLen)

/-- The steps of the reader and of the writers. -/
inductive ReaderStep
  /-- The reader calls `onefilefs_read`, which looks at the size. -/
  | look (len : ReadLen)
  /-- The locked part of the read, from which it returns. -/
  | read
  /-- A write, from its lock to its return. -/
  | write (c : WriteCall)

namespace Reading

/-- A reader that has just opened the file. -/
def start (fs : Fs) : Reading :=
  { fs, off := 0, got := [], pending := none }

/-- What the locked part of the pending read does, if it returns. -/
def result (s : Reading) : Option ReadResult := do
  let (fileSize, len) ← s.pending
  onefilefsRead plainRead s.fs.device fileSize len.val s.off

/-- One step. A reader makes one read at a time, and a read that does not return leaves it there. -/
def step (s : Reading) : ReaderStep → Reading
  | .look len =>
    if s.pending = none then { s with pending := some (unsigned 64 s.fs.iSize, len) } else s
  | .read =>
    match s.result with
    | none => s
    | some r => { s with off := r.off, got := s.got ++ r.bytes, pending := none }
  | .write c => { s with fs := s.fs.write c }

/-- What the reader has got is the beginning of the file, up to `*off`. -/
structure SeesPrefix (s : Reading) : Prop where
  /-- `*off` is a position in the file, or its end. -/
  off_mem : 0 ≤ s.off ∧ s.off ≤ s.fs.contents.length
  /-- The bytes before it. -/
  got_eq : s.got = s.fs.contents.take s.off.toNat

/-- A read that returns `0` had `*off` at or past the size that it had looked at. -/
def ZeroAtEnd (s : Reading) (a : ReaderStep) : Prop :=
  ∀ fileSize len r, a = .read → s.pending = some (fileSize, len) → s.result = some r →
    r.ret = 0 → fileSize ≤ s.off

/-- What every step keeps. -/
structure Consistent (s : Reading) : Prop where
  /-- The size is in the range in which block numbers are right. -/
  small : s.fs.Small
  /-- The device has the blocks of the file. -/
  onDevice : s.fs.OnDevice
  /-- What the reader has got. -/
  sees : s.SeesPrefix
  /-- A size that was looked at was the size then, and the file does not shrink. -/
  pending : ∀ fileSize len, s.pending = some (fileSize, len) → 0 ≤ fileSize ∧ fileSize ≤ s.fs.iSize

variable {s : Reading}

theorem length_contents (fs : Fs) : fs.contents.length = fs.iSize.toNat :=
  BlockDevice.length_bytes _ _ _

/-- The file up to a position in it. -/
theorem take_contents {fs : Fs} {k : ℕ} (h : k ≤ fs.iSize.toNat) :
    fs.contents.take k = fs.device.bytes dataBlock k :=
  fs.device.take_bytes dataBlock h

theorem start_consistent {fs : Fs} (hsmall : fs.Small) (hdev : fs.OnDevice) :
    (start fs).Consistent where
  small := hsmall
  onDevice := hdev
  sees := ⟨⟨Int.le_refl 0, Int.natCast_nonneg _⟩, rfl⟩
  pending := by simp [start]

/-- A pending read returns: nothing at the end of the file it has looked at, and else the next bytes
of the file. -/
theorem Consistent.result_eq (h : s.Consistent) {fileSize : ℤ} {len : ReadLen}
    (hpending : s.pending = some (fileSize, len)) :
    (fileSize ≤ s.off ∧ s.result = some ⟨0, [], s.off⟩) ∨
      ∃ k : ℕ, 0 < k ∧ s.off + k ≤ fileSize ∧
        s.result = some
          ⟨k, (s.fs.device.bytes dataBlock (s.off.toNat + k)).drop s.off.toNat, s.off + k⟩ := by
  obtain ⟨hsize, hle⟩ := h.pending fileSize len hpending
  have hsmall := h.small.le
  obtain ⟨hlo, hhi⟩ := h.sees.off_mem
  rw [length_contents] at hhi
  -- from here on the position and the size are natural numbers
  obtain ⟨off, hoff⟩ := Int.eq_ofNat_of_zero_le hlo
  obtain ⟨size, rfl⟩ := Int.eq_ofNat_of_zero_le hsize
  have hresult : s.result = onefilefsRead plainRead s.fs.device size len.val off := by
    rw [result, hpending, hoff]
    rfl
  rw [hresult, hoff, Int.toNat_natCast]
  rcases Nat.lt_or_ge off size with hlt | hge
  · right
    have hblock := h.onDevice off (by omega)
    have hmod : off % blockSize < blockSize := Nat.mod_lt _ (by decide)
    have hlen := len.2
    refine ⟨chunk size len.val off, ?_, ?_, ?_⟩
    · unfold chunk
      omega
    · unfold chunk
      omega
    · rw [onefilefsRead_of_lt hlt (by omega) hlen.2 hblock.1 hblock.2]
      rfl
  · left
    exact ⟨by omega, onefilefsRead_of_le plainRead s.fs.device len.val hge (by omega)⟩

/-- A read appends the next bytes of the file to what the reader has got. -/
theorem Consistent.read (h : s.Consistent) : (s.step .read).Consistent := by
  have hkeeps : s.step .read = s ∨ ∃ r, s.result = some r ∧
      s.step .read = { s with off := r.off, got := s.got ++ r.bytes, pending := none } := by
    cases hresult : s.result with
    | none => exact Or.inl (by rw [step, hresult])
    | some r => exact Or.inr ⟨r, rfl, by rw [step, hresult]⟩
  rcases hkeeps with hsame | ⟨r, hresult, hstep⟩
  · rwa [hsame]
  rw [hstep]
  refine ⟨h.small, h.onDevice, ?_, by simp⟩
  -- only a pending read returns
  obtain ⟨⟨fileSize, len⟩, hpending⟩ : ∃ p, s.pending = some p := by
    rw [result, Option.bind_eq_bind, Option.bind_eq_some_iff] at hresult
    exact ⟨_, hresult.choose_spec.1⟩
  obtain ⟨hsize, hle⟩ := h.pending fileSize len hpending
  obtain ⟨hlo, hhi⟩ := h.sees.off_mem
  rw [length_contents] at hhi
  have hgot := h.sees.got_eq
  rcases h.result_eq hpending with ⟨-, hzero⟩ | ⟨k, -, hend, hbytes⟩
  · obtain rfl := Option.some.inj (hzero.symm.trans hresult)
    refine ⟨h.sees.off_mem, ?_⟩
    simpa using hgot
  · obtain rfl := Option.some.inj (hbytes.symm.trans hresult)
    have hnat : (s.off + k).toNat = s.off.toNat + k := by omega
    refine ⟨⟨by dsimp only; omega, ?_⟩, ?_⟩
    · rw [length_contents]
      dsimp only
      omega
    · show s.got ++ _ = s.fs.contents.take (s.off + k).toNat
      rw [hgot, hnat, take_contents (by omega), take_contents (by omega),
        ← s.fs.device.take_bytes dataBlock (Nat.le_add_right s.off.toNat k),
        List.take_append_drop]

/-- A write leaves what the reader has got where it is. -/
theorem Consistent.write (h : s.Consistent) (c : WriteCall) : (s.step (.write c)).Consistent := by
  have hbegins : s.fs.contents <+: (s.fs.write c).contents := by
    rcases Fs.write_cases h.small c with ⟨happend, -⟩ | hsame
    · rw [happend]
      exact s.fs.contents_prefix_append c.length_le
    · rw [hsame]
  have hle := hbegins.length_le
  have hsmall := h.small.write c
  obtain ⟨hlo, hhi⟩ := h.sees.off_mem
  refine ⟨hsmall, h.onDevice.write h.small c, ⟨⟨hlo, ?_⟩, ?_⟩, ?_⟩
  · show s.off ≤ (s.fs.write c).contents.length
    omega
  · show s.got = (s.fs.write c).contents.take s.off.toNat
    obtain ⟨rest, hrest⟩ := hbegins
    rw [h.sees.got_eq, ← hrest, List.take_append_of_le_length (by omega)]
  · intro fileSize len hpending
    obtain ⟨hsize, hold⟩ := h.pending fileSize len hpending
    refine ⟨hsize, ?_⟩
    show fileSize ≤ (s.fs.write c).iSize
    rw [length_contents, length_contents] at hle
    have hnonneg := hsmall.nonneg
    omega

/-- Every step. -/
theorem Consistent.step (h : s.Consistent) (a : ReaderStep) : (s.step a).Consistent := by
  cases a with
  | read => exact h.read
  | write c => exact h.write c
  | look len =>
    rw [Reading.step]
    split_ifs with hnone
    · refine ⟨h.small, h.onDevice, ⟨h.sees.off_mem, h.sees.got_eq⟩, ?_⟩
      intro fileSize len' hpending
      have hle := h.small.le
      obtain ⟨rfl, -⟩ := Prod.mk.inj (Option.some.inj hpending)
      rw [MachineInt.unsigned_of_mem h.small.nonneg (by omega)]
      exact ⟨h.small.nonneg, Int.le_refl _⟩
    · exact h

/-! ### Without writes -/

/-- Reads of these lengths, one after the other. -/
def reads (lens : List ReadLen) : List ReaderStep :=
  lens.flatMap fun len => [.look len, .read]

/-- The locked part leaves the file as it is, and no read pending. -/
theorem Consistent.read_fs (h : s.Consistent) :
    (s.step .read).fs = s.fs ∧ (s.step .read).pending = none := by
  cases hpending : s.pending with
  | none =>
    have hstep : s.step .read = s := by simp [Reading.step, result, hpending]
    rw [hstep]
    exact ⟨rfl, hpending⟩
  | some p =>
    rcases h.result_eq hpending with ⟨-, hresult⟩ | ⟨k, -, -, hresult⟩
    · rw [Reading.step, hresult]
      exact ⟨rfl, rfl⟩
    · rw [Reading.step, hresult]
      exact ⟨rfl, rfl⟩

/-- A whole read gets at least one byte, or is at the end. -/
theorem Consistent.off_look_read (h : s.Consistent) (hnone : s.pending = none) (len : ReadLen) :
    s.fs.iSize ≤ ((s.step (.look len)).step .read).off ∨
      s.off + 1 ≤ ((s.step (.look len)).step .read).off := by
  have hlook := h.step (.look len)
  have hstep : s.step (.look len) = { s with pending := some (unsigned 64 s.fs.iSize, len) } :=
    if_pos hnone
  rw [hstep] at hlook ⊢
  have hle := h.small.le
  have hsize := MachineInt.unsigned_of_mem (w := 64) h.small.nonneg (by omega)
  rcases hlook.result_eq rfl with ⟨hend, hresult⟩ | ⟨k, hk, -, hresult⟩
  · left
    rw [Reading.step, hresult]
    rwa [hsize] at hend
  · right
    rw [Reading.step, hresult]
    show s.off + 1 ≤ s.off + k
    omega

/-- As many reads as there are bytes left lead to the end of the file. -/
theorem Consistent.reaches_end (h : s.Consistent) (hnone : s.pending = none) {lens : List ReadLen}
    (hlens : s.fs.iSize ≤ s.off + lens.length) :
    (Run.exec Reading.step s (reads lens)).Consistent ∧
      (Run.exec Reading.step s (reads lens)).fs = s.fs ∧
      (Run.exec Reading.step s (reads lens)).off = s.fs.iSize := by
  induction lens generalizing s with
  | nil =>
    have hoff := h.sees.off_mem
    have hnonneg := h.small.nonneg
    rw [length_contents] at hoff
    refine ⟨h, rfl, ?_⟩
    show s.off = s.fs.iSize
    simp only [List.length_nil] at hlens
    omega
  | cons len lens ih =>
    have hlook := h.step (.look len)
    have hlookFs : (s.step (.look len)).fs = s.fs := by
      rw [Reading.step, if_pos hnone]
    obtain ⟨hfs, hpending⟩ := hlook.read_fs
    have hnext := hlook.read
    rw [hlookFs] at hfs
    show (Run.exec Reading.step ((s.step (.look len)).step .read) (reads lens)).Consistent ∧ _
    have hoff : s.fs.iSize ≤ ((s.step (.look len)).step .read).off + lens.length := by
      have hprogress := h.off_look_read hnone len
      rw [List.length_cons] at hlens
      omega
    have hrest := ih hnext hpending (by rw [hfs]; exact hoff)
    rw [hfs] at hrest
    exact hrest

end Reading

open Reading in
/-- A reader from the beginning of a file of less than `2 ^ 42` bytes, with reads of any lengths, in
any interleaving with writes of at most one block, whatever these meet: at every moment it has got
exactly the first `*off` bytes of the file; a read that returns `0` had `*off` at or past the size
that it had looked at; and from then on, without writes, as many reads as the file has bytes, after
the one that may be pending, lead to its end. -/
theorem reader_sees_file (fs : Fs) (hlo : 0 ≤ fs.iSize) (hhi : fs.iSize < 2 ^ 42)
    (hdev : fs.OnDevice) (as : List ReaderStep) :
    Run.Always Reading.step SeesPrefix (start fs) as ∧
      Run.EachStep Reading.step ZeroAtEnd (start fs) as ∧
      ∀ lens : List ReadLen,
        (Run.exec Reading.step (start fs) as).fs.contents.length ≤ lens.length →
          (Run.exec Reading.step (start fs) (as ++ .read :: reads lens)).got =
            (Run.exec Reading.step (start fs) as).fs.contents := by
  have hstart : (start fs).Consistent := start_consistent ⟨hlo, by omega⟩ hdev
  have hrun : ∀ xs, (Run.exec Reading.step (start fs) xs).Consistent :=
    Run.invariant (fun _ a h => h.step a) hstart
  refine ⟨fun xs _ => (hrun xs).sees, ?_, ?_⟩
  · rintro xs a - fileSize len r - hpending hresult hret
    rcases (hrun xs).result_eq hpending with ⟨hend, -⟩ | ⟨k, hk, -, hbytes⟩
    · exact hend
    · -- a read within the file returns at least one byte
      obtain rfl := Option.some.inj (hbytes.symm.trans hresult)
      have hzero : (k : ℤ) = 0 := hret
      omega
  · intro lens hlens
    have hread := (hrun as).read
    obtain ⟨hfs, hpending⟩ := (hrun as).read_fs
    have hoff := hread.sees.off_mem
    rw [length_contents, ← hfs] at hlens
    have hnonneg := hread.small.nonneg
    obtain ⟨hend, hsame, hat⟩ := hread.reaches_end hpending
      (show _ ≤ _ + (lens.length : ℤ) by omega)
    rw [Run.exec_append, Run.exec_cons, hend.sees.got_eq, hat, hsame, hfs, ← length_contents,
      List.take_length]

/-- A reader of an empty file with a write before its read has looked at the size, and one after. -/
theorem reader_sees_file_two_writes :
    Run.Always Reading.step Reading.SeesPrefix (Reading.start ⟨zeroDevice, 0⟩)
      [.write (plainWrite [97] (by decide)), .look ⟨8, by decide⟩,
        .write (plainWrite [98] (by decide)), .read] :=
  (reader_sees_file ⟨zeroDevice, 0⟩ (by decide) (by decide)
    (fun x hx => absurd hx (Nat.not_lt_zero x)) _).1

end LogFs

end StackReferenceMonitor
