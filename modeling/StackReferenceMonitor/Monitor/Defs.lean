import StackReferenceMonitor.Blacklist.Defs
import StackReferenceMonitor.Monitor.Digest

/-!
# The reference monitor and its checks

`struct reference_monitor`, the states of the monitor, and the checks of `utils/utils.c` that the
system calls make before they change anything.

A check that dereferences `NULL` does not return: its result is `none`.

## Main results

* `isRfRec_eq_zero_iff`, `euidCheck_eq_zero_iff`, `rfStateCheck_eq_zero_iff`,
  `passwordCheck_eq_zero`: what each check establishes when it passes.
-/

namespace StackReferenceMonitor

/-! ### States and sizes -/

/-- `RF_ON`. -/
def rfOn : ℤ := 0

/-- `RF_OFF`. -/
def rfOff : ℤ := 1

/-- `RF_REC_ON`. -/
def rfRecOn : ℤ := 2

/-- `RF_REC_OFF`. -/
def rfRecOff : ℤ := 3

/-- `PASSW_LEN`: the bytes that are copied from the caller's password. -/
def passwLen : ℕ := 32

/-- `struct reference_monitor`. -/
structure ReferenceMonitor where
  /-- The state, an `int`. -/
  state : ℤ
  /-- The hexadecimal digest of the password, or `NULL`. -/
  password : Option CStr
  /-- `blacklist_head` and `blacklist_size`, with the memory of the nodes. -/
  blacklist : Blacklist
  deriving DecidableEq

/-- The monitor is in one of the two states in which it protects. -/
def ReferenceMonitor.Enforcing (rf : ReferenceMonitor) : Prop :=
  rf.state = rfOn ∨ rf.state = rfRecOn

/-- The other two states are those in which `is_blacklisted` takes a shortcut. -/
theorem ReferenceMonitor.Enforcing.not_shortcut {rf : ReferenceMonitor} (h : rf.Enforcing) :
    ¬(rf.state = 1 ∨ rf.state = 3) := by
  rcases h with h | h <;> rw [h] <;> decide

/-! ### The checks -/

/-- `is_rf_rec`: the blacklist may be changed. -/
def isRfRec (rf : ReferenceMonitor) : ℤ :=
  if rf.state < 2 then -EPERM else 0

/-- What one call of `password_check` meets. -/
structure PasswordEnv where
  /-- The memory of the calling process. -/
  mem : UserMem
  /-- `kmalloc` of `kernel_password`: `NULL`, or the bytes that follow the buffer. -/
  kernelPassword : Option (List UInt8)
  /-- What `encrypt_password` meets. -/
  encrypt : EncryptEnv

/-- The string in `kernel_password` after the copy. Without a terminator among the bytes copied, it
runs on into the memory that follows the buffer. -/
def PasswordEnv.copied (env : PasswordEnv) (password : ℕ) : CStr :=
  CString.ofMem ((env.mem.copyFromUser password passwLen).1 ++ env.kernelPassword.getD [])

/-- `password_check`: the caller's password has the stored digest. -/
def passwordCheck (sha256 : List UInt8 → Vector UInt8 32) (env : PasswordEnv) (password : ℕ)
    (rf : ReferenceMonitor) : Option ℤ :=
  if env.kernelPassword = none then some (-ENOMEM)
  else if (env.mem.copyFromUser password passwLen).2 ≠ 0 then some (-EAGAIN)
  else do
    -- `strcmp` with a `NULL` on either side does not return
    let digest ← encryptPassword sha256 env.encrypt (env.copied password)
    let stored ← rf.password
    if CString.strcmp stored.bytes digest.bytes ≠ 0 then return -EACCES
    else return 0

/-- `euid_check`: the caller is root. -/
def euidCheck (euid : ℕ) : ℤ :=
  if euid ≠ 0 then -EPERM else 0

/-- `rf_state_check`: the requested state is one of the four. -/
def rfStateCheck (state : ℤ) : ℤ :=
  if state < 0 ∨ state > 3 then -EINVAL else 0

theorem isRfRec_eq_zero_iff (rf : ReferenceMonitor) : isRfRec rf = 0 ↔ 2 ≤ rf.state := by
  unfold isRfRec
  have hne : -EPERM ≠ 0 := by decide
  split_ifs with h
  · exact iff_of_false hne (by omega)
  · exact iff_of_true rfl (by omega)

theorem euidCheck_eq_zero_iff (euid : ℕ) : euidCheck euid = 0 ↔ euid = 0 := by
  unfold euidCheck
  have hne : -EPERM ≠ 0 := by decide
  split_ifs with h
  · exact iff_of_false hne h
  · exact iff_of_true rfl (by omega)

theorem rfStateCheck_eq_zero_iff (state : ℤ) :
    rfStateCheck state = 0 ↔ 0 ≤ state ∧ state ≤ 3 := by
  unfold rfStateCheck
  have hne : -EINVAL ≠ 0 := by decide
  split_ifs with h
  · exact iff_of_false hne (by omega)
  · exact iff_of_true rfl (by omega)

/-- `rf_state_check` returns an error or zero. -/
theorem rfStateCheck_nonpos (state : ℤ) : rfStateCheck state ≤ 0 := by
  unfold rfStateCheck
  split_ifs <;> decide

/-- So does `is_rf_rec`. -/
theorem isRfRec_nonpos (rf : ReferenceMonitor) : isRfRec rf ≤ 0 := by
  unfold isRfRec
  split_ifs <;> decide

/-- So does `password_check`. -/
theorem passwordCheck_nonpos {sha256 : List UInt8 → Vector UInt8 32} {env : PasswordEnv}
    {password : ℕ} {rf : ReferenceMonitor} {ret : ℤ}
    (h : passwordCheck sha256 env password rf = some ret) : ret ≤ 0 := by
  unfold passwordCheck at h
  split_ifs at h
  · rw [← Option.some.inj h]
    decide
  · rw [← Option.some.inj h]
    decide
  · simp only [Option.bind_eq_bind, Option.bind_eq_some_iff] at h
    obtain ⟨digest, -, stored, -, h⟩ := h
    split_ifs at h
    · rw [← Option.some.inj h]
      decide
    · exact (Option.some.inj h).ge

/-- A password that passes has the stored digest. -/
theorem passwordCheck_eq_zero {sha256 : List UInt8 → Vector UInt8 32} {env : PasswordEnv}
    {password : ℕ} {rf : ReferenceMonitor}
    (h : passwordCheck sha256 env password rf = some 0) :
    rf.password = some (hexString (sha256 (env.copied password).bytes)) := by
  unfold passwordCheck at h
  split_ifs at h with hnull hcopy
  · simp [ENOMEM] at h
  · simp [EAGAIN] at h
  · simp only [Option.bind_eq_bind, Option.bind_eq_some_iff] at h
    obtain ⟨digest, hdigest, stored, hstored, h⟩ := h
    by_cases hcmp : CString.strcmp stored.bytes digest.bytes = 0
    · rw [hstored, (CString.strcmp_bytes_eq_zero_iff stored digest).mp hcmp,
        encryptPassword_eq_some hdigest]
    · simp [hcmp, EACCES] at h

end StackReferenceMonitor
