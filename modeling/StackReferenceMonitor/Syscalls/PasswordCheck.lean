import StackReferenceMonitor.Syscalls.PasswordOracle

/-!
# Which passwords are accepted

`password_check` copies `PASSW_LEN` bytes from the caller, whatever the length of the string there.
A password that ends near the end of the caller's memory cannot be copied, and the copy of a long
one has no terminator, so that the digest is computed over what follows the buffer too.

## Main definitions

* `PasswordEnv.Works`: the allocations and the hashing succeed.
* `AcceptsExactly`: the check passes for the stored password, fails with `-EACCES` for every other
  one, and reads no further than it has copied.

## Main results

* `acceptsExactly_iff`: when it does.
-/

namespace StackReferenceMonitor

/-- The allocations and the hashing of a check succeed. -/
structure PasswordEnv.Works (env : PasswordEnv) : Prop where
  /-- `kmalloc` of `kernel_password`. -/
  kernelPassword : env.kernelPassword ≠ none
  /-- `crypto_alloc_shash`, and `kmalloc` of the descriptor and of the digest. -/
  allocated : env.encrypt.hashTfm = true ∧ env.encrypt.desc = true ∧ env.encrypt.digest = true
  /-- `crypto_shash_digest`. -/
  hashed : env.encrypt.ret = 0
  /-- `kmalloc` of the result. -/
  result : env.encrypt.result ≠ none

/-- The digest tells strings apart that fit the password buffer with their terminator. -/
def DigestInjective (sha256 : List UInt8 → Vector UInt8 32) : Prop :=
  ∀ s t : CStr, s.bytes.length < passwLen → t.bytes.length < passwLen →
    sha256 s.bytes = sha256 t.bytes → s = t

/-- For the caller's string `s`: the check passes if and only if `s` is the stored password, returns
`-EACCES` otherwise, and finds a terminator in what it has copied. -/
structure AcceptsExactly (sha256 : List UInt8 → Vector UInt8 32) (env : PasswordEnv) (password : ℕ)
    (rf : ReferenceMonitor) (stored s : CStr) : Prop where
  /-- It passes for the stored password only. -/
  passes : passwordCheck sha256 env password rf = some 0 ↔ s = stored
  /-- It denies the others. -/
  denies : s ≠ stored → passwordCheck sha256 env password rf = some (-EACCES)
  /-- The string that is hashed ends within the buffer. -/
  within : (env.copied password).bytes.length < passwLen

section Check

variable {sha256 : List UInt8 → Vector UInt8 32} {env : PasswordEnv} {password : ℕ}
  {rf : ReferenceMonitor} {stored s : CStr}

/-- The copy succeeds when all of its bytes can be read. -/
theorem copyFromUser_snd_eq_zero_iff (mem : UserMem) (src n : ℕ) :
    (mem.copyFromUser src n).2 = 0 ↔ (mem.readable src n).length = n := by
  have hle := UserMem.length_readable_le mem src n
  rw [UserMem.copyFromUser]
  omega

/-- When the copy succeeds, the check compares the digests. -/
theorem passwordCheck_of_readable (henv : env.Works)
    (hrf : rf.password = some (hexString (sha256 stored.bytes)))
    (hread : (env.mem.readable password passwLen).length = passwLen) :
    passwordCheck sha256 env password rf =
      some (if sha256 (env.copied password).bytes = sha256 stored.bytes then 0 else -EACCES) := by
  obtain ⟨result, hresult⟩ := Option.ne_none_iff_exists'.mp henv.result
  have hcompared : env.compared sha256 password =
      some (hexString (sha256 (env.copied password).bytes)) := by
    have hcopy := (copyFromUser_snd_eq_zero_iff env.mem password passwLen).mpr hread
    rw [PasswordEnv.compared, if_neg (by simp [henv.kernelPassword, hcopy]), encryptPassword,
      if_pos ⟨henv.allocated.1, henv.allocated.2.1, henv.allocated.2.2, henv.hashed⟩, hresult,
      Option.map_some, ofMem_printDigest]
  rw [passwordCheck_of_compared hrf hcompared]
  simp only [hexString_injective.eq_iff]

/-- When it does not, the check fails with `-EAGAIN`, whatever the password is. -/
theorem passwordCheck_of_not_readable (henv : env.Works)
    (hread : (env.mem.readable password passwLen).length ≠ passwLen) :
    passwordCheck sha256 env password rf = some (-EAGAIN) := by
  have hcopy := mt (copyFromUser_snd_eq_zero_iff env.mem password passwLen).mp hread
  rw [passwordCheck, if_neg henv.kernelPassword, if_pos hcopy]

/-- The copy of a password that is too long has no terminator. -/
theorem le_length_copied (hs : env.mem.HasString password s) (hlong : passwLen ≤ s.bytes.length) :
    passwLen ≤ (env.copied password).bytes.length := by
  have hread := UserMem.readable_of_le hs hlong
  have hnul : 0 ∉ s.bytes.take passwLen := fun h => s.nul_notMem (List.mem_of_mem_take h)
  rw [PasswordEnv.copied, CString.ofMem_bytes, UserMem.copyFromUser, hread, List.append_assoc,
    CString.chars_append hnul, List.length_append, List.length_take, Nat.min_eq_left hlong]
  exact Nat.le_add_right _ _

/-- For every stored password of at most 31 bytes, with a digest that tells such passwords apart:
the check accepts exactly that password if and only if all the `PASSW_LEN` bytes at the address can
be read and the caller's string has at most 31 of them. -/
theorem acceptsExactly_iff (hinj : DigestInjective sha256) (henv : env.Works)
    (hstored : stored.bytes.length < passwLen)
    (hrf : rf.password = some (hexString (sha256 stored.bytes)))
    (hs : env.mem.HasString password s) :
    AcceptsExactly sha256 env password rf stored s ↔
      (env.mem.readable password passwLen).length = passwLen ∧ s.bytes.length < passwLen := by
  constructor
  · intro h
    constructor
    · -- a copy that fails is neither of the two outcomes
      by_contra hread
      have hagain : passwordCheck sha256 env password rf = some (-EAGAIN) :=
        passwordCheck_of_not_readable henv hread
      by_cases heq : s = stored
      · have hzero := h.passes.mpr heq
        rw [hagain] at hzero
        exact absurd hzero (by decide)
      · have hdenied := h.denies heq
        rw [hagain] at hdenied
        exact absurd hdenied (by decide)
    · by_contra hlong
      exact absurd h.within (not_lt.mpr (le_length_copied hs (not_lt.mp hlong)))
  · rintro ⟨hread, hshort⟩
    have hcopied : env.copied password = s := UserMem.ofMem_copyFromUser hs hshort _
    have hcheck := passwordCheck_of_readable henv hrf hread
    rw [hcopied] at hcheck
    have hdigest : sha256 s.bytes = sha256 stored.bytes ↔ s = stored :=
      ⟨hinj s stored hshort hstored, fun heq => by rw [heq]⟩
    rw [if_congr hdigest rfl rfl] at hcheck
    refine ⟨?_, ?_, by rwa [hcopied]⟩
    · rw [hcheck]
      split_ifs with heq
      · exact iff_of_true rfl heq
      · exact iff_of_false (by decide) heq
    · intro hne
      rw [hcheck, if_neg hne]

end Check

/-! ### A password for examples -/

/-- A digest that tells short strings apart: the string itself, filled up with zeros. -/
def padDigest (s : List UInt8) : Vector UInt8 32 :=
  ⟨((s ++ List.replicate 32 0).take 32).toArray, by simp⟩

theorem padDigest_injective : DigestInjective padDigest := by
  have hchars : ∀ s : CStr, s.bytes.length < passwLen →
      CString.chars (padDigest s.bytes).toList = s.bytes := by
    intro s hs
    rw [passwLen] at hs
    obtain ⟨k, hk⟩ : ∃ k, 32 - s.bytes.length = k + 1 := ⟨31 - s.bytes.length, by omega⟩
    have hlist : (padDigest s.bytes).toList = s.bytes ++ 0 :: List.replicate k 0 := by
      show (s.bytes ++ List.replicate 32 0).take 32 = _
      rw [List.take_append, List.take_of_length_le (by omega), hk,
        List.take_replicate, Nat.min_eq_left (by omega), List.replicate_succ]
    rw [hlist, CString.chars_append_zero, CString.chars_bytes]
  intro s t hs ht heq
  apply CStr.ext
  rw [← hchars s hs, ← hchars t ht, heq]

/-- The password `a`. -/
def letterA : CStr := CString.ofMem [97]

/-- A check of the password at `0` in a memory of these bytes. -/
def checkOf (bytes : List UInt8) : PasswordEnv :=
  ⟨UserMem.ofList bytes, some [], sampleEncrypt⟩

/-- A monitor whose password is `a`. -/
def lockedMonitor : ReferenceMonitor :=
  { state := rfOff, password := some (hexString (padDigest letterA.bytes)),
    blacklist := Blacklist.empty }

theorem checkOf_works (bytes : List UInt8) : (checkOf bytes).Works :=
  ⟨by simp [checkOf], ⟨rfl, rfl, rfl⟩, rfl, by simp [checkOf, sampleEncrypt]⟩

/-- With enough readable memory behind it, `a` is accepted and nothing else. -/
theorem acceptsExactly_letterA :
    AcceptsExactly padDigest (checkOf (97 :: List.replicate 31 0)) 0 lockedMonitor letterA
      letterA :=
  (acceptsExactly_iff padDigest_injective (checkOf_works _) (by decide) rfl (by decide)).mpr
    ⟨by decide, by decide⟩

/-- At the end of readable memory, the right password is not accepted. -/
theorem right_password_rejected :
    (checkOf [97, 0]).Works ∧ (checkOf [97, 0]).mem.HasString 0 letterA ∧
      passwordCheck padDigest (checkOf [97, 0]) 0 lockedMonitor = some (-EAGAIN) ∧
      ¬AcceptsExactly padDigest (checkOf [97, 0]) 0 lockedMonitor letterA letterA := by
  have hcheck : passwordCheck padDigest (checkOf [97, 0]) 0 lockedMonitor = some (-EAGAIN) :=
    passwordCheck_of_not_readable (checkOf_works _) (by decide)
  refine ⟨checkOf_works _, by decide, hcheck, fun h => ?_⟩
  have hzero := h.passes.mpr rfl
  rw [hcheck] at hzero
  exact absurd hzero (by decide)

end StackReferenceMonitor
