import Mathlib.Data.Int.Notation
import Mathlib.Data.List.FinRange
import StackReferenceMonitor.Foundations.CString

/-!
# The digest of a password

`encryptPassword` is `encrypt_password`: the SHA-256 digest of a string, printed in hexadecimal.
The kernel's SHA-256 is a parameter, `sha256`, and so are the outcomes of the allocations.

The loop prints each byte with `sprintf`, which puts a terminator after its two digits. The next
byte's digits overwrite it, so that in the end there is one terminator, at the end.

## Main definitions

* `encryptPassword`, with the loop `printDigest`.
* `hexString`: the digest in hexadecimal.

## Main results

* `ofMem_printDigest`: whatever the buffer held, the loop leaves the digest in hexadecimal;
* `encryptPassword_eq_some`: what is returned is a function of the string alone.
-/

namespace StackReferenceMonitor

/-- The digit that `%x` prints. -/
def hexDigit (n : UInt8) : UInt8 :=
  if n < 10 then 48 + n else 87 + n

/-- `sprintf(&result[pos], "%02x", b)`: two digits and a terminator. -/
def sprintfHex (result : List UInt8) (pos : ℕ) (b : UInt8) : List UInt8 :=
  ((result.set pos (hexDigit (b / 16))).set (pos + 1) (hexDigit (b % 16))).set (pos + 2) 0

/-- The loop that prints the digest, with what `sprintf(&result[pos], "%02x", b)` does. -/
def printDigestWith {m : Type → Type} [Monad m]
    (sprintf : List UInt8 → ℕ → UInt8 → m (List UInt8)) (digest : Vector UInt8 32)
    (result : List UInt8) : m (List UInt8) :=
  (List.finRange 32).foldlM
    (fun result (i : Fin 32) => sprintf result (i.val * 2) digest[i]) result

/-- The loop in a buffer that it does not leave. -/
def printDigest (digest : Vector UInt8 32) (result : List UInt8) : List UInt8 :=
  printDigestWith (m := Id) sprintfHex digest result

/-- What one call of `encrypt_password` meets. -/
structure EncryptEnv where
  /-- Whether `crypto_alloc_shash` succeeds. -/
  hashTfm : Bool
  /-- Whether `kmalloc` of the descriptor succeeds. -/
  desc : Bool
  /-- Whether `kmalloc` of the digest succeeds. -/
  digest : Bool
  /-- What `crypto_shash_digest` returns. -/
  ret : ℤ
  /-- `kmalloc` of the result: `NULL`, or what its 65 bytes held. -/
  result : Option (Vector UInt8 65)
  /-- Whether `digest`, while it is not set, happens to be other than `NULL`. -/
  unset : Bool

/-- `encrypt_password`: the digest of a string in hexadecimal, or `NULL`. -/
def encryptPassword (sha256 : List UInt8 → Vector UInt8 32) (env : EncryptEnv)
    (password : CStr) : Option CStr :=
  if env.hashTfm ∧ env.desc ∧ env.digest ∧ env.ret = 0 then
    env.result.map fun result =>
      CString.ofMem (printDigest (sha256 password.bytes) result.toList)
  else
    none

/-! ### What the loop leaves -/

theorem printDigest_eq_foldl (digest : Vector UInt8 32) (result : List UInt8) :
    printDigest digest result = (List.finRange 32).foldl
      (fun result (i : Fin 32) => sprintfHex result (i.val * 2) digest[i]) result :=
  List.foldl_eq_foldlM.symm

/-- The two digits of a byte. -/
def hexByte (b : UInt8) : List UInt8 :=
  [hexDigit (b / 16), hexDigit (b % 16)]

/-- The code of a digit. -/
theorem toNat_hexDigit {n : UInt8} (hn : n.toNat < 16) :
    (hexDigit n).toNat = if n.toNat < 10 then 48 + n.toNat else 87 + n.toNat := by
  unfold hexDigit
  by_cases h : n < 10
  · have hlt : n.toNat < 10 := by simpa [UInt8.lt_iff_toNat_lt] using h
    rw [if_pos h, if_pos hlt, UInt8.toNat_add]
    simp
    omega
  · have hlt : ¬n.toNat < 10 := by simpa [UInt8.lt_iff_toNat_lt] using h
    rw [if_neg h, if_neg hlt, UInt8.toNat_add]
    simp
    omega

/-- The digits of a byte are digits. -/
theorem toNat_div_mod_lt (b : UInt8) : (b / 16).toNat < 16 ∧ (b % 16).toNat < 16 := by
  have hlt := b.toNat_lt
  rw [UInt8.toNat_div, UInt8.toNat_mod]
  simp
  omega

/-- A character of a byte in hexadecimal is a digit or a letter. -/
theorem mem_hexByte {b c : UInt8} (h : c ∈ hexByte b) : 48 ≤ c.toNat := by
  obtain ⟨hhigh, hlow⟩ := toNat_div_mod_lt b
  simp only [hexByte, List.mem_cons, List.not_mem_nil, or_false] at h
  rcases h with rfl | rfl
  · rw [toNat_hexDigit hhigh]
    split_ifs <;> omega
  · rw [toNat_hexDigit hlow]
    split_ifs <;> omega

theorem nul_notMem_hexByte (b : UInt8) : 0 ∉ hexByte b :=
  fun h => absurd (mem_hexByte h) (by decide)

theorem hexDigit_inj {m n : UInt8} (hm : m.toNat < 16) (hn : n.toNat < 16)
    (h : hexDigit m = hexDigit n) : m = n := by
  have hnat := congrArg UInt8.toNat h
  rw [toNat_hexDigit hm, toNat_hexDigit hn] at hnat
  refine UInt8.toNat_inj.mp ?_
  split_ifs at hnat <;> omega

/-- A byte is determined by its two digits. -/
theorem hexByte_injective : Function.Injective hexByte := by
  intro b c h
  obtain ⟨hhigh, hlow⟩ := List.cons.inj h
  have hdiv := hexDigit_inj (toNat_div_mod_lt b).1 (toNat_div_mod_lt c).1 hhigh
  have hmod := hexDigit_inj (toNat_div_mod_lt b).2 (toNat_div_mod_lt c).2 (List.cons.inj hlow).1
  have hdiv' := congrArg UInt8.toNat hdiv
  have hmod' := congrArg UInt8.toNat hmod
  rw [UInt8.toNat_div, UInt8.toNat_div] at hdiv'
  rw [UInt8.toNat_mod, UInt8.toNat_mod] at hmod'
  refine UInt8.toNat_inj.mp ?_
  simp at hdiv' hmod'
  omega

/-- A digest in hexadecimal. -/
def hexString (digest : Vector UInt8 32) : CStr where
  bytes := (List.finRange 32).flatMap fun i => hexByte digest[i]
  nul_notMem := by
    intro h
    obtain ⟨i, -, hi⟩ := List.mem_flatMap.mp h
    exact nul_notMem_hexByte _ hi

theorem length_hexString (digest : Vector UInt8 32) : (hexString digest).bytes.length = 64 := by
  simp [hexString, hexByte, List.length_flatMap]

/-- The characters of a digest in hexadecimal are digits and letters. -/
theorem mem_hexString {digest : Vector UInt8 32} {c : UInt8} (h : c ∈ (hexString digest).bytes) :
    48 ≤ c.toNat := by
  obtain ⟨i, -, hi⟩ := List.mem_flatMap.mp h
  exact mem_hexByte hi

/-- A digest is determined by its hexadecimal digits. -/
theorem hexString_injective : Function.Injective hexString := by
  intro digest digest' h
  -- each byte has two characters, so they stand at the same places
  have hbytes : ∀ is : List (Fin 32),
      (is.flatMap fun i => hexByte digest[i]) = (is.flatMap fun i => hexByte digest'[i]) →
        ∀ i ∈ is, digest[i] = digest'[i] := by
    intro is
    induction is with
    | nil => simp
    | cons j is ih =>
      intro heq i hi
      rw [List.flatMap_cons, List.flatMap_cons] at heq
      obtain ⟨hfirst, hrest⟩ := List.append_inj heq rfl
      rcases List.mem_cons.mp hi with rfl | hi
      · exact hexByte_injective hfirst
      · exact ih hrest i hi
  refine Vector.ext fun i hi => ?_
  exact hbytes _ (congrArg CStr.bytes h) ⟨i, hi⟩ (List.mem_finRange _)

/-- Printing a byte right after what is already there. -/
theorem sprintfHex_append (printed rest : List UInt8) (x y z b : UInt8) :
    sprintfHex (printed ++ x :: y :: z :: rest) printed.length b =
      printed ++ hexByte b ++ 0 :: rest := by
  simp [sprintfHex, hexByte]

/-- After some rounds of the loop: the digits of the bytes so far, a terminator behind them, and
what is left of the buffer. -/
theorem printDigest_rounds (digest : Vector UInt8 32) {result : List UInt8}
    (hlen : result.length = 65) {is : List (Fin 32)} (his : is <+: List.finRange 32) :
    ∃ rest, is.foldl (fun result (i : Fin 32) => sprintfHex result (i.val * 2) digest[i]) result =
        (is.flatMap fun i => hexByte digest[i]) ++ rest ∧
      rest.length = 65 - 2 * is.length ∧ (is ≠ [] → rest.head? = some 0) := by
  induction is using List.reverseRecOn with
  | nil => exact ⟨result, by simp, by simpa using hlen, by simp⟩
  | append_singleton is i ih =>
    obtain ⟨rest, hfold, hrest, -⟩ := ih ((List.prefix_append is [i]).trans his)
    have hle : (is ++ [i]).length ≤ 32 := by simpa using his.length_le
    rw [List.length_append, List.length_singleton] at hle
    -- the rounds come in order, so this one prints right behind the digits so far
    have hi : i.val = is.length := by
      have hget := his.getElem (i := is.length) (by simp)
      rw [List.getElem_concat_length, List.getElem_finRange] at hget
      · exact congrArg Fin.val hget
      · rfl
    have hpos : i.val * 2 = (is.flatMap fun i => hexByte digest[i]).length := by
      simp [hi, hexByte, List.length_flatMap]
    obtain ⟨x, y, z, rest, rfl⟩ : ∃ x y z tail, rest = x :: y :: z :: tail := by
      match rest, hrest with
      | x :: y :: z :: tail, _ => exact ⟨x, y, z, tail, rfl⟩
      | [], h | [_], h | [_, _], h => simp at h; omega
    refine ⟨0 :: rest, ?_, ?_, fun _ => rfl⟩
    · rw [List.foldl_append, hfold, List.foldl_cons, List.foldl_nil, hpos, sprintfHex_append,
        List.flatMap_append, List.flatMap_singleton]
    · simp only [List.length_cons, List.length_append, List.length_nil] at hrest ⊢
      omega

/-- Whatever the buffer held, the loop leaves the digest in hexadecimal. -/
theorem ofMem_printDigest (digest : Vector UInt8 32) (result : Vector UInt8 65) :
    CString.ofMem (printDigest digest result.toList) = hexString digest := by
  obtain ⟨rest, hfold, -, hhead⟩ :=
    printDigest_rounds digest result.length_toList (List.prefix_refl _)
  have hrest : rest = 0 :: rest.tail := List.eq_cons_of_mem_head? (hhead (by simp))
  rw [printDigest_eq_foldl, hfold, hrest]
  exact CString.ofMem_terminated (hexString digest) rest.tail

/-- What is returned is a function of the string alone. -/
theorem encryptPassword_eq_some {sha256 : List UInt8 → Vector UInt8 32} {env : EncryptEnv}
    {password digest : CStr} (h : encryptPassword sha256 env password = some digest) :
    digest = hexString (sha256 password.bytes) := by
  unfold encryptPassword at h
  split_ifs at h
  obtain ⟨result, -, rfl⟩ := Option.map_eq_some_iff.mp h
  exact ofMem_printDigest _ result

end StackReferenceMonitor
