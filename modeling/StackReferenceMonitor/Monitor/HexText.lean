import StackReferenceMonitor.Foundations.Buffer
import StackReferenceMonitor.Monitor.Digest

/-!
# The hexadecimal text of a digest

The loop of `encrypt_password` writes three bytes in each round, the last of which the next round
overwrites. `printDigestChecked` is that loop with every write checked against the 65 bytes of the
result. No write fails the check, and what is left in the buffer is a string of 64 digits from which
the digest can be read back.

## Main definitions

* `printDigestChecked`: the loop, on a buffer with bounds.
* `decodeHex`: reads hexadecimal digits back.
* `PrintsHex`: what the loop leaves is a terminated text of 64 digits that decodes to the digest.

## Main results

* `printDigestChecked_eq`: the bounds are never exceeded;
* `printDigest_faithful`: the text encodes the digest, and `strcmp` compares digests.
-/

namespace StackReferenceMonitor

/-- The loop that prints the digest, in a buffer with bounds. -/
def printDigestChecked (digest : Vector UInt8 32) (result : List UInt8) : Option (List UInt8) :=
  printDigestWith (fun result pos b => Buffer.sprintf result pos (hexByte b)) digest result

/-- A digit, or a lower-case letter up to `f`. -/
def IsHexDigit (c : UInt8) : Prop :=
  48 ≤ c.toNat ∧ c.toNat ≤ 57 ∨ 97 ≤ c.toNat ∧ c.toNat ≤ 102

/-- The value of a hexadecimal digit. -/
def hexValue (c : UInt8) : Option ℕ :=
  if 48 ≤ c.toNat ∧ c.toNat ≤ 57 then some (c.toNat - 48)
  else if 97 ≤ c.toNat ∧ c.toNat ≤ 102 then some (c.toNat - 87)
  else none

/-- The bytes that a hexadecimal text stands for, two digits for each. -/
def decodeHex : List UInt8 → Option (List UInt8)
  | [] => some []
  | [_] => none
  | high :: low :: rest => do
    let byte := UInt8.ofNat (16 * (← hexValue high) + (← hexValue low))
    return byte :: (← decodeHex rest)

/-- The loop leaves the text `hex` and a terminator in the whole buffer: 64 lower-case digits that
decode to the digest. -/
structure PrintsHex (digest : Vector UInt8 32) (result : Vector UInt8 65) (hex : List UInt8) :
    Prop where
  /-- No write is outside the buffer, and these bytes are left in it. -/
  printed : printDigestChecked digest result.toList = some (hex ++ [0])
  /-- There are 64 characters. -/
  length : hex.length = 64
  /-- All of them are digits. -/
  digits : ∀ c ∈ hex, IsHexDigit c
  /-- The digest can be read back. -/
  decoded : decodeHex hex = some digest.toList

/-! ### The bounds -/

/-- A round with three bytes of room is within the buffer, and leaves it as long as it was. -/
theorem sprintf_hexByte {result : List UInt8} {pos : ℕ} (h : pos + 3 ≤ result.length) (b : UInt8) :
    Buffer.sprintf result pos (hexByte b) = some (sprintfHex result pos b) := by
  obtain ⟨front, x, y, z, rest, rfl, rfl⟩ : ∃ front x y z rest,
      result = front ++ x :: y :: z :: rest ∧ front.length = pos := by
    refine ⟨result.take pos, result[pos], result[pos + 1], result[pos + 2],
      result.drop (pos + 3), ?_, List.length_take_of_le (by omega)⟩
    rw [← List.drop_eq_getElem_cons, ← List.drop_eq_getElem_cons, ← List.drop_eq_getElem_cons,
      List.take_append_drop]
  have hlen : [x, y, z].length = (hexByte b).length + 1 := rfl
  have hstore := Buffer.sprintf_append front rest hlen
  rw [sprintfHex_append]
  simpa using hstore

theorem length_sprintfHex (result : List UInt8) (pos : ℕ) (b : UInt8) :
    (sprintfHex result pos b).length = result.length := by
  simp [sprintfHex]

/-- The loop stays within its buffer. -/
theorem printDigestChecked_eq (digest : Vector UInt8 32) {result : List UInt8}
    (h : result.length = 65) :
    printDigestChecked digest result = some (printDigest digest result) := by
  rw [printDigest_eq_foldl, printDigestChecked, printDigestWith]
  -- each round has room for its three bytes
  induction List.finRange 32 generalizing result with
  | nil => rfl
  | cons i is ih =>
    have hi := i.isLt
    rw [List.foldlM_cons, sprintf_hexByte (by omega), Option.bind_eq_bind, Option.bind_some,
      ih (by rw [length_sprintfHex, h]), List.foldl_cons]

/-! ### The text -/

/-- Both characters of a byte are digits. -/
theorem isHexDigit_of_mem_hexByte {b c : UInt8} (h : c ∈ hexByte b) : IsHexDigit c := by
  obtain ⟨hhigh, hlow⟩ := toNat_div_mod_lt b
  have hdigit : ∀ n : UInt8, n.toNat < 16 → IsHexDigit (hexDigit n) := by
    intro n hn
    rw [IsHexDigit, toNat_hexDigit hn]
    split_ifs <;> omega
  simp only [hexByte, List.mem_cons, List.not_mem_nil, or_false] at h
  rcases h with rfl | rfl
  · exact hdigit _ hhigh
  · exact hdigit _ hlow

/-- The value of a printed digit. -/
theorem hexValue_hexDigit {n : UInt8} (hn : n.toNat < 16) :
    hexValue (hexDigit n) = some n.toNat := by
  unfold hexValue
  rw [toNat_hexDigit hn]
  by_cases h : n.toNat < 10
  · rw [if_pos h, if_pos (by omega), Nat.add_sub_cancel_left]
  · rw [if_neg h, if_neg (by omega), if_pos (by omega), Nat.add_sub_cancel_left]

/-- A printed byte is read back, and then the rest. -/
theorem decodeHex_hexByte_append (b : UInt8) (rest : List UInt8) :
    decodeHex (hexByte b ++ rest) = (decodeHex rest).map (b :: ·) := by
  obtain ⟨hhigh, hlow⟩ := toNat_div_mod_lt b
  have hbyte : UInt8.ofNat (16 * (b / 16).toNat + (b % 16).toNat) = b := by
    rw [UInt8.toNat_div, UInt8.toNat_mod]
    simp [Nat.div_add_mod]
  simp only [hexByte, List.cons_append, List.nil_append, decodeHex, hexValue_hexDigit hhigh,
    hexValue_hexDigit hlow, Option.bind_eq_bind, Option.bind_some, hbyte]
  cases decodeHex rest <;> rfl

/-- Printed bytes are read back, one after the other. -/
theorem decodeHex_flatMap {α : Type*} (f : α → UInt8) (is : List α) :
    decodeHex (is.flatMap fun i => hexByte (f i)) = some (is.map f) := by
  induction is with
  | nil => rfl
  | cons i is ih =>
    rw [List.flatMap_cons, decodeHex_hexByte_append, ih, Option.map_some, List.map_cons]

/-- The bytes that the loop leaves. -/
theorem printDigest_eq (digest : Vector UInt8 32) {result : List UInt8}
    (h : result.length = 65) :
    printDigest digest result = (hexString digest).bytes ++ [0] := by
  obtain ⟨rest, hfold, hlen, hhead⟩ := printDigest_rounds digest h (List.prefix_refl _)
  -- one byte is left, the terminator
  obtain ⟨b, rfl⟩ : ∃ b, rest = [b] := by
    apply List.length_eq_one_iff.mp
    simpa using hlen
  have hzero : b = 0 := by simpa using hhead (by simp)
  rw [printDigest_eq_foldl, hfold, hzero]
  rfl

theorem printsHex_hexString (digest : Vector UInt8 32) (result : Vector UInt8 65) :
    PrintsHex digest result (hexString digest).bytes := by
  refine ⟨?_, length_hexString digest, fun c hc => ?_, ?_⟩
  · rw [printDigestChecked_eq digest result.length_toList,
      printDigest_eq digest result.length_toList]
  · obtain ⟨i, -, hi⟩ := List.mem_flatMap.mp hc
    exact isHexDigit_of_mem_hexByte hi
  · have hlist : (List.finRange 32).map (fun i => digest[i]) = digest.toList := by
      apply List.ext_getElem
      · simp
      · intro i _ _
        simp
    rw [hexString, decodeHex_flatMap (fun i : Fin 32 => digest[i]), hlist]

/-- For any two digests, and whatever the two buffers held: the loop stays within each buffer and
leaves in it a terminated string of 64 lower-case hexadecimal digits that decodes to the digest, and
`strcmp` of the two strings is `0` exactly when the digests are equal. -/
theorem printDigest_faithful (digest digest' : Vector UInt8 32) (result result' : Vector UInt8 65) :
    ∃ hex hex', PrintsHex digest result hex ∧ PrintsHex digest' result' hex' ∧
      (CString.strcmp (hex ++ [0]) (hex' ++ [0]) = 0 ↔ digest = digest') := by
  refine ⟨_, _, printsHex_hexString digest result, printsHex_hexString digest' result', ?_⟩
  have hchars : ∀ s : CStr, CString.chars (s.bytes ++ [0]) = s.bytes := by
    intro s
    rw [CString.chars_append_zero, CString.chars_bytes]
  rw [CString.strcmp_eq_zero_iff, hchars, hchars, ← CStr.ext_iff, hexString_injective.eq_iff]

end StackReferenceMonitor
