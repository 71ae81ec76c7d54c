import Mathlib.Data.Int.Notation
import Mathlib.Data.List.TakeWhile
import Mathlib.Data.List.Infix

/-!
# C strings

Memory that starts at a `char *` is a list of bytes, and the C string in it is what comes before
the first NUL. A list that holds no NUL is a string up to its end, as if a NUL followed it.

## Main definitions

* `CStr`: a string with no NUL in it, the value of a `char *`.
* `CString.chars`: the string that starts a piece of memory.
* `CString.strlen`, `strcmp`, `strncmp` and `strncpy`, as the C library computes them.

## Main results

* `CString.strcmp_eq_zero_iff`: `strcmp` answers `0` exactly on equal strings;
* `CString.strncmp_eq_zero_iff` and `CString.strncmp_eq_zero_iff_prefix`: `strncmp` compares the
  first characters, so that with a bound within the second string it is a test for a prefix;
* `CString.strncpy_strlen`: a copy of exactly the string's characters writes no terminator.
-/

/-- A string with no NUL among its characters. -/
@[ext]
structure CStr where
  /-- The characters before the terminator. -/
  bytes : List UInt8
  /-- The terminator is not one of them. -/
  nul_notMem : 0 ∉ bytes
  deriving DecidableEq

namespace CString

/-- The characters of the string that starts the memory `mem`. -/
def chars (mem : List UInt8) : List UInt8 :=
  mem.takeWhile (· != 0)

@[simp]
theorem chars_nil : chars [] = [] := rfl

@[simp]
theorem chars_cons_zero (mem : List UInt8) : chars (0 :: mem) = [] := by
  simp [chars]

theorem chars_cons_of_ne {c : UInt8} (hc : c ≠ 0) (mem : List UInt8) :
    chars (c :: mem) = c :: chars mem := by
  simp [chars, hc]

theorem nul_notMem_chars (mem : List UInt8) : 0 ∉ chars mem := by
  intro h
  simpa using List.mem_takeWhile_imp h

/-- A string without NUL that something follows in memory: its own characters come first. -/
theorem chars_append {s : List UInt8} (hs : 0 ∉ s) (mem : List UInt8) :
    chars (s ++ mem) = s ++ chars mem := by
  refine List.takeWhile_append_of_pos fun c hc => ?_
  have hne : c ≠ 0 := fun h => hs (h ▸ hc)
  simpa using hne

theorem chars_eq_self {s : List UInt8} (hs : 0 ∉ s) : chars s = s := by
  simpa using chars_append hs []

/-- Nothing after a NUL belongs to the string. -/
theorem chars_append_zero (s mem : List UInt8) : chars (s ++ 0 :: mem) = chars s := by
  induction s with
  | nil => simp
  | cons c s ih =>
    by_cases hc : c = 0
    · simp [hc]
    · rw [List.cons_append, chars_cons_of_ne hc, chars_cons_of_ne hc, ih]

/-- Memory with a NUL is a string, its terminator, and what is behind it. -/
theorem exists_eq_chars_append {mem : List UInt8} (h : 0 ∈ mem) :
    ∃ after, mem = chars mem ++ 0 :: after := by
  induction mem with
  | nil => exact absurd h List.not_mem_nil
  | cons c mem ih =>
    by_cases hc : c = 0
    · exact ⟨mem, by simp [hc]⟩
    · obtain ⟨after, hmem⟩ := ih (List.mem_of_ne_of_mem (Ne.symm hc) h)
      refine ⟨after, ?_⟩
      rw [chars_cons_of_ne hc, List.cons_append, ← hmem]

/-- The string that starts the memory `mem`. -/
def ofMem (mem : List UInt8) : CStr :=
  ⟨chars mem, nul_notMem_chars mem⟩

@[simp]
theorem ofMem_bytes (mem : List UInt8) : (ofMem mem).bytes = chars mem := rfl

@[simp]
theorem chars_bytes (s : CStr) : chars s.bytes = s.bytes :=
  chars_eq_self s.nul_notMem

/-- A terminated string in memory is read back. -/
@[simp]
theorem ofMem_terminated (s : CStr) (mem : List UInt8) : ofMem (s.bytes ++ 0 :: mem) = s := by
  ext1
  rw [ofMem_bytes, chars_append s.nul_notMem, chars_cons_zero, List.append_nil]

/-- The characters of a string literal. -/
def text (s : String) : List UInt8 :=
  s.toUTF8.toList

/-- `strlen`: the number of bytes before the first NUL. -/
def strlen (s : List UInt8) : ℕ :=
  (chars s).length

/-- `*s`: the byte a `char *` points to. -/
def deref (s : List UInt8) : UInt8 :=
  s.headD 0

/-- `s[i]`: a byte of the string or its terminator. Before the string and after its terminator there
is nothing to read. -/
def byteAt (s : List UInt8) (i : ℤ) : Option UInt8 :=
  if 0 ≤ i then (s ++ [0])[i.toNat]? else none

/-- The last byte of a string that is not empty. -/
theorem byteAt_last {s : List UInt8} (hs : s ≠ []) :
    byteAt s (s.length - 1) = some (s.getLast hs) := by
  have hpos : 0 < s.length := List.length_pos_iff.mpr hs
  have hindex : ((s.length : ℤ) - 1).toNat = s.length - 1 := by omega
  rw [byteAt, if_pos (by omega), hindex, List.getElem?_append_left (by omega),
    List.getElem?_eq_getElem (by omega), List.getLast_eq_getElem]

/-- `strncmp`: compares at most `n` bytes, as `unsigned char`, up to the first difference or the
end of both strings. -/
def strncmp (s t : List UInt8) : ℕ → ℤ
  | 0 => 0
  | n + 1 =>
    if deref s ≠ deref t then (if deref s < deref t then -1 else 1)
    else if deref s = 0 then 0
    else strncmp s.tail t.tail n

/-- `strcmp`: compares up to the first difference or the end of both strings. -/
def strcmp : List UInt8 → List UInt8 → ℤ
  | [], t => if deref t = 0 then 0 else -1
  | c :: s, t =>
    if c ≠ deref t then (if c < deref t then -1 else 1)
    else if c = 0 then 0
    else strcmp s t.tail

/-- `strncpy`: the first `n` characters of `src`, padded with NUL to `n` bytes, over the first `n`
bytes of `dst`. No terminator is written after `n` characters. -/
def strncpy (dst src : List UInt8) (n : ℕ) : List UInt8 :=
  (chars src).take n ++ List.replicate (n - strlen src) 0 ++ dst.drop n

/-- What the first byte of memory says about the string there. -/
private theorem chars_eq_deref (s : List UInt8) :
    chars s = if deref s = 0 then [] else deref s :: chars s.tail := by
  cases s with
  | nil => simp [deref]
  | cons c s =>
    by_cases hc : c = 0
    · simp [deref, hc]
    · simp [deref, hc, chars_cons_of_ne]

/-- A difference in the first byte is a difference of the strings: at most one of the two bytes is
the terminator. -/
private theorem take_chars_ne {s t : List UInt8} (hne : deref s ≠ deref t) (n : ℕ) :
    (chars s).take (n + 1) ≠ (chars t).take (n + 1) := by
  rw [chars_eq_deref s, chars_eq_deref t]
  by_cases hs : deref s = 0
  · have ht : deref t ≠ 0 := fun h => hne (hs.trans h.symm)
    simp [hs, ht]
  · by_cases ht : deref t = 0
    · simp [hs, ht]
    · simp [hs, ht, hne]

/-- `strncmp` answers `0` exactly when the strings agree on their first `n` characters. -/
theorem strncmp_eq_zero_iff (s t : List UInt8) (n : ℕ) :
    strncmp s t n = 0 ↔ (chars s).take n = (chars t).take n := by
  induction n generalizing s t with
  | zero => simp [strncmp]
  | succ n ih =>
    rw [strncmp]
    by_cases hne : deref s = deref t
    · rw [chars_eq_deref s, chars_eq_deref t, hne]
      by_cases h0 : deref t = 0
      · simp [h0]
      · simpa [h0] using ih s.tail t.tail
    · have hres : (if deref s < deref t then (-1 : ℤ) else 1) ≠ 0 := by
        split <;> decide
      rw [if_pos hne]
      exact iff_of_false hres (take_chars_ne hne n)

/-- `strcmp` answers `0` exactly on equal strings. -/
theorem strcmp_eq_zero_iff (s t : List UInt8) : strcmp s t = 0 ↔ chars s = chars t := by
  induction s generalizing t with
  | nil =>
    rw [strcmp, chars_nil, chars_eq_deref t]
    by_cases ht : deref t = 0 <;> simp [ht]
  | cons c s ih =>
    rw [strcmp]
    by_cases hne : c = deref t
    · subst hne
      by_cases h0 : deref t = 0
      · simp [h0, chars_eq_deref t]
      · rw [chars_cons_of_ne h0, chars_eq_deref t]
        simpa [h0] using ih t.tail
    · have hres : (if c < deref t then (-1 : ℤ) else 1) ≠ 0 := by
        split <;> decide
      rw [if_pos hne]
      refine iff_of_false hres fun h => ?_
      exact take_chars_ne (s := c :: s) hne 0 (by rw [h])

/-- On strings without NUL, `strcmp` decides equality. -/
@[simp]
theorem strcmp_bytes_eq_zero_iff (s t : CStr) : strcmp s.bytes t.bytes = 0 ↔ s = t := by
  rw [strcmp_eq_zero_iff, chars_bytes, chars_bytes, CStr.ext_iff]

/-- With a bound within the second string, `strncmp` tests whether that many of its characters
start the first. -/
theorem strncmp_eq_zero_iff_prefix (s t : List UInt8) {n : ℕ} (hn : n ≤ strlen t) :
    strncmp s t n = 0 ↔ (chars t).take n <+: chars s := by
  have hlen : ((chars t).take n).length = n := by
    rw [List.length_take]
    exact Nat.min_eq_left hn
  rw [strncmp_eq_zero_iff, List.prefix_iff_eq_take, hlen]
  exact eq_comm

/-- A copy of exactly the string's characters leaves the byte after them as it was. -/
theorem strncpy_strlen (dst src : List UInt8) :
    strncpy dst src (strlen src) = chars src ++ dst.drop (strlen src) := by
  simp [strncpy, strlen]

/-- A copy that has room for the terminator. -/
theorem chars_strncpy (dst : List UInt8) {src : List UInt8} {n : ℕ} (h : strlen src < n) :
    chars (strncpy dst src n) = chars src := by
  obtain ⟨k, hk⟩ := Nat.exists_eq_succ_of_ne_zero (Nat.sub_ne_zero_of_lt h)
  rw [strncpy, hk, List.take_of_length_le (Nat.le_of_lt h), Nat.succ_eq_add_one,
    List.replicate_succ, List.append_assoc, List.cons_append, chars_append_zero,
    chars_eq_self (nul_notMem_chars src)]

end CString
