import StackReferenceMonitor.Foundations.CString

/-!
# User memory

User memory, seen from the kernel, is a partial map from addresses to bytes: an address with no
byte is one that faults. `copyFromUser` is the kernel's `copy_from_user`: it copies up to the
first fault, fills the rest of the destination with zeros, and returns the number of bytes it did
not copy.

The main results are `UserMem.ofMem_copyFromUser`, that a terminated string that fits the
destination is copied whole, whatever follows it in user memory, and
`UserMem.ofMem_copyFromUser_eq_visible`, what string a copy leaves that is cut short.
-/

/-- User memory: the readable byte at an address, if there is one. -/
abbrev UserMem := ℕ → Option UInt8

namespace UserMem

/-- The readable bytes from `src` on, `n` of them or up to the first fault. -/
def readable (mem : UserMem) (src : ℕ) : ℕ → List UInt8
  | 0 => []
  | n + 1 =>
    match mem src with
    | none => []
    | some b => b :: readable mem (src + 1) n

/-- `copy_from_user`: the contents of the destination after the copy, and the number of bytes that
were not copied. -/
def copyFromUser (mem : UserMem) (src n : ℕ) : List UInt8 × ℕ :=
  let copied := readable mem src n
  (copied ++ List.replicate (n - copied.length) 0, n - copied.length)

/-- A number of bytes: the comparison with `-1` that some callers make never succeeds. -/
theorem copyFromUser_ne_neg_one (mem : UserMem) (src n : ℕ) :
    ((copyFromUser mem src n).2 : ℤ) ≠ -1 := by
  omega

/-- The string `s` and its terminator are readable at `src`. -/
def HasString (mem : UserMem) (src : ℕ) (s : CStr) : Prop :=
  readable mem src (s.bytes.length + 1) = s.bytes ++ [0]

instance (mem : UserMem) (src : ℕ) (s : CStr) : Decidable (mem.HasString src s) :=
  inferInstanceAs (Decidable (_ = _))

/-- Reading less reads the first of these bytes. -/
theorem readable_eq_take (mem : UserMem) (src : ℕ) {m n : ℕ} (h : m ≤ n) :
    readable mem src m = (readable mem src n).take m := by
  induction m generalizing src n with
  | zero => rfl
  | succ m ih =>
    obtain ⟨n, rfl⟩ : ∃ k, n = k + 1 := ⟨n - 1, by omega⟩
    simp only [readable]
    cases mem src with
    | none => rfl
    | some b => rw [List.take_succ_cons, ← ih (src + 1) (Nat.le_of_succ_le_succ h)]

/-- Reading further reads the same bytes first. -/
theorem readable_prefix (mem : UserMem) (src : ℕ) {m n : ℕ} (h : m ≤ n) :
    readable mem src m <+: readable mem src n := by
  rw [readable_eq_take mem src h]
  exact List.take_prefix m _

/-- No more is read than was asked for. -/
theorem length_readable_le (mem : UserMem) (src n : ℕ) : (readable mem src n).length ≤ n := by
  induction n generalizing src with
  | zero => exact le_rfl
  | succ n ih =>
    simp only [readable]
    cases mem src with
    | none => exact Nat.zero_le _
    | some b => exact Nat.succ_le_succ (ih (src + 1))

/-- A string that is longer than what is read fills it, without a terminator. -/
theorem readable_of_le {mem : UserMem} {src : ℕ} {s : CStr} (h : mem.HasString src s) {n : ℕ}
    (hn : n ≤ s.bytes.length) : readable mem src n = s.bytes.take n := by
  rw [readable_eq_take mem src (Nat.le_succ_of_le hn), Nat.succ_eq_add_one, h,
    List.take_append_of_le_length hn]

/-- A terminated string shorter than the destination is copied whole, with its terminator. -/
theorem ofMem_copyFromUser {mem : UserMem} {src : ℕ} {s : CStr} (h : mem.HasString src s) {n : ℕ}
    (hn : s.bytes.length < n) (after : List UInt8) :
    CString.ofMem ((copyFromUser mem src n).1 ++ after) = s := by
  obtain ⟨rest, hrest⟩ := readable_prefix mem src (Nat.succ_le_of_lt hn)
  have hcopied : readable mem src n = s.bytes ++ 0 :: rest := by
    rw [← hrest, Nat.succ_eq_add_one, h, List.append_assoc, List.singleton_append]
  simp only [copyFromUser, hcopied, List.append_assoc, List.cons_append]
  exact CString.ofMem_terminated s _

/-- The string that the first `n` bytes at `src` show to a reader that stops at the first fault.
When all of them can be read and none is a NUL, the string goes on with `after`. -/
def visible (mem : UserMem) (src n : ℕ) (after : List UInt8) : CStr :=
  CString.ofMem (readable mem src n ++ if (readable mem src n).length < n then [] else after)

/-- A copy that is cut short is a terminated string all the same: the zeros after it end it. -/
theorem ofMem_copyFromUser_eq_visible (mem : UserMem) (src n : ℕ) (after : List UInt8) :
    CString.ofMem ((copyFromUser mem src n).1 ++ after) = visible mem src n after := by
  apply CStr.ext
  simp only [visible, copyFromUser, CString.ofMem_bytes]
  split_ifs with hshort
  · obtain ⟨k, hk⟩ : ∃ k, n - (readable mem src n).length = k + 1 :=
      ⟨n - (readable mem src n).length - 1, by omega⟩
    rw [hk, List.replicate_succ, List.append_assoc, List.cons_append, CString.chars_append_zero,
      List.append_nil]
  · rw [Nat.sub_eq_zero_of_le (by omega), List.replicate_zero, List.append_nil]

/-- A user memory that holds the bytes `l` from the address `0` on, and nothing else. -/
def ofList (l : List UInt8) : UserMem :=
  fun i => l[i]?

theorem readable_ofList (l : List UInt8) (src n : ℕ) :
    readable (ofList l) src n = (l.drop src).take n := by
  induction n generalizing src with
  | zero => simp [readable]
  | succ n ih =>
    cases h : l[src]? with
    | none =>
      have hlen : l.length ≤ src := List.getElem?_eq_none_iff.mp h
      simp [readable, ofList, h, List.drop_eq_nil_of_le hlen]
    | some b =>
      obtain ⟨hlt, rfl⟩ := List.getElem?_eq_some_iff.mp h
      rw [List.drop_eq_getElem_cons hlt, List.take_succ_cons, ← ih]
      simp [readable, ofList, hlt]

/-- A user memory that holds the string `s` has it at the address `0`. -/
theorem hasString_ofList (s : CStr) : (ofList (s.bytes ++ [0])).HasString 0 s := by
  simp [HasString, readable_ofList]

end UserMem
