import StackReferenceMonitor.Blacklist.Size
import StackReferenceMonitor.Foundations.PathString
import StackReferenceMonitor.Monitor.Defs

/-!
# Looking a path up in the blacklist

`isBlacklisted` is `is_blacklisted`: two shortcuts, on the size and on the state, and then a walk
of the chain that compares the path with each entry, once as it is and, when the entry ends in a
slash, once without that slash.

A path is a pointer: `NULL`, or the memory that starts there. A comparison of `NULL` with at least
one byte does not return.

## Main definitions

* `Covers`: an entry, without its trailing slash if it has one, starts a path.

## Main results

* `entryTest_eq`: the two comparisons of an entry decide `Covers`;
* `lookupScan_eq`, `walk_eq`: the walk of a chain finds an entry that covers the path exactly when
  there is one;
* `isBlacklisted_eq_walk`, `isBlacklisted_of_covers`: on a reachable list, in a state that enforces,
  no shortcut hides it.
-/

namespace StackReferenceMonitor

open LinkedList
open PathString (slash)

/-- A string without its last byte if that is a slash. -/
def trimSlash (s : List UInt8) : List UInt8 :=
  if s.getLast? = some slash then s.dropLast else s

/-- The entry, less at most one trailing slash, is a prefix of the path. -/
def Covers (entry : CStr) (path : List UInt8) : Prop :=
  trimSlash entry.bytes <+: path

instance (entry : CStr) (path : List UInt8) : Decidable (Covers entry path) :=
  inferInstanceAs (Decidable (_ <+: _))

theorem trimSlash_isPrefix (s : List UInt8) : trimSlash s <+: s := by
  unfold trimSlash
  split_ifs
  · exact List.dropLast_prefix s
  · exact List.prefix_refl s

/-- `strncmp(path, entry, n)` on a pointer that may be `NULL`. No byte is read when `n` is `0`. -/
def strncmpPtr (path : Option (List UInt8)) (entry : List UInt8) : ℕ → Option ℤ
  | 0 => some 0
  | n + 1 => path.map fun path => CString.strncmp path entry (n + 1)

/-- What the loop of `is_blacklisted` does with one node. The byte before the first one of an empty
entry is not there to be read. -/
def entryTest (path : Option (List UInt8)) (entry : CStr) : Option Bool := do
  let len := CString.strlen entry.bytes
  if (← strncmpPtr path entry.bytes len) = 0 then
    return true
  else
    let last ← CString.byteAt entry.bytes (len - 1)
    if last = slash then
      return (← strncmpPtr path entry.bytes (len - 1)) = 0
    else
      return false

/-- The loop of `is_blacklisted`. -/
def lookupScan (nodes : List BlacklistNode) (path : Option (List UInt8)) :
    ℕ → Option ℕ → Option ℤ
  | 0, _ => none
  | _ + 1, none => some 0
  | fuel + 1, some curr => do
    let node ← nodes[curr]?
    if ← entryTest path node.val then
      return 1
    else
      lookupScan nodes path fuel node.next

/-- The locked walk of `is_blacklisted`, from the head it has read. -/
def walk (bl : Blacklist) (path : Option (List UInt8)) (head : Option ℕ) : Option ℤ :=
  lookupScan bl.nodes path (bl.nodes.length + 1) head

/-- `is_blacklisted`. -/
def isBlacklisted (rf : ReferenceMonitor) (path : Option (List UInt8)) : Option ℤ :=
  if rf.blacklist.size = 0 then some 0
  else if rf.state = 1 ∨ rf.state = 3 then some 0
  else walk rf.blacklist path rf.blacklist.head

variable {bl : Blacklist} {xs : List (ℕ × CStr)} {nodes : List BlacklistNode}

@[simp]
theorem strncmpPtr_some (path entry : List UInt8) (n : ℕ) :
    strncmpPtr (some path) entry n = some (CString.strncmp path entry n) := by
  cases n <;> rfl

/-- The comparisons of one entry decide whether it covers the path. -/
theorem entryTest_eq (path : List UInt8) (entry : CStr) :
    entryTest (some path) entry = some (decide (Covers entry (CString.chars path))) := by
  have hlen : CString.strlen entry.bytes = entry.bytes.length := by
    rw [CString.strlen, CString.chars_bytes]
  have hfull : CString.strncmp path entry.bytes (CString.strlen entry.bytes) = 0 ↔
      entry.bytes <+: CString.chars path := by
    rw [CString.strncmp_eq_zero_iff_prefix path entry.bytes le_rfl, CString.chars_bytes, hlen,
      List.take_length]
  have hcut : CString.strncmp path entry.bytes (CString.strlen entry.bytes - 1) = 0 ↔
      entry.bytes.dropLast <+: CString.chars path := by
    rw [CString.strncmp_eq_zero_iff_prefix path entry.bytes (Nat.sub_le _ _),
      CString.chars_bytes, hlen, List.dropLast_eq_take]
  simp only [entryTest, strncmpPtr_some]
  by_cases hmatch : entry.bytes <+: CString.chars path
  · -- the whole entry starts the path, so the trimmed one does
    have hcov : Covers entry (CString.chars path) := (trimSlash_isPrefix _).trans hmatch
    simp [hfull.mpr hmatch, hcov]
  · have hne := mt hfull.mp hmatch
    -- an empty entry starts every path, so there is a last byte
    have hempty : entry.bytes ≠ [] := by
      intro hnil
      exact hmatch (hnil ▸ List.nil_prefix)
    have hlast := CString.byteAt_last hempty
    rw [← hlen] at hlast
    by_cases hslash : entry.bytes.getLast hempty = slash
    · simp [hne, hlast, hslash, hcut, Covers, trimSlash, List.getLast?_eq_some_getLast hempty]
    · simp [hne, hlast, hslash, hmatch, Covers, trimSlash, List.getLast?_eq_some_getLast hempty]

/-- On a chain the walk ends, and it answers `1` exactly when an entry of it covers the path. -/
theorem lookupScan_eq {p : Option ℕ} (path : List UInt8) (h : Chain nodes p xs) {fuel : ℕ}
    (hfuel : xs.length < fuel) :
    lookupScan nodes (some path) fuel p =
      some (if ∃ x ∈ xs, Covers x.2 (CString.chars path) then 1 else 0) := by
  induction xs generalizing p fuel with
  | nil =>
    obtain rfl := chain_nil.mp h
    obtain ⟨fuel, rfl⟩ : ∃ k, fuel = k + 1 := ⟨fuel - 1, by simp at hfuel; omega⟩
    simp [lookupScan]
  | cons x xs ih =>
    obtain ⟨a, v⟩ := x
    obtain ⟨rfl, next, hnode, hxs⟩ := chain_cons.mp h
    obtain ⟨fuel, rfl⟩ : ∃ k, fuel = k + 1 := ⟨fuel - 1, by simp at hfuel; omega⟩
    by_cases hv : Covers v (CString.chars path)
    · simp [lookupScan, hnode, entryTest_eq, hv]
    · have hrest : (∃ x ∈ (a, v) :: xs, Covers x.2 (CString.chars path)) ↔
          ∃ x ∈ xs, Covers x.2 (CString.chars path) := by
        simp [hv]
      rw [if_congr hrest rfl rfl, ← ih hxs (by simpa using hfuel)]
      simp [lookupScan, hnode, entryTest_eq, hv]

theorem walk_eq {p : Option ℕ} (path : List UInt8) (h : Chain bl.nodes p xs) :
    walk bl (some path) p =
      some (if ∃ x ∈ xs, Covers x.2 (CString.chars path) then 1 else 0) :=
  lookupScan_eq path h (Nat.lt_succ_of_le h.length_le)

/-- `NULL` is not compared with an entry: either the entry is empty, or the comparison faults. -/
theorem entryTest_null (entry : CStr) :
    entryTest none entry = if entry.bytes = [] then some true else none := by
  have hlen : CString.strlen entry.bytes = entry.bytes.length := by
    rw [CString.strlen, CString.chars_bytes]
  rw [entryTest, hlen]
  cases entry.bytes with
  | nil => rfl
  | cons b bytes => rfl

/-- The first entry decides a walk with `NULL`. -/
theorem walk_null {a : ℕ} {v : CStr} (h : bl.Lists ((a, v) :: xs)) :
    walk bl none bl.head = if v.bytes = [] then some 1 else none := by
  obtain ⟨hhead, next, hnode, -⟩ := chain_cons.mp h
  rw [hhead, walk, lookupScan]
  simp only [hnode, Option.bind_eq_bind, Option.bind_some, entryTest_null]
  split_ifs <;> rfl

/-- A walk of a chain answers `1` exactly when an entry of it covers the path. -/
theorem walk_eq_one_iff {p : Option ℕ} (path : List UInt8) (h : Chain bl.nodes p xs) :
    walk bl (some path) p = some 1 ↔ ∃ x ∈ xs, Covers x.2 (CString.chars path) := by
  rw [walk_eq path h]
  split_ifs with hex
  · exact iff_of_true rfl hex
  · exact iff_of_false (by simp) hex

/-- In a state that enforces, no shortcut is taken on a list with an entry: the counter is not
behind the list, so it is not `0`. -/
theorem isBlacklisted_eq_walk {rf : ReferenceMonitor} (hrf : rf.Enforcing)
    (hxs : rf.blacklist.Counted xs) (hne : xs ≠ []) (path : Option (List UInt8)) :
    isBlacklisted rf path = walk rf.blacklist path rf.blacklist.head := by
  have hpos : rf.blacklist.size ≠ 0 := by
    have hlen := hxs.length_le
    have hlt := List.length_pos_iff.mpr hne
    omega
  rw [isBlacklisted, if_neg hpos, if_neg hrf.not_shortcut]

/-- In a state that enforces, the answer is `1` exactly when an entry covers the path. -/
theorem isBlacklisted_eq {rf : ReferenceMonitor} (hrf : rf.Enforcing)
    (hxs : rf.blacklist.Counted xs) (path : List UInt8) :
    isBlacklisted rf (some path) =
      some (if ∃ x ∈ xs, Covers x.2 (CString.chars path) then 1 else 0) := by
  by_cases hne : xs = []
  · -- the counter may be `0` here, and the answer is the same
    have hwalk := walk_eq path hxs.lists
    subst hne
    rw [isBlacklisted, hwalk, if_neg hrf.not_shortcut]
    simp
  · rw [isBlacklisted_eq_walk hrf hxs hne, walk_eq path hxs.lists]

/-- In a state that enforces, a path that an entry covers is found. -/
theorem isBlacklisted_of_covers {rf : ReferenceMonitor} (hrf : rf.Enforcing)
    (hxs : rf.blacklist.Counted xs) {path : List UInt8}
    (hcov : ∃ x ∈ xs, Covers x.2 (CString.chars path)) :
    isBlacklisted rf (some path) = some 1 := by
  rw [isBlacklisted_eq hrf hxs, if_pos hcov]

end StackReferenceMonitor
