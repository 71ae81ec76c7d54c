import StackReferenceMonitor.Foundations.MachineInt
import StackReferenceMonitor.Probes.Coverage
import StackReferenceMonitor.Syscalls.Defs

/-!
# The buffers of `sys_print_blacklist`

`sys_print_blacklist` formats each entry as a line in `temp_string`, of 256 bytes, and appends the
line to `blacklist_entries`. Before it formats a line it asks `krealloc` for the length of the text
so far and of what is in `temp_string`: the line before, or at first what the stack held there. So a
line fits only if it is shorter than the one before it.

The text is then copied to the user without its terminator. When the list is empty the text is a
literal, and a client that has allocated `0 * 4096` bytes gets 19.

A string is given by its characters. A write that does not stay within its buffer has no result: it
is `none`.

## Main definitions

* `printScanChecked`, `sysPrintBlacklistChecked`: the call, with the sizes of its buffers.
* `PrintsBlacklist`, `PrintsTerminated`: the list is printed within the buffers, without a
  terminator in what is copied, or with one.

## Main results

* `sysPrintBlacklist_of_checked`: where no buffer is left, this is `sysPrintBlacklist`;
* `printsBlacklist_iff`: when the list is printed so.
-/

namespace StackReferenceMonitor

open CString (text)
open LinkedList (Chain chain_cons)
open MachineInt (unsigned)

/-! ### The call with its buffers -/

theorem eq_of_sprintfWithin {size : ℕ} {s r : List UInt8} (h : sprintfWithin size s = some r) :
    s = r := by
  unfold sprintfWithin at h
  split_ifs at h
  exact Option.some.inj h

/-- `strcat` to a string in a buffer of `size` bytes. -/
def strcatWithin (size : ℕ) (dest src : List UInt8) : Option (List UInt8) :=
  if dest.length + src.length + 1 ≤ size then some (dest ++ src) else none

/-- The size of the array `temp_string`. -/
def tempStringSize : ℕ := 256

/-- `"- %s\\n"`. -/
def entryLine (path : CStr) : List UInt8 :=
  text "- " ++ path.bytes ++ text "\n"

/-- The loop of `sys_print_blacklist`, with the string in `temp_string`. -/
def printScanChecked (env : PrintEnv) (nodes : List BlacklistNode) :
    ℕ → ℕ → ℕ → List UInt8 → List UInt8 → Option (Option (List UInt8))
  | 0, _, _, _, _ => none
  | fuel + 1, n, curr, entries, tempString => do
    let node ← nodes[curr]?
    -- the line of this node is not yet in `temp_string`
    let size := entries.length + tempString.length
    if !env.krealloc n then return none
    let tempString ← sprintfWithin tempStringSize (entryLine node.val)
    let entries ← strcatWithin size entries tempString
    match node.next with
    | some next => printScanChecked env nodes fuel (n + 1) next entries tempString
    | none => return some entries

/-- What `kmalloc` of `blacklist_entries` is asked for: an `int` product, as a `size_t`. -/
def entriesBytes (blacklistSize : ℤ) : ℕ :=
  (unsigned 64 (toInt32 (blacklistSize * pathMax))).toNat

/-- The text in `blacklist_entries`, with `stack` the bytes that `temp_string` and the stack above
it held before: `some none` when a `krealloc` fails. -/
def printedEntries (env : PrintEnv) (stack : List UInt8) (bl : Blacklist) (blacklistSize : ℤ) :
    Option (Option (List UInt8)) :=
  match bl.head with
  | none => some (some (text "Blacklist is empty\n"))
  | some curr => do
    let entries ← sprintfWithin (entriesBytes blacklistSize) (text "Blacklist elements\n")
    printScanChecked env bl.nodes bl.nodes.length 0 curr entries (CString.chars stack)

/-- The end of the call: what it returns and copies. -/
def copyEntries (env : PrintEnv) : Option (List UInt8) → ℤ × List UInt8
  | none => (-1, [])
  | some entries => if env.copyToUser ≠ 0 then (-EAGAIN, []) else (0, entries)

/-- `sys_print_blacklist`. -/
def sysPrintBlacklistChecked (env : PrintEnv) (stack : List UInt8) (bl : Blacklist)
    (blacklistSize : ℤ) : Option (ℤ × List UInt8) :=
  if blacklistSize ≠ bl.size then some (-1, [])
  else if !env.kmalloc then some (-1, [])
  else (printedEntries env stack bl blacklistSize).map (copyEntries env)

/-! ### One round -/

/-- The line of an entry fits in `temp_string`, and in what `krealloc` was asked for when
`temp_string` held `length` characters. -/
def LineFits (length : ℕ) (path : CStr) : Prop :=
  (entryLine path).length + 1 ≤ tempStringSize ∧ (entryLine path).length + 1 ≤ length

instance (length : ℕ) (path : CStr) : Decidable (LineFits length path) :=
  inferInstanceAs (Decidable (_ ∧ _))

section Round

variable {env : PrintEnv} {nodes : List BlacklistNode} {fuel n curr : ℕ}
  {entries tempString : List UInt8} {node : BlacklistNode}

/-- A round that `krealloc` ends. -/
theorem printScanChecked_of_krealloc (hnode : nodes[curr]? = some node)
    (h : env.krealloc n = false) :
    printScanChecked env nodes (fuel + 1) n curr entries tempString = some none := by
  simp [printScanChecked, hnode, h]

/-- A round whose line does not fit. -/
theorem printScanChecked_of_not_fits (hnode : nodes[curr]? = some node)
    (h : env.krealloc n = true) (hfits : ¬LineFits tempString.length node.val) :
    printScanChecked env nodes (fuel + 1) n curr entries tempString = none := by
  simp only [printScanChecked, hnode, h, Bool.not_true, Bool.false_eq_true, if_false,
    Option.bind_eq_bind, Option.bind_some, sprintfWithin, strcatWithin]
  by_cases htemp : (entryLine node.val).length + 1 ≤ tempStringSize
  · have hentries : ¬entries.length + (entryLine node.val).length + 1 ≤
        entries.length + tempString.length := fun hle => hfits ⟨htemp, by omega⟩
    rw [if_pos htemp, Option.bind_some, if_neg hentries, Option.bind_none]
  · rw [if_neg htemp, Option.bind_none]

/-- A round whose line fits. -/
theorem printScanChecked_of_fits (hnode : nodes[curr]? = some node)
    (h : env.krealloc n = true) (hfits : LineFits tempString.length node.val) :
    printScanChecked env nodes (fuel + 1) n curr entries tempString =
      match node.next with
      | some next =>
        printScanChecked env nodes fuel (n + 1) next (entries ++ entryLine node.val)
          (entryLine node.val)
      | none => some (some (entries ++ entryLine node.val)) := by
  obtain ⟨htemp, hentries⟩ := hfits
  simp only [printScanChecked, hnode, h, Bool.not_true, Bool.false_eq_true, if_false,
    Option.bind_eq_bind, Option.bind_some, sprintfWithin, strcatWithin]
  rw [if_pos htemp, Option.bind_some, if_pos (by omega), Option.bind_some]
  rfl

/-- Where no buffer is left, the loop is `printScan`. -/
theorem printScan_of_checked {r : Option (List UInt8)}
    (h : printScanChecked env nodes fuel n curr entries tempString = some r) :
    printScan env nodes fuel n curr entries = some r := by
  induction fuel generalizing n curr entries tempString with
  | zero => simp [printScanChecked] at h
  | succ fuel ih =>
    cases hnode : nodes[curr]? with
    | none => simp [printScanChecked, hnode] at h
    | some node =>
      simp only [printScan, hnode, Option.bind_eq_bind, Option.bind_some]
      cases hrealloc : env.krealloc n with
      | false =>
        rw [printScanChecked_of_krealloc hnode hrealloc] at h
        simpa using h
      | true =>
        by_cases hfits : LineFits tempString.length node.val
        · rw [printScanChecked_of_fits hnode hrealloc hfits] at h
          cases hnext : node.next with
          | none => simpa [hnext, entryLine] using h
          | some next =>
            rw [hnext] at h
            simpa [entryLine] using ih h
        · rw [printScanChecked_of_not_fits hnode hrealloc hfits] at h
          exact absurd h (by simp)

end Round

/-- Where no buffer is left, the call is `sysPrintBlacklist`. -/
theorem sysPrintBlacklist_of_checked {env : PrintEnv} {stack : List UInt8} {bl : Blacklist}
    {blacklistSize : ℤ} {r : ℤ × List UInt8}
    (h : sysPrintBlacklistChecked env stack bl blacklistSize = some r) :
    sysPrintBlacklist env bl blacklistSize = some r := by
  -- the end of the call is the same
  have hend : ∀ entries, (match entries with
      | none => some (-1, [])
      | some entries => if env.copyToUser ≠ 0 then some (-EAGAIN, []) else some (0, entries) :
        Option (ℤ × List UInt8)) = some (copyEntries env entries) := by
    intro entries
    cases entries with
    | none => rfl
    | some entries => by_cases hcopy : env.copyToUser ≠ 0 <;> simp [copyEntries, hcopy]
  unfold sysPrintBlacklistChecked at h
  unfold sysPrintBlacklist
  by_cases hsize : blacklistSize ≠ bl.size
  · rwa [if_pos hsize] at h ⊢
  rw [if_neg hsize] at h ⊢
  by_cases hkmalloc : (!env.kmalloc) = true
  · rwa [if_pos hkmalloc] at h ⊢
  rw [if_neg hkmalloc] at h ⊢
  obtain ⟨entries, hentries, rfl⟩ := Option.map_eq_some_iff.mp h
  cases hhead : bl.head with
  | none =>
    rw [printedEntries, hhead] at hentries
    obtain rfl := Option.some.inj hentries
    exact hend (some (text "Blacklist is empty\n"))
  | some curr =>
    simp only [printedEntries, hhead, Option.bind_eq_bind, Option.bind_eq_some_iff] at hentries
    obtain ⟨header, hheader, hscan⟩ := hentries
    obtain rfl := eq_of_sprintfWithin hheader
    dsimp only
    rw [printScan_of_checked hscan]
    exact hend entries

/-! ### The whole list -/

/-- The lines of the paths fit one after the other, when `temp_string` holds `length` characters
before the first, up to a `krealloc` that fails. -/
def LinesFit (krealloc : ℕ → Bool) : ℕ → ℕ → List CStr → Prop
  | _, _, [] => True
  | n, length, path :: paths =>
    krealloc n = true →
      LineFits length path ∧ LinesFit krealloc (n + 1) (entryLine path).length paths

/-- Every `krealloc` of `count` rounds succeeds, from the round `n` on. -/
def ReallocsSucceed (krealloc : ℕ → Bool) (n count : ℕ) : Prop :=
  ∀ i < count, krealloc (n + i) = true

theorem reallocsSucceed_succ {krealloc : ℕ → Bool} {n count : ℕ} :
    ReallocsSucceed krealloc n (count + 1) ↔
      krealloc n = true ∧ ReallocsSucceed krealloc (n + 1) count := by
  rw [ReallocsSucceed, Nat.forall_lt_succ_left]
  refine and_congr Iff.rfl (forall₂_congr fun i _ => ?_)
  rw [Nat.add_right_comm, Nat.add_assoc]

section Scan

variable {env : PrintEnv} {nodes : List BlacklistNode} {xs : List (ℕ × CStr)} {fuel n curr : ℕ}
  {entries tempString : List UInt8}

/-- A loop in which a line does not fit. -/
theorem printScanChecked_eq_none (h : Chain nodes (some curr) xs) (hfuel : xs.length ≤ fuel)
    (hfits : ¬LinesFit env.krealloc n tempString.length (xs.map Prod.snd)) :
    printScanChecked env nodes fuel n curr entries tempString = none := by
  -- along the chain, with the line of each node in `temp_string` for the next
  induction xs generalizing fuel n curr entries tempString with
  | nil => exact absurd trivial hfits
  | cons x xs ih =>
    obtain ⟨hcurr, next, hnode, hxs⟩ := chain_cons.mp h
    obtain rfl := Option.some.inj hcurr
    obtain ⟨fuel, rfl⟩ : ∃ k, fuel = k + 1 := ⟨fuel - 1, by simp at hfuel; omega⟩
    rw [List.map_cons, LinesFit, Classical.not_imp, not_and] at hfits
    obtain ⟨hrealloc, hrest⟩ := hfits
    by_cases hline : LineFits tempString.length x.2
    · rw [printScanChecked_of_fits hnode hrealloc hline]
      cases next with
      | none =>
        obtain ⟨rfl, -⟩ := hxs.eq_nil_of_none
        exact absurd trivial (hrest hline)
      | some next => exact ih hxs (by simpa using hfuel) (hrest hline)
    · exact printScanChecked_of_not_fits hnode hrealloc hline

/-- A loop in which all lines fit: the text with all of them, unless a `krealloc` fails. -/
theorem printScanChecked_eq (entries : List UInt8) (h : Chain nodes (some curr) xs)
    (hfuel : xs.length ≤ fuel)
    (hfits : LinesFit env.krealloc n tempString.length (xs.map Prod.snd)) :
    ∃ r, printScanChecked env nodes fuel n curr entries tempString = some r ∧
      (ReallocsSucceed env.krealloc n xs.length →
        r = some (entries ++ (xs.map Prod.snd).flatMap entryLine)) ∧
      (¬ReallocsSucceed env.krealloc n xs.length → r = none) := by
  induction xs generalizing fuel n curr entries tempString with
  | nil => exact absurd (LinkedList.chain_nil.mp h) (by simp)
  | cons x xs ih =>
    obtain ⟨hcurr, next, hnode, hxs⟩ := chain_cons.mp h
    obtain rfl := Option.some.inj hcurr
    obtain ⟨fuel, rfl⟩ : ∃ k, fuel = k + 1 := ⟨fuel - 1, by simp at hfuel; omega⟩
    rw [List.length_cons, reallocsSucceed_succ]
    cases hrealloc : env.krealloc n with
    | false =>
      refine ⟨none, printScanChecked_of_krealloc hnode hrealloc, ?_, fun _ => rfl⟩
      intro hall
      exact absurd hall.1 (by simp)
    | true =>
      obtain ⟨hline, hrest⟩ := hfits hrealloc
      rw [printScanChecked_of_fits hnode hrealloc hline]
      cases next with
      | none =>
        obtain ⟨rfl, -⟩ := hxs.eq_nil_of_none
        exact ⟨_, rfl, fun _ => by simp, fun hnot => absurd ⟨rfl, by simp [ReallocsSucceed]⟩ hnot⟩
      | some next =>
        obtain ⟨r, hr, hall, hfail⟩ := ih (entries ++ entryLine x.2) hxs (by simpa using hfuel)
          hrest
        refine ⟨r, hr, fun h => ?_, fun h => hfail fun h' => h ⟨rfl, h'⟩⟩
        rw [hall h.2, List.append_assoc, List.map_cons, List.flatMap_cons]

/-- Lines that fit are short. -/
theorem LinesFit.length_le {krealloc : ℕ → Bool} {n length : ℕ} {paths : List CStr}
    (h : LinesFit krealloc n length paths) (hall : ReallocsSucceed krealloc n paths.length) :
    (paths.flatMap entryLine).length ≤ 255 * paths.length := by
  induction paths generalizing n length with
  | nil => simp
  | cons path paths ih =>
    obtain ⟨hn, hrest⟩ := reallocsSucceed_succ.mp hall
    obtain ⟨⟨htemp, -⟩, hlines⟩ := h hn
    have hle := ih hlines hrest
    unfold tempStringSize at htemp
    rw [List.flatMap_cons, List.length_append, List.length_cons]
    omega

end Scan

/-! ### What is printed -/

/-- The text for the entries of a list. -/
def printedText : List CStr → List UInt8
  | [] => text "Blacklist is empty\n"
  | path :: paths => text "Blacklist elements\n" ++ (path :: paths).flatMap entryLine

/-- A call with the size of the list stays within its buffers, and if it returns `0`, what it has
copied satisfies `P`. -/
def PrintCopies (env : PrintEnv) (stack : List UInt8) (bl : Blacklist) (P : List UInt8 → Prop) :
    Prop :=
  ∃ ret copied, sysPrintBlacklistChecked env stack bl bl.size = some (ret, copied) ∧
    (ret = 0 → P copied)

/-- The call stays within its buffers. If it returns `0`, it has copied the text for the entries of
the list, to a buffer of the user of `size * 4096` bytes that has room for the text and a
terminator. -/
def PrintsBlacklist (env : PrintEnv) (stack : List UInt8) (bl : Blacklist) : Prop :=
  PrintCopies env stack bl fun copied =>
    (∃ xs, bl.Lists xs ∧ copied = printedText (xs.map Prod.snd)) ∧
      (copied.length : ℤ) + 1 ≤ bl.size * 4096

/-- The same with the terminator among the bytes that are copied. -/
def PrintsTerminated (env : PrintEnv) (stack : List UInt8) (bl : Blacklist) : Prop :=
  PrintCopies env stack bl fun copied =>
    (∃ xs, bl.Lists xs ∧ copied = printedText (xs.map Prod.snd) ++ [0]) ∧
      (copied.length : ℤ) ≤ bl.size * 4096

/-- The buffers of a call are large enough, for a list with these paths: the first of them is not
empty although the product for it may overflow, and each line fits. -/
structure BuffersFit (env : PrintEnv) (stack : List UInt8) (size : ℤ) (paths : List CStr) :
    Prop where
  /-- The first buffer. -/
  header : ¬2 ^ 20 ∣ size
  /-- The lines. -/
  lines : LinesFit env.krealloc 0 (CString.strlen stack) paths

section Printed

variable {env : PrintEnv} {stack : List UInt8} {bl : Blacklist} {xs : List (ℕ × CStr)}

/-- What `kmalloc` is asked for has room for the header, unless it is `0`. -/
theorem sprintfWithin_header (size : ℤ) :
    sprintfWithin (entriesBytes size) (text "Blacklist elements\n") =
      if 2 ^ 20 ∣ size then none else some (text "Blacklist elements\n") := by
  have hlen : (text "Blacklist elements\n").length = 19 := by decide +kernel
  have hsize : 19 + 1 ≤ entriesBytes size ↔ ¬2 ^ 20 ∣ size := by
    -- a product that does not vanish is a multiple of 4096
    rw [entriesBytes, toInt32, Int.bmod_def, unsigned, pathMax]
    split_ifs <;> omega
  rw [sprintfWithin, hlen, if_congr hsize rfl rfl]
  split_ifs <;> rfl

/-- A text that leaves a buffer. -/
theorem printedEntries_eq_none (hxs : bl.Lists xs) (hne : xs ≠ [])
    (h : ¬BuffersFit env stack bl.size (xs.map Prod.snd)) :
    printedEntries env stack bl bl.size = none := by
  obtain ⟨x, ys, rfl⟩ := List.exists_cons_of_ne_nil hne
  have hhead := (chain_cons.mp hxs).1
  rw [Blacklist.Lists, hhead] at hxs
  simp only [printedEntries, hhead, sprintfWithin_header]
  split_ifs with hheader
  · rfl
  · have hlines : ¬LinesFit env.krealloc 0 (CString.chars stack).length
        ((x :: ys).map Prod.snd) := fun hlines => h ⟨hheader, hlines⟩
    exact printScanChecked_eq_none hxs hxs.length_le hlines

/-- The text of a list that is not empty. -/
theorem printedEntries_eq (hxs : bl.Lists xs) (hne : xs ≠ [])
    (h : BuffersFit env stack bl.size (xs.map Prod.snd)) :
    ∃ r, printedEntries env stack bl bl.size = some r ∧
      (ReallocsSucceed env.krealloc 0 xs.length → r = some (printedText (xs.map Prod.snd))) ∧
      (¬ReallocsSucceed env.krealloc 0 xs.length → r = none) := by
  obtain ⟨x, ys, rfl⟩ := List.exists_cons_of_ne_nil hne
  have hhead := (chain_cons.mp hxs).1
  rw [Blacklist.Lists, hhead] at hxs
  simp only [printedEntries, hhead, sprintfWithin_header,
    if_neg h.header]
  exact printScanChecked_eq _ hxs hxs.length_le h.lines

/-- The text for an empty list. -/
theorem printedEntries_nil (hxs : bl.Lists []) :
    printedEntries env stack bl bl.size = some (some (printedText [])) := by
  have hhead : bl.head = none := hxs
  rw [printedEntries, hhead]
  rfl

/-- What is required of the copied bytes is required of the text, if there is one and the copy
succeeds. -/
theorem printCopies_iff_of_entries (hkmalloc : env.kmalloc = true) {r : Option (List UInt8)}
    (hr : printedEntries env stack bl bl.size = some r) (P : List UInt8 → Prop) :
    PrintCopies env stack bl P ↔ ∀ entries, r = some entries → env.copyToUser = 0 → P entries := by
  have hcall : sysPrintBlacklistChecked env stack bl bl.size = some (copyEntries env r) := by
    rw [sysPrintBlacklistChecked, if_neg (by simp), if_neg (by simp [hkmalloc]), hr,
      Option.map_some]
  rw [PrintCopies, hcall]
  cases r with
  | none => simp [copyEntries]
  | some entries => by_cases hcopy : env.copyToUser = 0 <;> simp [copyEntries, hcopy, EAGAIN]

/-- A call whose first allocation succeeds stays within its buffers if they fit, and copies the text
for the whole list if no other allocation and no copy fails. -/
theorem printCopies_iff (hxs : bl.Lists xs) (hkmalloc : env.kmalloc = true)
    (P : List UInt8 → Prop) :
    PrintCopies env stack bl P ↔
      (xs ≠ [] → BuffersFit env stack bl.size (xs.map Prod.snd)) ∧
        (env.copyToUser = 0 → ReallocsSucceed env.krealloc 0 xs.length →
          P (printedText (xs.map Prod.snd))) := by
  by_cases hne : xs = []
  · subst hne
    rw [printCopies_iff_of_entries hkmalloc (printedEntries_nil hxs)]
    simp [ReallocsSucceed]
  by_cases hfit : BuffersFit env stack bl.size (xs.map Prod.snd)
  · obtain ⟨r, hr, hall, hfail⟩ := printedEntries_eq hxs hne hfit
    rw [printCopies_iff_of_entries hkmalloc hr]
    by_cases hrealloc : ReallocsSucceed env.krealloc 0 xs.length
    · obtain rfl := hall hrealloc
      simp [hfit, hrealloc]
    · obtain rfl := hfail hrealloc
      simp [hfit, hrealloc]
  · have hnone : sysPrintBlacklistChecked env stack bl bl.size = none := by
      rw [sysPrintBlacklistChecked, if_neg (by simp), if_neg (by simp [hkmalloc]),
        printedEntries_eq_none hxs hne hfit, Option.map_none]
    simp [PrintCopies, hnone, hne, hfit]

/-- A call whose first allocation fails copies nothing. -/
theorem printCopies_of_kmalloc (hkmalloc : env.kmalloc = false) (P : List UInt8 → Prop) :
    PrintCopies env stack bl P := by
  refine ⟨-1, [], ?_, fun h => absurd h (by decide)⟩
  rw [sysPrintBlacklistChecked, if_neg (by simp), if_pos (by simp [hkmalloc])]

/-- The text of a list that was printed whole has room in the buffer of the user. -/
theorem BuffersFit.length_lt (h : BuffersFit env stack bl.size (xs.map Prod.snd))
    (hxs : bl.Counted xs) (hne : xs ≠ []) (hall : ReallocsSucceed env.krealloc 0 xs.length) :
    ((printedText (xs.map Prod.snd)).length : ℤ) + 1 ≤ bl.size * 4096 := by
  have hlines := h.lines.length_le (by rwa [List.length_map])
  have hcount := hxs.length_le
  have hpos := List.length_pos_iff.mpr hne
  have hheader : (text "Blacklist elements\n").length = 19 := by decide +kernel
  obtain ⟨x, ys, rfl⟩ := List.exists_cons_of_ne_nil hne
  rw [List.length_map] at hlines
  rw [List.map_cons, printedText, List.length_append, hheader, ← List.map_cons]
  omega

end Printed

/-- A client asks for the size of a reachable list, allocates 4096 bytes for each entry, and has the
list printed.

* The call stays within its buffers and prints the list with room for a terminator, if and only if
  its first allocation fails, or the list is empty and its size is not `0` or the copy fails, or the
  list is not empty, its size is not a multiple of `2 ^ 20`, and each line fits.
* The terminator is among the bytes that are copied only if nothing is copied. -/
theorem printsBlacklist_iff {bl : Blacklist} {xs : List (ℕ × CStr)} (hbl : bl.Reachable)
    (hxs : bl.Lists xs) (env : PrintEnv) (stack : List UInt8) :
    (PrintsBlacklist env stack bl ↔ (env.kmalloc = true →
        (xs = [] → env.copyToUser = 0 → 0 < bl.size) ∧
          (xs ≠ [] → BuffersFit env stack bl.size (xs.map Prod.snd)))) ∧
      (PrintsTerminated env stack bl ↔ (env.kmalloc = true →
        (env.copyToUser = 0 → ¬ReallocsSucceed env.krealloc 0 xs.length) ∧
          (xs ≠ [] → BuffersFit env stack bl.size (xs.map Prod.snd)))) := by
  obtain ⟨xs', hcounted⟩ := hbl.counted
  obtain rfl := hxs.unique hcounted.lists
  cases hkmalloc : env.kmalloc with
  | false =>
    exact ⟨iff_of_true (printCopies_of_kmalloc hkmalloc _) (by simp),
      iff_of_true (printCopies_of_kmalloc hkmalloc _) (by simp)⟩
  | true =>
    rw [PrintsBlacklist, PrintsTerminated, printCopies_iff hxs hkmalloc,
      printCopies_iff hxs hkmalloc, forall_prop_of_true rfl, forall_prop_of_true rfl]
    constructor
    · rw [and_comm]
      refine and_congr_left fun hfit => ⟨fun h hnil hcopy => ?_, fun h hcopy hall => ?_⟩
      · subst hnil
        have hroom := (h hcopy fun i hi => absurd hi (Nat.not_lt_zero i)).2
        omega
      · refine ⟨⟨xs, hxs, rfl⟩, ?_⟩
        by_cases hnil : xs = []
        · subst hnil
          have hlen : (printedText []).length = 19 := by decide +kernel
          have hpos := h rfl hcopy
          rw [List.map_nil, hlen]
          omega
        · exact (hfit hnil).length_lt hcounted hnil hall
    · -- the entries are those of this chain, and their text does not end in a terminator
      have hterm : ¬∃ ys, bl.Lists ys ∧
          printedText (xs.map Prod.snd) = printedText (ys.map Prod.snd) ++ [0] := by
        rintro ⟨ys, hys, heq⟩
        obtain rfl := hxs.unique hys
        exact absurd (congrArg List.length heq) (by simp)
      rw [and_comm]
      refine and_congr_left fun _ => forall_congr' fun _ => forall_congr' fun _ => ?_
      exact iff_of_false (fun h => hterm h.1) not_false

/-- What a call meets that has all its allocations. -/
def plainPrint : PrintEnv :=
  { kmalloc := true, krealloc := fun _ => true, copyToUser := 0 }

/-- The list with the entries `/ab` and `/a`. -/
def twoEntries : Blacklist :=
  { head := some 0, size := 2
    nodes := [⟨⟨[47, 97, 98], by decide⟩, some 1⟩, ⟨Blacklist.pathA, none⟩] }

/-- Two additions lead to it. -/
theorem twoEntries_reachable : twoEntries.Reachable := by
  have hstep : Blacklist.step (.listOf ⟨[47, 97, 98], by decide⟩)
      (Blacklist.addOf Blacklist.pathA) = twoEntries := by
    simp only [Blacklist.step, Blacklist.respond,
      Blacklist.run_addOf _ (show Blacklist.pathA.bytes.length < pathMax by decide)]
    rfl
  rw [← hstep]
  refine .call (Blacklist.listOf_reachable (by decide)) (Blacklist.addOf_zeroed _) fun _ _ _ => ?_
  decide

/-- The stack has ten characters for `temp_string`. The first line fits in them, and the second one
in what the first has left. -/
theorem printsBlacklist_twoEntries :
    PrintsBlacklist plainPrint (List.replicate 10 97) twoEntries := by
  have hlists : twoEntries.Lists [(0, ⟨[47, 97, 98], by decide⟩), (1, Blacklist.pathA)] :=
    ⟨rfl, some 1, rfl, rfl, none, rfl, rfl⟩
  refine (printsBlacklist_iff twoEntries_reachable hlists plainPrint _).1.mpr fun _ =>
    ⟨by simp, fun _ => ?_⟩
  exact ⟨by decide, fun _ => ⟨by decide +kernel, fun _ => ⟨by decide +kernel, trivial⟩⟩⟩

/-- The list with the one entry `/a`, when `temp_string` begins with a NUL: the line is appended
past the 19 bytes that were asked for. And an empty list: 19 bytes are copied to a buffer of none.
-/
theorem print_overruns_buffers :
    sysPrintBlacklistChecked plainPrint [0] (Blacklist.listOf Blacklist.pathA) 1 = none ∧
      ¬PrintsBlacklist plainPrint [0] (Blacklist.listOf Blacklist.pathA) ∧
      ∃ copied, sysPrintBlacklistChecked plainPrint [0] Blacklist.empty 0 = some (0, copied) ∧
        copied.length = 19 ∧ ¬PrintsBlacklist plainPrint [0] Blacklist.empty := by
  have hover : sysPrintBlacklistChecked plainPrint [0] (Blacklist.listOf Blacklist.pathA) 1 =
      none := by decide +kernel
  have hempty : sysPrintBlacklistChecked plainPrint [0] Blacklist.empty 0 =
      some (0, text "Blacklist is empty\n") := by decide +kernel
  have hlen : (text "Blacklist is empty\n").length = 19 := by decide +kernel
  refine ⟨hover, ?_, _, hempty, hlen, ?_⟩
  · rintro ⟨ret, copied, hcall, -⟩
    exact absurd (hover.symm.trans hcall) (by simp)
  · rintro ⟨ret, copied, hcall, hprints⟩
    obtain ⟨rfl, rfl⟩ := Prod.mk.inj (Option.some.inj (hempty.symm.trans hcall))
    have hroom := (hprints rfl).2
    rw [hlen] at hroom
    exact absurd hroom (by decide)

end StackReferenceMonitor
