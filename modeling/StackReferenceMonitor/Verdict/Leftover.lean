import StackReferenceMonitor.Verdict.Components

/-!
# The verdict and what memory held before

`get_path_from_dentry` leaves one byte of its buffer unwritten, between the path and the terminator.
What `kmalloc` left there becomes the last character of the string that is looked up, unless it is a
NUL.

## Main results

* `leftover_irrelevant_iff`: the verdict does not depend on the buffer, and the string is the path,
  exactly when that byte is a NUL;
* `isBlacklisted_leftover_iff`: which leftovers change the verdict.
-/

namespace StackReferenceMonitor

open PathString (render)

/-- The string that `get_path_from_dentry` returns, if it returns one, is the path that
`dentry_path_raw` produced. -/
def ReturnsPath (env : PathEnv) (dentry : Dentry) : Prop :=
  ∀ path, getPathFromDentry env dentry = some path →
    dentryPathRaw dentry pathMax = some (CString.chars path)

/-- The string in the buffer. -/
theorem chars_render_append (dentry : Dentry) (stray : UInt8) :
    CString.chars (render dentry ++ [stray, 0]) =
      render dentry ++ if stray = 0 then [] else [stray] := by
  rw [CString.chars_append (PathString.nul_notMem_render dentry)]
  split_ifs with hstray
  · rw [hstray, CString.chars_cons_zero]
  · rw [CString.chars_cons_of_ne hstray, CString.chars_cons_zero]

/-- A path that is returned had its page, and it fits. -/
theorem getPathFromDentry_eq_none {page : Bool} {dentry : Dentry}
    (h : ¬(page = true ∧ (render dentry).length < pathMax)) (junk : ℕ → UInt8) :
    getPathFromDentry ⟨page, some junk⟩ dentry = none := by
  rw [Option.eq_none_iff_forall_ne_some]
  intro path hpath
  obtain ⟨hsucceeds, hlen⟩ := succeeds_of_getPathFromDentry hpath
  exact h ⟨hsucceeds.page, hlen⟩

theorem getPathFromDentry_of_page {page : Bool} {dentry : Dentry} {junk : ℕ → UInt8}
    (hpage : page = true) (hlen : (render dentry).length < pathMax) :
    getPathFromDentry ⟨page, some junk⟩ dentry =
      some (render dentry ++ [junk (render dentry).length, 0]) :=
  getPathFromDentry_eq hpage rfl hlen

/-- When a path is returned, it is the one produced exactly when the byte after it was a NUL. -/
theorem returnsPath_iff {page : Bool} {dentry : Dentry} {junk : ℕ → UInt8} (hpage : page = true)
    (hlen : (render dentry).length < pathMax) :
    ReturnsPath ⟨page, some junk⟩ dentry ↔ junk (render dentry).length = 0 := by
  rw [ReturnsPath, getPathFromDentry_of_page hpage hlen, dentryPathRaw, if_pos hlen]
  simp only [Option.some.injEq, forall_eq', chars_render_append]
  split_ifs with hstray
  · exact iff_of_true (List.append_nil _).symm hstray
  · exact iff_of_false (by simp) hstray

/-- For every monitor and dentry and any two contents of the buffer: the verdict is the same and the
string is the path that was produced, if and only if in both contents the byte where the path ends
is a NUL, unless no path is returned at all. -/
theorem leftover_irrelevant_iff (rf : ReferenceMonitor) (page : Bool) (dentry : Dentry)
    (junk junk' : ℕ → UInt8) :
    isBlacklisted rf (getPathFromDentry ⟨page, some junk⟩ dentry) =
          isBlacklisted rf (getPathFromDentry ⟨page, some junk'⟩ dentry) ∧
        ReturnsPath ⟨page, some junk⟩ dentry ∧ ReturnsPath ⟨page, some junk'⟩ dentry ↔
      (page = true → (render dentry).length < pathMax →
        junk (render dentry).length = 0 ∧ junk' (render dentry).length = 0) := by
  by_cases hpath : page = true ∧ (render dentry).length < pathMax
  · obtain ⟨hpage, hlen⟩ := hpath
    rw [returnsPath_iff hpage hlen, returnsPath_iff hpage hlen]
    constructor
    · intro h _ _
      exact h.2
    · intro h
      obtain ⟨hjunk, hjunk'⟩ := h hpage hlen
      -- the rest of the buffer is written
      rw [getPathFromDentry_of_page hpage hlen, getPathFromDentry_of_page hpage hlen, hjunk,
        hjunk']
      exact ⟨rfl, rfl, rfl⟩
  · have hnone := getPathFromDentry_eq_none hpath
    refine iff_of_true ⟨by rw [hnone, hnone], ?_, ?_⟩ fun hpage hlen => absurd ⟨hpage, hlen⟩ hpath
    · intro path h
      simp [hnone] at h
    · intro path h
      simp [hnone] at h

/-- With `/ab` on the list, `/a` is stopped if the buffer held the letter `b`, and the string that
is looked up is then `/ab`. In a zeroed buffer it is `/a`, and it is not stopped. -/
theorem leftover_changes_verdict :
    isBlacklisted (monitorOf (slashed [nameAB] 0))
          (getPathFromDentry ⟨true, some fun _ => 98⟩ [nameA]) = some 1 ∧
      isBlacklisted (monitorOf (slashed [nameAB] 0))
          (getPathFromDentry ⟨true, some fun _ => 0⟩ [nameA]) = some 0 ∧
      ¬ReturnsPath ⟨true, some fun _ => 98⟩ [nameA] := by
  have hlen : (render [nameA]).length < pathMax := by decide
  rw [returnsPath_iff rfl hlen, getPathFromDentry_of_page rfl hlen,
    getPathFromDentry_of_page rfl hlen]
  decide +kernel

/-- An entry covers a string with one more byte if it covers the string, or is the longer one. -/
theorem covers_concat_iff (entry : CStr) (path : List UInt8) (b : UInt8) :
    Covers entry (path ++ [b]) ↔ Covers entry path ∨ trimSlash entry.bytes = path ++ [b] := by
  rw [Covers, Covers, List.prefix_concat_iff, or_comm]

/-- In a state that enforces, on a list whose counter is not behind, a path that is returned is
stopped when an entry covers it, and also when the leftover byte completes it to an entry. -/
theorem isBlacklisted_leftover_iff {rf : ReferenceMonitor} {entries : List CStr}
    (hrf : rf.EnforcesList entries) {dentry : Dentry} {junk : ℕ → UInt8}
    (hlen : (render dentry).length < pathMax) :
    isBlacklisted rf (getPathFromDentry ⟨true, some junk⟩ dentry) = some 1 ↔
      (∃ e ∈ entries, Covers e (render dentry)) ∨
        junk (render dentry).length ≠ 0 ∧
          ∃ e ∈ entries, trimSlash e.bytes = render dentry ++ [junk (render dentry).length] := by
  rw [getPathFromDentry_of_page rfl hlen, hrf.stops_iff, chars_render_append]
  by_cases hstray : junk (render dentry).length = 0
  · simp [hstray]
  · rw [if_neg hstray, and_iff_right hstray]
    simp only [covers_concat_iff, and_or_left, exists_or]

end StackReferenceMonitor
