import Mathlib.Data.Option.Basic
import StackReferenceMonitor.Blacklist.Lookup

/-!
# The path of a dentry

`getPathFromDentry` is `get_path_from_dentry`. It copies the characters of the path that
`dentry_path_raw` gives to a buffer with two more bytes, and writes a NUL to the second of them
only: the byte in between keeps what `kmalloc` left there.

On one mount a dentry is known by the names from the root to it.

## Main definitions

* `dentryPathRaw`, `getPathFromDentry`.
* `InOrBelow`: a path is an entry, less at most one trailing slash, or lies below it.

## Main results

* `getPathFromDentry_eq`: the copy, with the byte that was not written;
* `isBlacklisted_getPathFromDentry`: whatever that byte is, the path of a dentry at or below an
  entry is found.
-/

namespace StackReferenceMonitor

open LinkedList
open PathString (slash render)

/-- A dentry: the names from the root of its file system. -/
abbrev Dentry := List Name

/-- `dentry->d_parent`. The root is its own parent. -/
def Dentry.dParent (dentry : Dentry) : Dentry :=
  dentry.dropLast

/-- `dentry_path_raw`: the path of a dentry, or an error when it does not fit, with its
terminator, in `buflen` bytes. -/
def dentryPathRaw (dentry : Dentry) (buflen : ℕ) : Option (List UInt8) :=
  if (render dentry).length < buflen then some (render dentry) else none

/-- What one call of `get_path_from_dentry` meets. -/
structure PathEnv where
  /-- Whether `__get_free_page` succeeds. -/
  page : Bool
  /-- `kmalloc` of `full_path`: `NULL`, or what its memory held. -/
  fullPath : Option (ℕ → UInt8)

/-- `get_path_from_dentry`: `NULL`, or the buffer it returns. -/
def getPathFromDentry (env : PathEnv) (dentry : Dentry) : Option (List UInt8) := do
  guard env.page
  let ret ← dentryPathRaw dentry pathMax
  let len := CString.strlen ret
  let fullPath := (List.range (len + 2)).map (← env.fullPath)
  -- `full_path[len]` is not written
  return (CString.strncpy fullPath ret len).set (len + 1) 0

/-- The path equals the entry with at most one trailing slash removed, or lies below it. -/
def InOrBelow (entry path : List UInt8) : Prop :=
  ∃ e, (entry = e ∨ entry = e ++ [slash]) ∧ (path = e ∨ e ++ [slash] <+: path)

/-- The memory of a path is found to be covered if the path is at or below the entry. -/
theorem Covers.of_inOrBelow {entry : CStr} {path : List UInt8} (h : InOrBelow entry.bytes path) :
    Covers entry path := by
  obtain ⟨e, hentry, hpath⟩ := h
  have hprefix : e <+: path := by
    rcases hpath with rfl | hbelow
    · exact List.prefix_refl path
    · exact (List.prefix_append e [slash]).trans hbelow
  have htrim : trimSlash entry.bytes <+: e := by
    rcases hentry with h | h
    · rw [h]
      exact trimSlash_isPrefix e
    · rw [h]
      simp [trimSlash]
  exact htrim.trans hprefix

/-- With a longer path an entry still covers. -/
theorem Covers.append {entry : CStr} {path : List UInt8} (h : Covers entry path)
    (rest : List UInt8) : Covers entry (path ++ rest) :=
  List.IsPrefix.trans h (List.prefix_append path rest)

section Path

variable {env : PathEnv} {junk : ℕ → UInt8} {dentry : Dentry}

/-- The buffer holds the path, the byte that was not written, and a NUL. -/
theorem getPathFromDentry_eq (hpage : env.page = true) (hfull : env.fullPath = some junk)
    (hraw : (render dentry).length < pathMax) :
    getPathFromDentry env dentry = some (render dentry ++ [junk (render dentry).length, 0]) := by
  have hchars : CString.chars (render dentry) = render dentry :=
    CString.chars_eq_self (PathString.nul_notMem_render dentry)
  have hlen : CString.strlen (render dentry) = (render dentry).length := by
    rw [CString.strlen, hchars]
  -- of the buffer, the copy leaves the last two bytes
  have hdrop (n : ℕ) : ((List.range (n + 2)).map junk).drop n = [junk n, junk (n + 1)] := by
    simp [List.range_succ]
  have hcopy := CString.strncpy_strlen ((List.range ((render dentry).length + 2)).map junk)
    (render dentry)
  rw [hchars, hlen, hdrop] at hcopy
  have hguard : (guard (env.page = true) : Option Unit) = some () :=
    (Option.guard_eq_some' ()).mpr hpage
  simp only [getPathFromDentry, hguard, hfull, dentryPathRaw, if_pos hraw,
    Option.bind_eq_bind, Option.bind_some, Option.pure_def, hlen, hcopy]
  simp

/-- The string in that buffer: the path, and the byte after it unless that is a NUL. -/
theorem chars_path_append (dentry : Dentry) (stray : UInt8) :
    ∃ rest, CString.chars (render dentry ++ [stray, 0]) = render dentry ++ rest :=
  ⟨_, CString.chars_append (PathString.nul_notMem_render dentry) _⟩

end Path

/-- In a state that enforces, on a list whose counter is not behind, a dentry at or below an entry
is found under its path, whatever its buffer held before. -/
theorem isBlacklisted_getPathFromDentry {rf : ReferenceMonitor} (hrf : rf.Enforcing)
    {xs : List (ℕ × CStr)} (hxs : rf.blacklist.Counted xs) {env : PathEnv}
    (hpage : env.page = true) (hfull : env.fullPath.isSome) {dentry : Dentry}
    (hraw : (render dentry).length < pathMax)
    (hcov : ∃ x ∈ xs, Covers x.2 (render dentry)) :
    isBlacklisted rf (getPathFromDentry env dentry) = some 1 := by
  obtain ⟨junk, hjunk⟩ := Option.isSome_iff_exists.mp hfull
  rw [getPathFromDentry_eq hpage hjunk hraw]
  obtain ⟨rest, hrest⟩ := chars_path_append dentry (junk (render dentry).length)
  refine isBlacklisted_of_covers hrf hxs ?_
  obtain ⟨x, hx, hxcov⟩ := hcov
  refine ⟨x, hx, ?_⟩
  rw [hrest]
  exact hxcov.append rest

end StackReferenceMonitor
