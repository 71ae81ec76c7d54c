import StackReferenceMonitor.Blacklist.Calls

/-!
# The caller's string

`add_to_blacklist` and `remove_from_blacklist` copy `PATH_MAX` bytes from the caller and compare
what `copy_from_user` returns with `-1`, which it never is. A copy that is cut short by a fault, or
that found no terminator, is used as it is: what is stored or removed is then a string that the
caller does not have.

## Main definitions

* `Call.Whole`: the caller has a terminated string of at most `PATH_MAX` bytes at the address.
* `WholeOrNothing`: the call acts on that string, or fails and changes nothing.

## Main results

* `wholeOrNothing_iff`: when a call does.
-/

namespace StackReferenceMonitor

namespace Blacklist

open LinkedList

/-! ### What a call finds -/

/-- The memory of the calling process. -/
def Call.mem : Call → UserMem
  | .add env _ => env.mem
  | .remove env _ => env.mem

/-- The address that the call is given. -/
def Call.path : Call → ℕ
  | .add _ path => path
  | .remove _ path => path

/-- The bytes that follow the kernel's buffer, if it is allocated. -/
def Call.after : Call → List UInt8
  | .add env _ => env.kernelRelPath.getD []
  | .remove env _ => env.kernelPath.getD []

/-- `kmalloc` of the buffer or of the node fails. -/
def Call.OutOfMemory : Call → Prop
  | .add env _ => env.kernelRelPath = none ∨ env.new = none
  | .remove env _ => env.kernelPath = none

/-- `kmalloc` of `new->path`, which is not checked, does not fail. -/
def Call.PathAllocated : Call → Prop
  | .add env _ => env.newPath = true
  | .remove _ _ => True

/-- A terminated string is readable at the address, of at most `PATH_MAX` bytes with its
terminator. -/
def Call.Whole (c : Call) : Prop :=
  ∃ s, c.mem.HasString c.path s ∧ s.bytes.length < pathMax

/-- The string that the memory at the address shows up to the first fault. -/
def Call.visible (c : Call) : CStr :=
  c.mem.visible c.path pathMax c.after

/-- A call for the string that is visible is refused: an addition because it is listed already, a
removal because it is not. -/
def Call.Refused (c : Call) (xs : List (ℕ × CStr)) : Prop :=
  match c with
  | .add _ _ => c.visible ∈ xs.map Prod.snd
  | .remove _ _ => c.visible ∉ xs.map Prod.snd

/-! ### What a call does -/

/-- The call returns, with what its locked section does for the string `s`. -/
def Call.ActsOn (c : Call) (bl : Blacklist) (s : CStr) : Prop :=
  ∃ result, c.run bl = some result ∧
    match c with
    | .add env _ => ∃ next, env.new = some next ∧ addLocked bl ⟨s, next⟩ = some result
    | .remove _ _ => removeLocked bl s = some result

/-- The call acts on exactly the caller's string, or it returns an error and leaves the list and the
counter as they were. -/
def WholeOrNothing (bl : Blacklist) (xs : List (ℕ × CStr)) (c : Call) : Prop :=
  (∃ s, c.mem.HasString c.path s ∧ s.bytes.length < pathMax ∧ c.ActsOn bl s) ∨
    ∃ ret bl', c.run bl = some (ret, bl') ∧ ret < 0 ∧ bl'.Lists xs ∧ bl'.size = bl.size

variable {bl : Blacklist} {xs : List (ℕ × CStr)} {c : Call}

theorem run_of_outOfMemory (bl : Blacklist) (h : c.OutOfMemory) :
    c.run bl = some (-ENOMEM, bl) := by
  cases c with
  | remove env path =>
    rw [Call.OutOfMemory] at h
    simp [Call.run, removeFromBlacklist, h]
  | add env path =>
    have hret : ((env.mem.copyFromUser path pathMax).2 : ℤ) ≠ -1 := by omega
    cases hrel : env.kernelRelPath with
    | none => simp [Call.run, addToBlacklist, hrel]
    | some after =>
      have hnew : env.new = none := by simpa [Call.OutOfMemory, hrel] using h
      simp [Call.run, addToBlacklist, hrel, hnew, hret]

/-- Without memory for `new->path` the call faults. -/
theorem run_of_not_pathAllocated (bl : Blacklist) (hmem : ¬c.OutOfMemory)
    (hpath : ¬c.PathAllocated) : c.run bl = none := by
  cases c with
  | remove env path => exact absurd trivial hpath
  | add env path =>
    have hret : ((env.mem.copyFromUser path pathMax).2 : ℤ) ≠ -1 := by omega
    rw [Call.OutOfMemory, not_or] at hmem
    obtain ⟨after, hafter⟩ := Option.ne_none_iff_exists'.mp hmem.1
    obtain ⟨next, hnext⟩ := Option.ne_none_iff_exists'.mp hmem.2
    rw [Call.PathAllocated, Bool.not_eq_true] at hpath
    simp [Call.run, addToBlacklist, hafter, hnext, hpath, hret]

/-- An addition with all its memory brings the visible string to its locked section. -/
theorem linking_add {env : AddEnv} {path : ℕ} (hmem : ¬(Call.add env path).OutOfMemory)
    (hpath : (Call.add env path).PathAllocated) :
    ∃ next, env.new = some next ∧
      (Call.add env path).linking = some ⟨(Call.add env path).visible, next⟩ := by
  rw [Call.OutOfMemory, not_or] at hmem
  obtain ⟨after, hafter⟩ := Option.ne_none_iff_exists'.mp hmem.1
  obtain ⟨next, hnext⟩ := Option.ne_none_iff_exists'.mp hmem.2
  rw [Call.PathAllocated] at hpath
  refine ⟨next, hnext, ?_⟩
  simp [Call.linking, hafter, hnext, hpath, UserMem.ofMem_copyFromUser_eq_visible, Call.visible,
    Call.mem, Call.path, Call.after]

/-- So does a removal. -/
theorem unlinking_remove {env : RemoveEnv} {path : ℕ}
    (hmem : ¬(Call.remove env path).OutOfMemory) :
    (Call.remove env path).unlinking = some (Call.remove env path).visible := by
  obtain ⟨after, hafter⟩ := Option.ne_none_iff_exists'.mp hmem
  simp [Call.unlinking, hafter, UserMem.ofMem_copyFromUser_eq_visible, Call.visible, Call.mem,
    Call.path, Call.after]

/-- A call that answers has returned. -/
theorem run_of_respond {ret : ℤ} {bl' : Blacklist} (h : respond bl c = (some ret, bl')) :
    c.run bl = some (ret, bl') := by
  rw [respond] at h
  cases hrun : c.run bl with
  | none => simp [hrun] at h
  | some result => simpa [hrun, Prod.ext_iff] using h

/-- With all its memory, a call returns: an error that changes nothing if it is refused, and `0`
otherwise. -/
theorem run_of_pathAllocated (h : bl.Lists xs) (hmem : ¬c.OutOfMemory) (hpath : c.PathAllocated) :
    (c.Refused xs ∧ ∃ ret bl', c.run bl = some (ret, bl') ∧ ret < 0 ∧ bl'.Lists xs ∧
        bl'.size = bl.size) ∨
      ¬c.Refused xs ∧ ∃ bl', c.run bl = some (0, bl') := by
  have heff := respond_effect h c
  generalize hret : (respond bl c).1 = ret, hbl' : (respond bl c).2 = bl' at heff
  have hrun : ∀ value, ret = some value → c.run bl = some (value, bl') := by
    rintro value rfl
    exact run_of_respond (Prod.ext hret hbl')
  cases c with
  | add env path =>
    obtain ⟨next, -, hlink⟩ := linking_add hmem hpath
    cases heff with
    | kept _ hdup _ hlists hsize _ =>
      obtain ⟨hlisted, hvalue⟩ := hdup _ hlink
      exact Or.inl ⟨hlisted, _, _, hrun _ hvalue, by decide, hlists, hsize⟩
    | linked hnew hnot _ _ _ =>
      obtain rfl := Option.some.inj (hnew.symm.trans hlink)
      exact Or.inr ⟨hnot, _, hrun 0 rfl⟩
    | unlinked hp _ _ _ _ _ => exact absurd hp (by simp [Call.unlinking])
  | remove env path =>
    have hunlink := unlinking_remove hmem
    cases heff with
    | kept _ _ hmissing hlists hsize _ =>
      obtain ⟨hunlisted, hvalue⟩ := hmissing _ hunlink
      exact Or.inl ⟨hunlisted, _, _, hrun _ hvalue, by decide, hlists, hsize⟩
    | linked hnew _ _ _ _ => exact absurd hnew (by simp [Call.linking])
    | @unlinked p ys zs a _ hp hxs _ _ _ _ =>
      obtain rfl := Option.some.inj (hp.symm.trans hunlink)
      refine Or.inr ⟨fun hrefused => hrefused ?_, _, hrun 0 rfl⟩
      simp [hxs]

/-- With all its memory, a call acts on the string that is visible. -/
theorem actsOn_visible (h : bl.Lists xs) (hmem : ¬c.OutOfMemory) (hpath : c.PathAllocated) :
    c.ActsOn bl c.visible := by
  have hreturns : ∃ result, c.run bl = some result := by
    rcases run_of_pathAllocated h hmem hpath with ⟨-, ret, bl', hrun, -⟩ | ⟨-, bl', hrun⟩
    · exact ⟨_, hrun⟩
    · exact ⟨_, hrun⟩
  obtain ⟨result, hrun⟩ := hreturns
  refine ⟨result, hrun, ?_⟩
  cases c with
  | add env path =>
    obtain ⟨next, hnext, hlink⟩ := linking_add hmem hpath
    exact ⟨next, hnext, (run_of_linking bl hlink).symm.trans hrun⟩
  | remove env path => exact (run_of_unlinking bl (unlinking_remove hmem)).symm.trans hrun

/-- The string of a caller that has a whole one is what is visible. -/
theorem visible_eq {s : CStr} (hs : c.mem.HasString c.path s) (hlen : s.bytes.length < pathMax) :
    c.visible = s := by
  rw [Call.visible, ← UserMem.ofMem_copyFromUser_eq_visible]
  exact UserMem.ofMem_copyFromUser hs hlen c.after

/-- On a list that ends, a call acts on the caller's whole string or fails and changes nothing, if
and only if it runs out of memory where that is checked, or it has all its memory and the caller has
a whole string, or what is visible of it is refused. -/
theorem wholeOrNothing_iff (h : bl.Lists xs) (c : Call) :
    WholeOrNothing bl xs c ↔
      c.OutOfMemory ∨ c.PathAllocated ∧ (c.Whole ∨ c.Refused xs) := by
  by_cases hmem : c.OutOfMemory
  · refine iff_of_true (Or.inr ?_) (Or.inl hmem)
    exact ⟨_, _, run_of_outOfMemory bl hmem, by decide, h, rfl⟩
  rw [or_iff_right hmem]
  by_cases hpath : c.PathAllocated
  · rw [and_iff_right hpath]
    constructor
    · rintro (⟨s, hs, hlen, -⟩ | ⟨ret, bl', hrun, hneg, -⟩)
      · exact Or.inl ⟨s, hs, hlen⟩
      · -- a call that is not refused returns `0`
        rcases run_of_pathAllocated h hmem hpath with ⟨hrefused, -⟩ | ⟨-, bl'', hzero⟩
        · exact Or.inr hrefused
        · obtain ⟨rfl, -⟩ : ret = 0 ∧ bl' = bl'' := by simpa [hrun] using hzero
          exact absurd hneg (Int.lt_irrefl 0)
    · rintro (⟨s, hs, hlen⟩ | hrefused)
      · refine Or.inl ⟨s, hs, hlen, ?_⟩
        rw [← visible_eq hs hlen]
        exact actsOn_visible h hmem hpath
      · rcases run_of_pathAllocated h hmem hpath with ⟨-, hkept⟩ | ⟨hnot, -⟩
        · exact Or.inr hkept
        · exact absurd hrefused hnot
  · -- the call faults, and so does neither
    have hnone := run_of_not_pathAllocated bl hmem hpath
    refine iff_of_false ?_ fun hp => hpath hp.1
    rintro (⟨s, -, -, result, hrun, -⟩ | ⟨ret, bl', hrun, -⟩)
    · simp [hnone] at hrun
    · simp [hnone] at hrun

/-- Adding `/a` from a memory that holds it acts on it. -/
theorem wholeOrNothing_addOf : WholeOrNothing empty [] (addOf pathA) := by
  refine (wholeOrNothing_iff lists_empty _).mpr (Or.inr ⟨rfl, Or.inl ⟨pathA, ?_, by decide⟩⟩)
  exact UserMem.hasString_ofList pathA

/-- An addition from an address that faults. -/
def unreadableAdd : Call :=
  .add ⟨fun _ => none, some [], some none, true⟩ 0

/-- It returns `0` and stores the empty path, though the caller has no string at all. -/
theorem unreadable_stored :
    unreadableAdd.run empty = some (0, ⟨some 0, 1, [⟨⟨[], by simp⟩, none⟩]⟩) ∧
      ¬WholeOrNothing empty [] unreadableAdd := by
  have hrun : unreadableAdd.run empty = some (0, ⟨some 0, 1, [⟨⟨[], by simp⟩, none⟩]⟩) := by
    decide +kernel
  refine ⟨hrun, ?_⟩
  rintro (⟨s, hs, -⟩ | ⟨ret, bl', hrun', hneg, -⟩)
  · -- nothing can be read
    have hnil : [] = s.bytes ++ [0] := hs
    simp at hnil
  · obtain ⟨rfl, -⟩ : ret = 0 ∧ bl' = _ := by simpa [hrun', eq_comm] using hrun
    exact absurd hneg (Int.lt_irrefl 0)

end Blacklist

end StackReferenceMonitor
