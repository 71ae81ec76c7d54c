import StackReferenceMonitor.Blacklist.Calls

/-!
# The linked list refines an ordered set of paths

`PathSet` is what the list is for: a set of paths in the order of their addition, to which a path
is added if it is absent and from which it is removed if it is present. The calls of
`add_to_blacklist` and `remove_from_blacklist`, on strings that can be read and with memory that
comes zeroed, answer as `PathSet` does and leave its paths on the chain.

## Main definitions

* `PathSet`, `PathSet.apply`: the ordered set, its two operations and their codes.
* `Performs`: a call of the source carries out an operation of the set.
* `Holds`: the chain from `blacklist_head` meets the paths of the set, in order.

## Main results

* `respond_refines`: one call refines one operation;
* `blacklist_refines_pathSet`: every run of calls refines a run of operations, and so do the codes
  of the two system calls.
-/

namespace StackReferenceMonitor

namespace Blacklist

open LinkedList

/-- The protected paths in the order of their addition, none twice. -/
@[ext]
structure PathSet where
  /-- The paths. -/
  paths : List CStr
  /-- They are pairwise distinct. -/
  nodup : paths.Nodup
  deriving DecidableEq

/-- An operation on the set. -/
inductive PathOp where
  /-- Add a path. -/
  | add (p : CStr)
  /-- Remove a path. -/
  | remove (p : CStr)
  deriving DecidableEq

namespace PathSet

/-- No path is protected. -/
def empty : PathSet :=
  ⟨[], List.nodup_nil⟩

/-- An absent path is appended; a present one is refused. -/
def add (s : PathSet) (p : CStr) : ℤ × PathSet :=
  if h : p ∈ s.paths then (-EEXIST, s)
  else (0, ⟨s.paths ++ [p], by rw [← List.concat_eq_append]; exact s.nodup.concat h⟩)

/-- A present path is deleted, the others keep their order; an absent one is not found. -/
def remove (s : PathSet) (p : CStr) : ℤ × PathSet :=
  if p ∈ s.paths then (0, ⟨s.paths.erase p, s.nodup.erase p⟩) else (-EINVAL, s)

/-- The code of an operation and the set after it. -/
def apply (s : PathSet) : PathOp → ℤ × PathSet
  | .add p => s.add p
  | .remove p => s.remove p

end PathSet

/-- The call carries out the operation: the user's string is readable, terminated and shorter than
`PATH_MAX`, allocations succeed, and the node comes zeroed. -/
def Performs : Call → PathOp → Prop
  | .add env path, .add p =>
    env.mem.HasString path p ∧ p.bytes.length < pathMax ∧
      env.kernelRelPath.isSome ∧ env.new = some none ∧ env.newPath = true
  | .remove env path, .remove p =>
    env.mem.HasString path p ∧ p.bytes.length < pathMax ∧ env.kernelPath.isSome
  | _, _ => False

/-- The chain from `blacklist_head` meets exactly the paths of the set. -/
def Holds (bl : Blacklist) (s : PathSet) : Prop :=
  ∃ xs, bl.Lists xs ∧ xs.map Prod.snd = s.paths

/-- What `sys_add_to_blacklist` and `sys_remove_from_blacklist` make of their function's code: a
removal that finds nothing returns `1`. -/
def Call.sysReturn (ret : ℤ) : Call → ℤ
  | .add _ _ => ret
  | .remove _ _ => if ret = -EINVAL then 1 else ret

/-- The code of the system call that makes the call. -/
def sysRespond (bl : Blacklist) (c : Call) : Option ℤ × Blacklist :=
  ((respond bl c).1.map (c.sysReturn ·), (respond bl c).2)

/-- The code the system calls promise for an operation on the set: `1` for a path not found. -/
def PathSet.sysApply (s : PathSet) : PathOp → ℤ × PathSet
  | .add p => s.add p
  | .remove p => if p ∈ s.paths then s.remove p else (1, s)

variable {bl : Blacklist} {s : PathSet} {c : Call} {op : PathOp} {p : CStr}

/-- An addition on a readable string brings that string to the locked section. -/
theorem Performs.linking (h : Performs c (.add p)) :
    c.linking = some ⟨p, none⟩ ∧ c.unlinking = none := by
  cases c with
  | remove env path => exact h.elim
  | add env path =>
    obtain ⟨hstr, hlen, hrel, hnew, hpath⟩ := h
    obtain ⟨after, hafter⟩ := Option.isSome_iff_exists.mp hrel
    have hread := UserMem.ofMem_copyFromUser hstr hlen after
    simp [Call.linking, Call.unlinking, hafter, hnew, hpath, hread]

/-- A removal of a readable string brings that string to the locked section. -/
theorem Performs.unlinking (h : Performs c (.remove p)) :
    c.unlinking = some p ∧ c.linking = none := by
  cases c with
  | add env path => exact h.elim
  | remove env path =>
    obtain ⟨hstr, hlen, hkp⟩ := h
    obtain ⟨after, hafter⟩ := Option.isSome_iff_exists.mp hkp
    have hread := UserMem.ofMem_copyFromUser hstr hlen after
    simp [Call.linking, Call.unlinking, hafter, hread]

/-- One call refines one operation: it answers with the operation's code and leaves a list that
holds the operation's set. -/
theorem respond_refines (hR : Holds bl s) (hL : Performs c op) :
    (respond bl c).1 = some (s.apply op).1 ∧ Holds (respond bl c).2 (s.apply op).2 := by
  obtain ⟨xs, hlists, hxs⟩ := hR
  have heff := respond_effect hlists c
  cases op with
  | add p =>
    obtain ⟨hl, hu⟩ := hL.linking
    generalize (respond bl c).1 = ret, (respond bl c).2 = bl' at heff
    cases heff with
    | kept _ hdup _ hlists' _ _ =>
      obtain ⟨hmem, hret⟩ := hdup _ hl
      rw [hxs] at hmem
      simp only [PathSet.apply, PathSet.add, hmem, ↓reduceDIte]
      exact ⟨hret, xs, hlists', hxs⟩
    | linked hnew hnot hseg _ _ =>
      obtain rfl := Option.some.inj (hl.symm.trans hnew)
      rw [hxs] at hnot
      simp only [PathSet.apply, PathSet.add, hnot, ↓reduceDIte]
      exact ⟨trivial, _, hseg, by simp [hxs]⟩
    | unlinked hp => simp [hu] at hp
  | remove p =>
    obtain ⟨hu, hl⟩ := hL.unlinking
    generalize (respond bl c).1 = ret, (respond bl c).2 = bl' at heff
    cases heff with
    | kept _ _ hmissing hlists' _ _ =>
      obtain ⟨hnot, hret⟩ := hmissing _ hu
      rw [hxs] at hnot
      simp only [PathSet.apply, PathSet.remove, hnot, ↓reduceIte]
      exact ⟨hret, xs, hlists', hxs⟩
    | linked hnew => simp [hl] at hnew
    | @unlinked _ ys zs a _ hp hsplit hnot hlists' _ _ =>
      obtain rfl := Option.some.inj (hu.symm.trans hp)
      have hmem : p ∈ s.paths := by simp [← hxs, hsplit]
      simp only [PathSet.apply, PathSet.remove, hmem, ↓reduceIte]
      refine ⟨trivial, _, hlists', ?_⟩
      have hpaths : s.paths = ys.map Prod.snd ++ p :: zs.map Prod.snd := by
        rw [← hxs, hsplit, List.map_append, List.map_cons]
      change (ys ++ zs).map Prod.snd = s.paths.erase p
      rw [hpaths, List.erase_append_right _ hnot, List.erase_cons_head, List.map_append]

/-- The same for the system calls, which turn the code of a removal that finds nothing into `1`. -/
theorem sysRespond_refines (hR : Holds bl s) (hL : Performs c op) :
    (sysRespond bl c).1 = some (s.sysApply op).1 ∧
      Holds (sysRespond bl c).2 (s.sysApply op).2 := by
  obtain ⟨hret, hholds⟩ := respond_refines hR hL
  cases op with
  | add p =>
    cases c with
    | remove env path => exact hL.elim
    | add env path =>
      simp only [PathSet.apply] at hret hholds
      simpa [sysRespond, Call.sysReturn, PathSet.sysApply, hret] using hholds
  | remove p =>
    cases c with
    | add env path => exact hL.elim
    | remove env path =>
      by_cases hmem : p ∈ s.paths
      · simp only [PathSet.apply, PathSet.remove, hmem, ↓reduceIte] at hret hholds
        simpa [sysRespond, Call.sysReturn, PathSet.sysApply, PathSet.remove, hmem, hret, EINVAL]
          using hholds
      · simp only [PathSet.apply, PathSet.remove, hmem, ↓reduceIte] at hret hholds
        simpa [sysRespond, Call.sysReturn, PathSet.sysApply, hmem, hret] using hholds

/-- Every run of calls from the empty list answers as the ordered set does, at the level of the
functions and of the system calls, and after every call the chain from `blacklist_head` meets
exactly the paths of the set, which are pairwise distinct. -/
theorem blacklist_refines_pathSet (cs : List Call) (ops : List PathOp)
    (h : List.Forall₂ Performs cs ops) :
    Run.outputs respond empty cs = (Run.outputs PathSet.apply PathSet.empty ops).map some ∧
      Run.outputs sysRespond empty cs =
        (Run.outputs PathSet.sysApply PathSet.empty ops).map some ∧
      ∀ n, ∃ xs, (Run.exec step empty (cs.take n)).Lists xs ∧
        xs.map Prod.snd =
          (Run.exec (fun s op => (s.apply op).2) PathSet.empty (ops.take n)).paths ∧
        (xs.map Prod.snd).Nodup := by
  have hstart : Holds empty PathSet.empty := ⟨[], lists_empty, rfl⟩
  refine ⟨?_, ?_, fun n => ?_⟩
  · exact (Run.simulation (fun _ _ _ _ => respond_refines) hstart h).1
  · exact (Run.simulation (fun _ _ _ _ => sysRespond_refines) hstart h).1
  · -- a run cut after `n` calls is itself a run
    obtain ⟨-, xs, hlists, hxs⟩ :=
      Run.simulation (fun _ _ _ _ => respond_refines) hstart (List.forall₂_take n h)
    exact ⟨xs, hlists, hxs, hxs ▸ PathSet.nodup _⟩

/-- Adding `/a` and `/b`, adding `/a` again, and removing it twice. -/
theorem blacklist_refines_pathSet_pathA :
    Run.outputs respond empty
        [addOf pathA, addOf pathB, addOf pathA, removeOf pathA, removeOf pathA] =
        [some 0, some 0, some (-17), some 0, some (-22)] ∧
      Run.outputs sysRespond empty
        [addOf pathA, addOf pathB, addOf pathA, removeOf pathA, removeOf pathA] =
        [some 0, some 0, some (-17), some 0, some 1] := by
  have h : List.Forall₂ Performs
      [addOf pathA, addOf pathB, addOf pathA, removeOf pathA, removeOf pathA]
      [.add pathA, .add pathB, .add pathA, .remove pathA, .remove pathA] := by
    simp only [List.forall₂_cons, List.Forall₂.nil, and_true, Performs, addOf, removeOf]
    decide
  obtain ⟨hout, hsys, -⟩ := blacklist_refines_pathSet _ _ h
  rw [hout, hsys]
  decide

end Blacklist

end StackReferenceMonitor
