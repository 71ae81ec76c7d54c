import StackReferenceMonitor.Blacklist.Spec
import StackReferenceMonitor.Foundations.Runs

/-!
# Calls of the blacklist functions

`Call` is one call of `add_to_blacklist` or `remove_from_blacklist` with all it meets, and
`respond` is what it returns and leaves. A call that does not return answers `none` and leaves the
list as it was: both functions write nothing before their last comparison.

Only what a call brings to its locked section matters to the list: the new node of an addition
(`Call.linking`) or the path of a removal (`Call.unlinking`). A call that fails before that point
brings neither.

The main result is `respond_effect`: on a well-formed list, a call either keeps the chain, or
links its node at the end, or unlinks the first node with its path.
-/

namespace StackReferenceMonitor

namespace Blacklist

open LinkedList

/-- A call of one of the two functions that change the list. -/
inductive Call where
  /-- `add_to_blacklist(path, rf)`. -/
  | add (env : AddEnv) (path : ℕ)
  /-- `remove_from_blacklist(path, rf)`. -/
  | remove (env : RemoveEnv) (path : ℕ)

/-- The call's own function. -/
def Call.run (bl : Blacklist) : Call → Option (ℤ × Blacklist)
  | .add env path => addToBlacklist env path bl
  | .remove env path => removeFromBlacklist env path bl

/-- What a call returns, if it returns, and the list after it. -/
def respond (bl : Blacklist) (c : Call) : Option ℤ × Blacklist :=
  match c.run bl with
  | some (ret, bl') => (some ret, bl')
  | none => (none, bl)

/-- The list after a call. -/
def step (bl : Blacklist) (c : Call) : Blacklist :=
  (respond bl c).2

/-- The node that a call of `add_to_blacklist` brings to the locked section. -/
def Call.linking : Call → Option BlacklistNode
  | .add env path => do
    let after ← env.kernelRelPath
    let next ← env.new
    if env.newPath then
      return ⟨CString.ofMem ((env.mem.copyFromUser path pathMax).1 ++ after), next⟩
    else
      none
  | .remove _ _ => none

/-- The path that a call of `remove_from_blacklist` brings to the locked section. -/
def Call.unlinking : Call → Option CStr
  | .add _ _ => none
  | .remove env path => do
    let after ← env.kernelPath
    return CString.ofMem ((env.mem.copyFromUser path pathMax).1 ++ after)

/-- The node of the call, if it allocates one, comes zeroed: its `next` field is `NULL`. -/
def Call.Zeroed : Call → Prop
  | .add env _ => ∀ next, env.new = some next → next = none
  | .remove _ _ => True

variable {bl : Blacklist} {c : Call} {xs : List (ℕ × CStr)} {p : CStr} {new : BlacklistNode}

theorem Call.Zeroed.next_eq_none (hz : c.Zeroed) (h : c.linking = some new) :
    new.next = none := by
  cases c with
  | remove env path => simp [Call.linking] at h
  | add env path =>
    simp only [Call.linking, Option.bind_eq_bind, Option.bind_eq_some_iff] at h
    obtain ⟨after, -, next, hnext, h⟩ := h
    split at h
    · obtain rfl : _ = new := Option.some.inj h
      exact hz next hnext
    · simp at h

theorem Call.unlinking_of_linking (h : c.linking = some new) : c.unlinking = none := by
  cases c with
  | add env path => rfl
  | remove env path => simp [Call.linking] at h

theorem Call.linking_of_unlinking (h : c.unlinking = some p) : c.linking = none := by
  cases c with
  | add env path => simp [Call.unlinking] at h
  | remove env path => rfl

/-- An addition that reaches its locked section. -/
theorem run_of_linking (bl : Blacklist) (h : c.linking = some new) :
    c.run bl = addLocked bl new := by
  cases c with
  | remove env path => simp [Call.linking] at h
  | add env path =>
    simp only [Call.linking, Option.bind_eq_bind, Option.bind_eq_some_iff] at h
    obtain ⟨after, hafter, next, hnext, h⟩ := h
    by_cases hpath : env.newPath
    · obtain rfl : _ = new := by simpa [hpath] using h
      -- `copy_from_user` counts what it has left uncopied
      have hret : ((env.mem.copyFromUser path pathMax).2 : ℤ) ≠ -1 := by omega
      simp [Call.run, addToBlacklist, hafter, hnext, hpath, hret]
    · simp [hpath] at h

/-- A removal that reaches its locked section. -/
theorem run_of_unlinking (bl : Blacklist) (h : c.unlinking = some p) :
    c.run bl = removeLocked bl p := by
  cases c with
  | add env path => simp [Call.unlinking] at h
  | remove env path =>
    simp only [Call.unlinking, Option.bind_eq_bind, Option.bind_eq_some_iff] at h
    obtain ⟨after, hafter, h⟩ := h
    obtain rfl : _ = p := Option.some.inj h
    have hret : ((env.mem.copyFromUser path pathMax).2 : ℤ) ≠ -1 := by omega
    simp [Call.run, removeFromBlacklist, hafter, hret]

/-- A call that does not reach its locked section runs out of memory or does not return. -/
theorem run_of_none (bl : Blacklist) (hl : c.linking = none) (hu : c.unlinking = none) :
    c.run bl = some (-ENOMEM, bl) ∨ c.run bl = none := by
  cases c with
  | remove env path =>
    simp only [Call.unlinking, Option.bind_eq_bind, Option.bind_eq_none_iff, Option.pure_def,
      reduceCtorEq, imp_false] at hu
    have hnull : env.kernelPath = none := Option.eq_none_iff_forall_not_mem.mpr hu
    exact Or.inl (by simp [Call.run, removeFromBlacklist, hnull])
  | add env path =>
    have hret : ((env.mem.copyFromUser path pathMax).2 : ℤ) ≠ -1 := by omega
    cases hrel : env.kernelRelPath with
    | none => exact Or.inl (by simp [Call.run, addToBlacklist, hrel])
    | some after =>
      cases hnew : env.new with
      | none => exact Or.inl (by simp [Call.run, addToBlacklist, hrel, hnew, hret])
      | some next =>
        cases hpath : env.newPath with
        | false => exact Or.inr (by simp [Call.run, addToBlacklist, hrel, hnew, hpath, hret])
        | true => simp [Call.linking, hrel, hnew, hpath] at hl

/-- What a call can do to a list whose chain meets the nodes `xs`: the code it answers with, the
list it leaves, and which allocated nodes it does not write to. -/
inductive Effect (bl : Blacklist) (xs : List (ℕ × CStr)) (c : Call) :
    Option ℤ → Blacklist → Prop
  /-- The call fails, and the chain stays. An addition does so when the path is there already, a
  removal when it is not. -/
  | kept {ret : Option ℤ} {bl' : Blacklist} (hret : ret ≠ some 0)
      (hdup : ∀ new, c.linking = some new → new.val ∈ xs.map Prod.snd ∧ ret = some (-EEXIST))
      (hmissing : ∀ p, c.unlinking = some p → p ∉ xs.map Prod.snd ∧ ret = some (-EINVAL))
      (hlists : bl'.Lists xs) (hsize : bl'.size = bl.size)
      (hframe : ∀ b < bl.nodes.length, bl'.nodes[b]? = bl.nodes[b]?) : Effect bl xs c ret bl'
  /-- A new path: its node comes after the last one, and what follows it is whatever its `next`
  field held. -/
  | linked {new : BlacklistNode} {bl' : Blacklist} (hnew : c.linking = some new)
      (hnot : new.val ∉ xs.map Prod.snd)
      (hseg : Segment bl'.nodes bl'.head (xs ++ [(bl.nodes.length, new.val)]) new.next)
      (hsize : bl'.size = toInt32 (bl.size + 1))
      (hframe : ∀ b < bl.nodes.length, b ∉ xs.map Prod.fst → bl'.nodes[b]? = bl.nodes[b]?) :
      Effect bl xs c (some 0) bl'
  /-- The first node with the path is unlinked, and only a node before it is written to. -/
  | unlinked {p : CStr} {ys zs : List (ℕ × CStr)} {a : ℕ} {bl' : Blacklist}
      (hp : c.unlinking = some p) (hxs : xs = ys ++ (a, p) :: zs) (hnot : p ∉ ys.map Prod.snd)
      (hlists : bl'.Lists (ys ++ zs))
      (hsize : bl'.size = if ys = [] then toInt32 (bl.size - 1) else bl.size)
      (hframe : ∀ b < bl.nodes.length, b ∉ ys.map Prod.fst → bl'.nodes[b]? = bl.nodes[b]?) :
      Effect bl xs c (some 0) bl'

/-- The effect of a call whose function returns. -/
private theorem respond_eq {ret : ℤ} {bl' : Blacklist} (h : c.run bl = some (ret, bl')) :
    respond bl c = (some ret, bl') := by
  simp [respond, h]

/-- The effect of an addition that reaches its locked section. -/
private theorem effect_of_linking (h : bl.Lists xs) (hnew : c.linking = some new) :
    Effect bl xs c (respond bl c).1 (respond bl c).2 := by
  have hu := Call.unlinking_of_linking hnew
  have hrun := run_of_linking bl hnew
  by_cases hmem : new.val ∈ xs.map Prod.snd
  · -- a duplicate: the node stays allocated, and the chain does not lead to it
    rw [addLocked_of_mem h hmem] at hrun
    rw [respond_eq hrun]
    refine .kept (by simp [EEXIST]) ?_ (by simp [hu]) (Segment.alloc h new) rfl
      fun b hb => getElem?_alloc_of_lt hb new
    intro new' hnew'
    obtain rfl : new = new' := by simpa [hnew] using hnew'
    exact ⟨hmem, rfl⟩
  · rcases List.eq_nil_or_concat xs with rfl | ⟨xs, ⟨l, v⟩, rfl⟩
    · -- the first node: `blacklist_head` is written, and no node
      rw [addLocked_nil h] at hrun
      rw [respond_eq hrun]
      refine .linked hnew hmem ?_ rfl fun b hb _ => getElem?_alloc_of_lt hb new
      exact ⟨rfl, new.next, getElem?_alloc_self _ _, rfl⟩
    · rw [List.concat_eq_append] at h hmem ⊢
      rw [addLocked_concat h hmem] at hrun
      rw [respond_eq hrun]
      have hchain : Chain (alloc bl.nodes new) bl.head (xs ++ [(l, v)]) := Segment.alloc h new
      -- the last node is met once, so writing its `next` field does not disturb those before it
      have hl : l ∉ xs.map Prod.fst := by
        have hnd := hchain.nodup
        rw [List.map_append, List.map_singleton, List.nodup_append] at hnd
        exact fun hmem' => hnd.2.2 l hmem' l (by simp) rfl
      have hlt : l < bl.nodes.length := Segment.lt_of_mem h (by simp)
      refine .linked hnew hmem ?_ rfl fun b hb hbl => ?_
      · refine segment_append.mpr ⟨_, hchain.redirect hl _, rfl, new.next, ?_, rfl⟩
        rw [getElem?_setNext_of_ne hlt.ne, getElem?_alloc_self]
      · have hne : l ≠ b := by
          rintro rfl
          simp at hbl
        rw [getElem?_setNext_of_ne hne, getElem?_alloc_of_lt hb]

/-- The effect of a removal that reaches its locked section. -/
private theorem effect_of_unlinking (h : bl.Lists xs) (hp : c.unlinking = some p) :
    Effect bl xs c (respond bl c).1 (respond bl c).2 := by
  have hl := Call.linking_of_unlinking hp
  have hrun := run_of_unlinking bl hp
  by_cases hmem : p ∈ xs.map Prod.snd
  · obtain ⟨ys, a, zs, rfl, hnot⟩ := exists_first_of_mem hmem
    rcases List.eq_nil_or_concat ys with rfl | ⟨ys, ⟨q, u⟩, rfl⟩
    · -- the head: `blacklist_head` is written, and no node
      obtain ⟨next, -, hzs, hrem⟩ := removeLocked_cons h
      rw [hrem] at hrun
      rw [respond_eq hrun]
      exact .unlinked hp rfl hnot hzs (by simp) fun _ _ _ => rfl
    · rw [List.concat_eq_append] at h hnot ⊢
      rw [List.append_assoc, List.singleton_append] at h
      obtain ⟨next, -, hzs, hrem⟩ := removeLocked_inner h hnot
      rw [hrem] at hrun
      rw [respond_eq hrun]
      -- the chain up to the predecessor, redirected to what followed the unlinked node
      have hsplit : bl.Lists ((ys ++ [(q, u)]) ++ (a, p) :: zs) := by simpa using h
      obtain ⟨r, hseg, -⟩ := segment_append.mp hsplit
      have hnd := Chain.nodup hsplit
      simp only [List.map_append, List.map_cons, List.map_nil, List.nodup_append,
        List.nodup_cons] at hnd
      have hq : q ∉ ys.map Prod.fst := fun hmem' => hnd.1.2.2 q hmem' q (by simp) rfl
      have hqz : q ∉ zs.map Prod.fst := fun hmem' =>
        hnd.2.2 q (by simp) q (by simp [hmem']) rfl
      refine .unlinked hp rfl hnot ?_ (by simp) fun b _ hb => ?_
      · refine segment_append.mpr ⟨next, hseg.redirect hq next, ?_⟩
        exact Segment.setNext_of_notMem hzs hqz next
      · have hne : q ≠ b := by
          rintro rfl
          simp at hb
        exact getElem?_setNext_of_ne hne next
  · rw [removeLocked_of_notMem h hmem] at hrun
    rw [respond_eq hrun]
    refine .kept (by simp [EINVAL]) (by simp [hl]) ?_ h rfl fun _ _ => rfl
    intro p' hp'
    obtain rfl : p = p' := by simpa [hp] using hp'
    exact ⟨hmem, rfl⟩

/-- Every call on a list that ends has one of the three effects. -/
theorem respond_effect (h : bl.Lists xs) (c : Call) :
    Effect bl xs c (respond bl c).1 (respond bl c).2 := by
  cases hl : c.linking with
  | some new => exact effect_of_linking h hl
  | none =>
    cases hu : c.unlinking with
    | some p => exact effect_of_unlinking h hu
    | none =>
      rcases run_of_none bl hl hu with hrun | hrun
      · rw [respond_eq hrun]
        exact .kept (by simp [ENOMEM]) (by simp [hl]) (by simp [hu]) h rfl fun _ _ => rfl
      · have hresp : respond bl c = (none, bl) := by simp [respond, hrun]
        rw [hresp]
        exact .kept (by simp) (by simp [hl]) (by simp [hu]) h rfl fun _ _ => rfl

/-! ### Calls on a given string

A call whose user memory holds the string and nothing else, where every allocation succeeds and
the node comes zeroed. -/

/-- `add_to_blacklist` on the string `p`. -/
def addOf (p : CStr) : Call :=
  .add ⟨UserMem.ofList (p.bytes ++ [0]), some [], some none, true⟩ 0

/-- `remove_from_blacklist` on the string `p`. -/
def removeOf (p : CStr) : Call :=
  .remove ⟨UserMem.ofList (p.bytes ++ [0]), some []⟩ 0

theorem addOf_zeroed (p : CStr) : (addOf p).Zeroed := by
  intro next hnext
  exact (Option.some.inj hnext).symm

theorem removeOf_zeroed (p : CStr) : (removeOf p).Zeroed := trivial

theorem run_addOf (bl : Blacklist) (hp : p.bytes.length < pathMax) :
    (addOf p).run bl = addLocked bl ⟨p, none⟩ := by
  apply run_of_linking
  have hread := UserMem.ofMem_copyFromUser (UserMem.hasString_ofList p) hp []
  simp only [List.append_nil] at hread
  simp [Call.linking, addOf, hread]

theorem run_removeOf (bl : Blacklist) (hp : p.bytes.length < pathMax) :
    (removeOf p).run bl = removeLocked bl p := by
  apply run_of_unlinking
  have hread := UserMem.ofMem_copyFromUser (UserMem.hasString_ofList p) hp []
  simp only [List.append_nil] at hread
  simp [Call.unlinking, removeOf, hread]

/-- The path `/a`. -/
def pathA : CStr :=
  ⟨[47, 97], by decide⟩

/-- The path `/b`. -/
def pathB : CStr :=
  ⟨[47, 98], by decide⟩

end Blacklist

end StackReferenceMonitor
