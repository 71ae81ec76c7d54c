import StackReferenceMonitor.Blacklist.Calls

/-!
# The size counter and the length of the list

`blacklist_size` is kept by hand. An addition increments it, and the removal of the head decrements
it, but the removal of any other node does not: after one, the counter is ahead of the list, and it
never comes back.

Allocation is taken to return zeroed nodes throughout (`ZeroedCall`).

## Main results

* `size_agrees_iff`: a run keeps the counter equal to the number of nodes exactly when no call of
  it unlinks a node other than the head, or links a node to a list of `2 ^ 31 - 1`;
* `Reachable.counted`: as long as the counter does not overflow it is never behind the list.
-/

namespace StackReferenceMonitor

namespace Blacklist

open LinkedList

/-- A call whose node, if it allocates one, comes zeroed. -/
abbrev ZeroedCall := { c : Call // c.Zeroed }

/-- The list after such a call. -/
def zeroedStep (bl : Blacklist) (c : ZeroedCall) : Blacklist :=
  step bl c.1

/-- `blacklist_size` is the number of nodes on the chain from `blacklist_head`. -/
def SizeAgrees (bl : Blacklist) : Prop :=
  ∃ xs, bl.Lists xs ∧ bl.size = xs.length

/-- The call does not unlink a node other than the head, and does not link a node to a list that
already has `2 ^ 31 - 1` of them. -/
def KeepsCount (bl : Blacklist) (c : ZeroedCall) : Prop :=
  ∀ xs, bl.Lists xs →
    (∀ p, c.1.unlinking = some p → p ∈ xs.map Prod.snd → (xs.map Prod.snd).head? = some p) ∧
      ∀ new, c.1.linking = some new → new.val ∉ xs.map Prod.snd → xs.length + 1 < 2 ^ 31

/-- The counter is the length, and within the range of an `int`. -/
private def ExactSize (bl : Blacklist) : Prop :=
  ∃ xs, bl.Lists xs ∧ bl.size = xs.length ∧ xs.length < 2 ^ 31

variable {bl : Blacklist}

/-- A call that meets the condition keeps the counter exact. -/
private theorem ExactSize.step (h : ExactSize bl) (c : ZeroedCall) (hc : KeepsCount bl c) :
    ExactSize (zeroedStep bl c) := by
  obtain ⟨xs, hlists, hsize, hlt⟩ := h
  obtain ⟨hhead, hroom⟩ := hc xs hlists
  have heff := respond_effect hlists c.1
  rw [zeroedStep, Blacklist.step]
  generalize (respond bl c.1).1 = ret, (respond bl c.1).2 = bl' at heff ⊢
  cases heff with
  | kept _ _ _ hlists' hsize' _ => exact ⟨xs, hlists', by rw [hsize', hsize], hlt⟩
  | @linked new _ hnew hnot hseg hsize' _ =>
    -- there is room for the increment
    have hlt' := hroom new hnew hnot
    rw [c.2.next_eq_none hnew] at hseg
    refine ⟨_, hseg, ?_, by simpa using hlt'⟩
    rw [hsize', hsize, toInt32_of_mem (by omega) (by omega)]
    simp
  | @unlinked p ys zs a _ hp hxs hnot hlists' hsize' _ =>
    subst hxs
    -- the unlinked node is the first with its path, and the head has that path
    have hys : ys = [] := by
      have hfirst := hhead p hp (by simp)
      cases ys with
      | nil => rfl
      | cons y ys => simp_all
    subst hys
    refine ⟨zs, hlists', ?_, by simp at hlt; omega⟩
    simp only [List.nil_append, List.length_cons] at hlt hsize
    rw [hsize', if_pos rfl, hsize, toInt32_of_mem (by omega) (by omega)]
    simp

/-- A call that keeps the counter equal to the length meets the condition. -/
private theorem KeepsCount.of_sizeAgrees (h : ExactSize bl) (c : ZeroedCall)
    (hc : SizeAgrees (zeroedStep bl c)) : KeepsCount bl c := by
  obtain ⟨xs, hlists, hsize, hlt⟩ := h
  obtain ⟨xs', hlists', hagree⟩ := hc
  intro xs'' hlists''
  obtain rfl := hlists.unique hlists''
  have heff := respond_effect hlists c.1
  rw [zeroedStep, Blacklist.step] at hlists' hagree
  generalize (respond bl c.1).1 = ret, (respond bl c.1).2 = bl' at heff hlists' hagree
  cases heff with
  | kept _ hdup hmissing _ _ _ =>
    exact ⟨fun p hp hmem => absurd hmem (hmissing p hp).1,
      fun new hnew hnot => absurd (hdup new hnew).1 hnot⟩
  | @linked new _ hnew hnot hseg hsize' _ =>
    have hu := Call.unlinking_of_linking hnew
    refine ⟨by simp [hu], fun _ _ _ => ?_⟩
    rw [c.2.next_eq_none hnew] at hseg
    obtain rfl := hlists'.unique hseg
    -- a counter that agrees with the longer chain has not wrapped
    have hbound := toInt32_lt (bl.size + 1)
    rw [← hsize', hagree] at hbound
    simp only [List.length_append, List.length_singleton] at hbound
    omega
  | @unlinked p ys zs a _ hp hxs hnot hl hsize' _ =>
    have hnone := Call.linking_of_unlinking hp
    refine ⟨fun q hq _ => ?_, by simp [hnone]⟩
    obtain rfl : p = q := by simpa [hp] using hq
    obtain rfl := hlists'.unique hl
    cases ys with
    | nil => simp [hxs]
    | cons y ys =>
      -- the counter stayed, the chain lost a node
      rw [hsize', if_neg (by simp), hsize, hxs] at hagree
      simp only [List.length_append, List.length_cons] at hagree
      omega

/-- A run of calls from the empty list has `blacklist_size` equal to the number of nodes on the
chain in every state it visits, if and only if each of its calls meets `KeepsCount`. -/
theorem size_agrees_iff (cs : List ZeroedCall) :
    Run.Always zeroedStep SizeAgrees empty cs ↔ Run.EachStep zeroedStep KeepsCount empty cs := by
  have hstart : ExactSize empty := ⟨[], lists_empty, rfl, by decide⟩
  have hexact : ∀ bl, ExactSize bl → SizeAgrees bl := by
    rintro bl ⟨xs, hlists, hsize, -⟩
    exact ⟨xs, hlists, hsize⟩
  have hstep : ∀ bl c, ExactSize bl → KeepsCount bl c → ExactSize (zeroedStep bl c) :=
    fun _ c h hc => h.step c hc
  have hnec : ∀ bl c, ExactSize bl → SizeAgrees (zeroedStep bl c) → KeepsCount bl c :=
    fun _ c h hc => .of_sizeAgrees h c hc
  exact Run.always_iff_eachStep hexact hstep hnec hstart cs

/-- Adding `/a` and `/b` and removing `/b` leaves one node and a size of two. -/
theorem size_disagrees_remove_pathB :
    ¬Run.Always zeroedStep SizeAgrees empty
      [⟨addOf pathA, addOf_zeroed _⟩, ⟨addOf pathB, addOf_zeroed _⟩,
        ⟨removeOf pathB, removeOf_zeroed _⟩] := by
  intro h
  obtain ⟨xs, hlists, hsize⟩ := h.exec
  have hA : pathA.bytes.length < pathMax := by decide
  have hB : pathB.bytes.length < pathMax := by decide
  simp only [Run.exec_cons, Run.exec_nil, zeroedStep, step, respond, run_addOf _ hA,
    run_addOf _ hB, run_removeOf _ hB] at hlists hsize
  have hend : Lists ⟨some 0, 2, [⟨pathA, none⟩, ⟨pathB, none⟩]⟩ [(0, pathA)] :=
    ⟨rfl, none, rfl, rfl⟩
  obtain rfl := Lists.unique hlists hend
  revert hsize
  decide

/-! ### Without overflow the counter is never behind -/

/-- An addition that succeeds has room for its increment. -/
def NoOverflow (bl : Blacklist) (c : Call) : Prop :=
  ∀ new, c.linking = some new → (respond bl c).1 = some 0 → bl.size + 1 < 2 ^ 31

/-- The lists that calls with zeroed nodes reach from the empty list while `blacklist_size` does
not overflow. -/
inductive Reachable : Blacklist → Prop
  | empty : Reachable Blacklist.empty
  | call {bl : Blacklist} {c : Call} (h : Reachable bl) (hz : c.Zeroed)
      (hover : NoOverflow bl c) : Reachable (step bl c)

/-- The chain ends, its paths are distinct, and `blacklist_size` is at least its length. -/
structure Counted (bl : Blacklist) (xs : List (ℕ × CStr)) : Prop where
  /-- The chain from `blacklist_head`. -/
  lists : bl.Lists xs
  /-- No path is listed twice. -/
  nodup : (xs.map Prod.snd).Nodup
  /-- The counter is not behind. -/
  length_le : (xs.length : ℤ) ≤ bl.size
  /-- The counter is in the range of an `int`. -/
  size_lt : bl.size < 2 ^ 31

/-- One call keeps the counter at or above the length. -/
theorem Counted.step {xs : List (ℕ × CStr)} (h : Counted bl xs) {c : Call} (hz : c.Zeroed)
    (hover : NoOverflow bl c) : ∃ xs', Counted (step bl c) xs' := by
  have heff := respond_effect h.lists c
  have hlen := h.length_le
  have hlt := h.size_lt
  rw [NoOverflow] at hover
  rw [Blacklist.step]
  generalize (respond bl c).1 = ret, (respond bl c).2 = bl' at heff hover ⊢
  cases heff with
  | kept _ _ _ hlists hsize _ =>
    exact ⟨xs, hlists, h.nodup, by rw [hsize]; exact hlen, by rw [hsize]; exact hlt⟩
  | @linked new _ hnew hnot hseg hsize _ =>
    have hroom := hover new hnew rfl
    rw [hz.next_eq_none hnew] at hseg
    rw [toInt32_of_mem (by omega) hroom] at hsize
    refine ⟨_, hseg, ?_, ?_, by omega⟩
    · rw [List.map_append, List.map_singleton, ← List.concat_eq_append]
      exact h.nodup.concat hnot
    · simp only [List.length_append, List.length_singleton]
      omega
  | @unlinked p ys zs a bl' hp hxs hnot hlists hsize _ =>
    subst hxs
    have hnd : ((ys ++ zs).map Prod.snd).Nodup := by
      refine h.nodup.sublist (List.Sublist.map _ ?_)
      exact List.Sublist.append (List.Sublist.refl ys) (List.sublist_cons_self _ zs)
    simp only [List.length_append, List.length_cons] at hlen
    -- the chain loses one node, and the counter at most one
    have hcount : bl'.size = bl.size ∨ bl'.size = bl.size - 1 := by
      split at hsize
      · exact Or.inr (hsize.trans (toInt32_of_mem (by omega) (by omega)))
      · exact Or.inl hsize
    refine ⟨ys ++ zs, hlists, hnd, ?_, by omega⟩
    simp only [List.length_append]
    omega

/-- In every reachable state the chain ends, its paths are distinct, and `blacklist_size` is at
least its length. -/
theorem Reachable.counted (h : Reachable bl) : ∃ xs, Counted bl xs := by
  induction h with
  | empty => exact ⟨[], lists_empty, List.nodup_nil, by simp [Blacklist.empty], by decide⟩
  | call _ hz hover ih =>
    obtain ⟨xs, hxs⟩ := ih
    exact hxs.step hz hover

end Blacklist

end StackReferenceMonitor
