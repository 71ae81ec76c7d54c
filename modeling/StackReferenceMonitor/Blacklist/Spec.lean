import StackReferenceMonitor.Blacklist.Defs

/-!
# What the blacklist functions do on a chain

`bl.Lists xs` says that following `next` from `blacklist_head` meets the nodes `xs`, pairs of an
address and a path, and then `NULL`. On such a list each locked section returns, and this module
says what it returns and which pointers it writes. Nothing here assumes that the paths are
distinct or that a new node's `next` field is `NULL`.

## Main results

* `addLocked_of_mem`, `addLocked_nil`, `addLocked_concat`: a duplicate, the first node, and a node
  after the last one;
* `removeLocked_of_notMem`, `removeLocked_cons`, `removeLocked_inner`: a path that is not there,
  the head, and a node after the head;
* `addToBlacklist_failed`, `removeFromBlacklist_failed`: a call that fails links and unlinks
  nothing.
-/

namespace StackReferenceMonitor

namespace Blacklist

open LinkedList

variable {bl : Blacklist} {xs ys zs : List (ℕ × CStr)} {p : CStr} {new : BlacklistNode}
  {nodes : List BlacklistNode}

/-- The chain from `blacklist_head` meets the nodes `xs`. -/
def Lists (bl : Blacklist) (xs : List (ℕ × CStr)) : Prop :=
  Chain bl.nodes bl.head xs

@[simp]
theorem lists_empty : empty.Lists [] := rfl

theorem Lists.unique (h : bl.Lists xs) (h' : bl.Lists ys) : xs = ys :=
  Chain.unique h h'

/-! ### `add_to_blacklist` -/

/-- On a chain that has the path, the loop or the comparison after it finds it. -/
theorem addScan_of_mem {curr fuel : ℕ} (h : Chain nodes (some curr) xs)
    (hfuel : xs.length ≤ fuel) (hmem : p ∈ xs.map Prod.snd) :
    addScan nodes p fuel curr = some none := by
  induction xs generalizing curr fuel with
  | nil => exact absurd hmem (by simp)
  | cons x xs ih =>
    obtain ⟨a, v⟩ := x
    obtain ⟨hcurr, next, hnode, hxs⟩ := chain_cons.mp h
    obtain rfl : curr = a := by simpa using hcurr
    obtain ⟨fuel, rfl⟩ : ∃ k, fuel = k + 1 := ⟨fuel - 1, by simp at hfuel; omega⟩
    by_cases hv : v = p
    · -- found here, in the loop or after it
      cases next <;> simp [addScan, hnode, hv]
    · have hmem' : p ∈ xs.map Prod.snd := by
        rcases List.mem_cons.mp hmem with heq | hmem'
        · exact absurd heq.symm hv
        · exact hmem'
      cases next with
      | none =>
        -- the last node: the path is not behind it
        obtain rfl := (Segment.eq_nil_of_none hxs).1
        exact absurd hmem' (by simp)
      | some next =>
        have hrec := ih hxs (by simpa using hfuel) hmem'
        simp [addScan, hnode, hv, hrec]

/-- On a chain that does not have the path, the loop ends at the last node. -/
theorem addScan_of_notMem {curr fuel l : ℕ} {v : CStr}
    (h : Chain nodes (some curr) (xs ++ [(l, v)])) (hfuel : xs.length < fuel)
    (hnot : p ∉ (xs ++ [(l, v)]).map Prod.snd) :
    addScan nodes p fuel curr = some (some l) := by
  induction xs generalizing curr fuel with
  | nil =>
    obtain ⟨hcurr, next, hnode, hnext⟩ := chain_cons.mp h
    obtain rfl : curr = l := by simpa using hcurr
    obtain rfl : next = none := hnext
    obtain ⟨fuel, rfl⟩ : ∃ k, fuel = k + 1 := ⟨fuel - 1, by simp at hfuel; omega⟩
    have hv : v ≠ p := by
      rintro rfl
      simp at hnot
    simp [addScan, hnode, hv]
  | cons x xs ih =>
    obtain ⟨a, w⟩ := x
    obtain ⟨hcurr, next, hnode, hxs⟩ := chain_cons.mp h
    obtain rfl : curr = a := by simpa using hcurr
    obtain ⟨fuel, rfl⟩ : ∃ k, fuel = k + 1 := ⟨fuel - 1, by simp at hfuel; omega⟩
    simp only [List.cons_append, List.map_cons, List.mem_cons, not_or] at hnot
    cases next with
    | none =>
      have hnil := (Segment.eq_nil_of_none hxs).1
      simp at hnil
    | some next =>
      have hrec := ih hxs (by simpa using hfuel) hnot.2
      simp [addScan, hnode, Ne.symm hnot.1, hrec]

/-- A path that is on the list already is refused, and only the new node's memory is spent. -/
theorem addLocked_of_mem (h : bl.Lists xs) (hmem : new.val ∈ xs.map Prod.snd) :
    addLocked bl new = some (-EEXIST, { bl with nodes := alloc bl.nodes new }) := by
  cases xs with
  | nil => exact absurd hmem (by simp)
  | cons x xs =>
    obtain ⟨a, v⟩ := x
    have halloc : Chain (alloc bl.nodes new) bl.head ((a, v) :: xs) := Segment.alloc h new
    obtain ⟨hhead, next, hnode, hxs⟩ := chain_cons.mp halloc
    cases next with
    | none =>
      obtain rfl := (Segment.eq_nil_of_none hxs).1
      have hv : v = new.val := by simpa [eq_comm] using hmem
      simp [addLocked, hhead, hnode, hv]
    | some next =>
      rw [hhead] at halloc
      have hscan := addScan_of_mem halloc halloc.length_le hmem
      simp only [length_alloc] at hscan
      simp [addLocked, hhead, hnode, hscan]

/-- The first node becomes the head. -/
theorem addLocked_nil (h : bl.Lists []) :
    addLocked bl new = some (0, {
      head := some bl.nodes.length
      size := toInt32 (bl.size + 1)
      nodes := alloc bl.nodes new }) := by
  have hhead : bl.head = none := h
  simp [addLocked, hhead]

/-- A new path is linked after the last node. -/
theorem addLocked_concat {l : ℕ} {v : CStr} (h : bl.Lists (xs ++ [(l, v)]))
    (hnot : new.val ∉ (xs ++ [(l, v)]).map Prod.snd) :
    addLocked bl new = some (0, { bl with
      size := toInt32 (bl.size + 1)
      nodes := setNext (alloc bl.nodes new) l (some bl.nodes.length) }) := by
  have halloc : Chain (alloc bl.nodes new) bl.head (xs ++ [(l, v)]) := Segment.alloc h new
  -- the source treats a list of one node apart from longer ones
  cases xs with
  | nil =>
    obtain ⟨hhead, next, hnode, hnext⟩ := chain_cons.mp halloc
    obtain rfl : next = none := hnext
    have hv : v ≠ new.val := by
      rintro rfl
      simp at hnot
    simp [addLocked, hhead, hnode, hv]
  | cons x xs =>
    obtain ⟨a, w⟩ := x
    obtain ⟨hhead, next, hnode, hxs⟩ := chain_cons.mp halloc
    cases next with
    | none =>
      have hnil := (Segment.eq_nil_of_none hxs).1
      simp at hnil
    | some next =>
      rw [hhead] at halloc
      have hfuel : ((a, w) :: xs).length < (alloc bl.nodes new).length := by
        have hle := halloc.length_le
        simp only [List.length_append, List.length_singleton] at hle
        omega
      have hscan := addScan_of_notMem halloc hfuel hnot
      simp only [length_alloc] at hscan
      simp [addLocked, hhead, hnode, hscan]

/-! ### `remove_from_blacklist` -/

/-- On a chain that does not have the path, the loop runs to its end. -/
theorem removeScan_of_notMem {fuel : ℕ} (prev : Option ℕ) {curr : Option ℕ}
    (h : Chain nodes curr xs) (hfuel : xs.length < fuel) (hnot : p ∉ xs.map Prod.snd) :
    ∃ last, removeScan nodes p fuel prev curr = some (last, none) := by
  induction xs generalizing prev curr fuel with
  | nil =>
    obtain rfl := chain_nil.mp h
    obtain ⟨fuel, rfl⟩ : ∃ k, fuel = k + 1 := ⟨fuel - 1, by simp at hfuel; omega⟩
    exact ⟨prev, rfl⟩
  | cons x xs ih =>
    obtain ⟨a, v⟩ := x
    obtain ⟨rfl, next, hnode, hxs⟩ := chain_cons.mp h
    obtain ⟨fuel, rfl⟩ : ∃ k, fuel = k + 1 := ⟨fuel - 1, by simp at hfuel; omega⟩
    simp only [List.map_cons, List.mem_cons, not_or] at hnot
    obtain ⟨last, hrec⟩ := ih (some a) hxs (by simpa using hfuel) hnot.2
    exact ⟨last, by simp [removeScan, hnode, Ne.symm hnot.1, hrec]⟩

/-- On a chain that has the path after the cell `q`, the loop stops there with `prev` at `q`. -/
theorem removeScan_of_inner {fuel q a : ℕ} (prev : Option ℕ) {curr : Option ℕ} {u : CStr}
    (h : Chain nodes curr (ys ++ (q, u) :: (a, p) :: zs)) (hfuel : ys.length + 1 < fuel)
    (hnot : p ∉ (ys ++ [(q, u)]).map Prod.snd) :
    removeScan nodes p fuel prev curr = some (some q, some a) := by
  induction ys generalizing prev curr fuel with
  | nil =>
    obtain ⟨rfl, next, hq, hrest⟩ := chain_cons.mp h
    obtain ⟨rfl, m, ha, -⟩ := chain_cons.mp hrest
    -- two rounds: one over `q`, and one that stops at `a`
    obtain ⟨fuel, rfl⟩ : ∃ k, fuel = k + 2 := ⟨fuel - 2, by simp at hfuel; omega⟩
    have hu : u ≠ p := by
      rintro rfl
      simp at hnot
    simp [removeScan, hq, ha, hu]
  | cons x ys ih =>
    obtain ⟨b, w⟩ := x
    obtain ⟨rfl, next, hb, hrest⟩ := chain_cons.mp h
    obtain ⟨fuel, rfl⟩ : ∃ k, fuel = k + 1 := ⟨fuel - 1, by omega⟩
    simp only [List.cons_append, List.map_cons, List.mem_cons, not_or] at hnot
    have hrec := ih (some b) hrest (by simp at hfuel; omega) hnot.2
    simp [removeScan, hb, Ne.symm hnot.1, hrec]

/-- A path that is not on the list is not found, and nothing changes. -/
theorem removeLocked_of_notMem (h : bl.Lists xs) (hnot : p ∉ xs.map Prod.snd) :
    removeLocked bl p = some (-EINVAL, bl) := by
  cases xs with
  | nil =>
    have hhead : bl.head = none := h
    simp [removeLocked, hhead]
  | cons x xs =>
    obtain ⟨a, v⟩ := x
    obtain ⟨hhead, next, hnode, -⟩ := chain_cons.mp h
    have hv : v ≠ p := by
      rintro rfl
      simp at hnot
    have hfuel : ((a, v) :: xs).length < bl.nodes.length + 1 :=
      Nat.lt_succ_of_le (Chain.length_le h)
    rw [Lists, hhead] at h
    obtain ⟨last, hscan⟩ := removeScan_of_notMem none h hfuel hnot
    simp [removeLocked, hhead, hnode, hv, hscan]

/-- The head is unlinked by moving `blacklist_head`, and the size is decremented. -/
theorem removeLocked_cons {a : ℕ} (h : bl.Lists ((a, p) :: zs)) :
    ∃ next, bl.nodes[a]? = some ⟨p, next⟩ ∧ Chain bl.nodes next zs ∧
      removeLocked bl p =
        some (0, { bl with head := next, size := toInt32 (bl.size - 1) }) := by
  obtain ⟨hhead, next, hnode, hzs⟩ := chain_cons.mp h
  exact ⟨next, hnode, hzs, by simp [removeLocked, hhead, hnode]⟩

/-- Another node is unlinked by writing the `next` field before it, and the size stays. -/
theorem removeLocked_inner {q a : ℕ} {u : CStr} (h : bl.Lists (ys ++ (q, u) :: (a, p) :: zs))
    (hnot : p ∉ (ys ++ [(q, u)]).map Prod.snd) :
    ∃ next, bl.nodes[a]? = some ⟨p, next⟩ ∧ Chain bl.nodes next zs ∧
      removeLocked bl p = some (0, { bl with nodes := setNext bl.nodes q next }) := by
  obtain ⟨_, _, _, _, _, hrest⟩ := segment_append.mp h
  obtain ⟨_, next, ha, hzs⟩ := hrest
  refine ⟨next, ha, hzs, ?_⟩
  have hfuel : ys.length + 1 < bl.nodes.length + 1 := by
    have hle := Chain.length_le h
    simp only [List.length_append, List.length_cons] at hle
    omega
  -- the head is looked at before the loop, which then looks at it again
  obtain ⟨b, node, hb, hnode, hne⟩ :
      ∃ b node, bl.head = some b ∧ bl.nodes[b]? = some node ∧ node.val ≠ p := by
    cases ys with
    | nil =>
      obtain ⟨hhead, m, hq, -⟩ := chain_cons.mp h
      refine ⟨q, _, hhead, hq, ?_⟩
      rintro rfl
      simp at hnot
    | cons y ys =>
      obtain ⟨b, w⟩ := y
      obtain ⟨hhead, m, hb, -⟩ := chain_cons.mp h
      refine ⟨b, _, hhead, hb, ?_⟩
      rintro rfl
      simp at hnot
  rw [Lists, hb] at h
  have hscan := removeScan_of_inner none h hfuel hnot
  simp [removeLocked, hb, hnode, hne, hscan, ha]

/-- The first node with a given path. -/
theorem exists_first_of_mem (hmem : p ∈ xs.map Prod.snd) :
    ∃ ys a zs, xs = ys ++ (a, p) :: zs ∧ p ∉ ys.map Prod.snd := by
  obtain ⟨ps, qs, hxs, hnot⟩ := List.eq_append_cons_of_mem hmem
  obtain ⟨ys, rest, rfl, rfl, hrest⟩ := List.map_eq_append_iff.mp hxs
  obtain ⟨⟨a, v⟩, zs, rfl, rfl, rfl⟩ := List.map_eq_cons_iff.mp hrest
  exact ⟨ys, a, zs, rfl, hnot⟩

/-! ### Calls that fail

These hold of any blacklist, whether or not its nodes form a chain. -/

/-- An addition that fails under the lock leaves its node allocated, and nothing linked. -/
theorem addLocked_failed {ret : ℤ} {bl' : Blacklist} (h : addLocked bl new = some (ret, bl'))
    (hret : ret ≠ 0) : bl' = { bl with nodes := alloc bl.nodes new } := by
  unfold addLocked at h
  split at h
  · exact absurd (congrArg Prod.fst (Option.some.inj h)).symm hret
  · simp only [Option.bind_eq_bind, Option.bind_eq_some_iff] at h
    obtain ⟨node, -, h⟩ := h
    split at h
    · split_ifs at h
      · exact (congrArg Prod.snd (Option.some.inj h)).symm
      · exact absurd (congrArg Prod.fst (Option.some.inj h)).symm hret
    · obtain ⟨found, -, h⟩ := Option.bind_eq_some_iff.mp h
      split at h
      · exact (congrArg Prod.snd (Option.some.inj h)).symm
      · exact absurd (congrArg Prod.fst (Option.some.inj h)).symm hret

/-- An addition that fails changes nothing, but for a node it may leave allocated. -/
theorem addToBlacklist_failed {env : AddEnv} {path : ℕ} {ret : ℤ} {bl' : Blacklist}
    (h : addToBlacklist env path bl = some (ret, bl')) (hret : ret ≠ 0) :
    bl' = bl ∨ ∃ new, bl' = { bl with nodes := alloc bl.nodes new } := by
  unfold addToBlacklist at h
  split at h
  · exact Or.inl (congrArg Prod.snd (Option.some.inj h)).symm
  · dsimp only at h
    split at h
    · exact Or.inl (congrArg Prod.snd (Option.some.inj h)).symm
    · split at h
      · exact Or.inl (congrArg Prod.snd (Option.some.inj h)).symm
      · split at h
        · exact Or.inr ⟨_, addLocked_failed h hret⟩
        · exact absurd h (by simp)

/-- A removal that fails under the lock changes nothing. -/
theorem removeLocked_failed {ret : ℤ} {bl' : Blacklist} (h : removeLocked bl p = some (ret, bl'))
    (hret : ret ≠ 0) : bl' = bl := by
  unfold removeLocked at h
  split at h
  · exact (congrArg Prod.snd (Option.some.inj h)).symm
  · simp only [Option.bind_eq_bind, Option.bind_eq_some_iff] at h
    obtain ⟨node, -, h⟩ := h
    split_ifs at h
    · exact absurd (congrArg Prod.fst (Option.some.inj h)).symm hret
    · obtain ⟨⟨prev, found⟩, -, h⟩ := Option.bind_eq_some_iff.mp h
      split at h
      · exact (congrArg Prod.snd (Option.some.inj h)).symm
      · obtain ⟨prev, -, h⟩ := Option.bind_eq_some_iff.mp h
        obtain ⟨node, -, h⟩ := Option.bind_eq_some_iff.mp h
        exact absurd (congrArg Prod.fst (Option.some.inj h)).symm hret

/-- A removal that fails changes nothing. -/
theorem removeFromBlacklist_failed {env : RemoveEnv} {path : ℕ} {ret : ℤ} {bl' : Blacklist}
    (h : removeFromBlacklist env path bl = some (ret, bl')) (hret : ret ≠ 0) : bl' = bl := by
  unfold removeFromBlacklist at h
  split at h
  · exact (congrArg Prod.snd (Option.some.inj h)).symm
  · dsimp only at h
    split at h
    · exact (congrArg Prod.snd (Option.some.inj h)).symm
    · exact removeLocked_failed h hret

end Blacklist

end StackReferenceMonitor
