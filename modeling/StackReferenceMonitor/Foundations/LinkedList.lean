import Mathlib.Data.List.Nodup
import Mathlib.Data.List.Perm.Basic

/-!
# Singly linked lists in memory

Memory is a list of cells, the address of a cell is its position, and `NULL` is `none`. A pointer
need not be valid: it may lie beyond the allocated cells. Cells are never freed, so an address
names one cell for ever.

## Main definitions

* `Cell`: a value and a pointer to the next cell.
* `LinkedList.Segment mem p xs q`: following `next` from `p` meets exactly the cells `xs`, given
  as pairs of an address and the value there, and arrives at `q`.
* `LinkedList.Chain mem p xs`: a segment that ends in `NULL`.
* `LinkedList.alloc`, `LinkedList.setNext`: the two writes to memory.

## Main results

* `LinkedList.Chain.unique`, `LinkedList.Chain.nodup`: a pointer determines its chain, and a chain
  that ends meets no cell twice;
* `LinkedList.Segment.congr`, with `LinkedList.Segment.alloc` and
  `LinkedList.Segment.setNext_of_notMem`: the frame rules;
* `LinkedList.Segment.redirect`: writing one `next` field replaces what follows it. Appending to a
  chain and unlinking from one are both of this shape.
-/

/-- A cell of a singly linked list. -/
@[ext]
structure Cell (α : Type*) where
  /-- The value the cell holds. -/
  val : α
  /-- The pointer to the next cell, `none` for `NULL`. -/
  next : Option ℕ
  deriving DecidableEq

namespace LinkedList

variable {α : Type*} {mem : List (Cell α)} {p q r : Option ℕ} {xs ys : List (ℕ × α)}

/-- A new cell, at the address `mem.length`. -/
def alloc (mem : List (Cell α)) (c : Cell α) : List (Cell α) :=
  mem ++ [c]

/-- `a->next = n`. -/
def setNext (mem : List (Cell α)) (a : ℕ) (n : Option ℕ) : List (Cell α) :=
  mem.modify a fun c => { c with next := n }

@[simp]
theorem length_alloc (mem : List (Cell α)) (c : Cell α) :
    (alloc mem c).length = mem.length + 1 := by
  simp [alloc]

theorem getElem?_alloc_of_lt {a : ℕ} (ha : a < mem.length) (c : Cell α) :
    (alloc mem c)[a]? = mem[a]? := by
  rw [alloc, List.getElem?_append_left ha]

@[simp]
theorem getElem?_alloc_self (mem : List (Cell α)) (c : Cell α) :
    (alloc mem c)[mem.length]? = some c := by
  simp [alloc]

theorem getElem?_setNext_of_ne {a b : ℕ} (h : b ≠ a) (n : Option ℕ) :
    (setNext mem b n)[a]? = mem[a]? := by
  simp [setNext, h]

theorem getElem?_setNext_self {a : ℕ} {c : Cell α} (h : mem[a]? = some c) (n : Option ℕ) :
    (setNext mem a n)[a]? = some { c with next := n } := by
  simp [setNext, h]

/-- Following `next` from `p` meets the cells `xs` and arrives at `q`. -/
def Segment (mem : List (Cell α)) : Option ℕ → List (ℕ × α) → Option ℕ → Prop
  | p, [], q => p = q
  | p, (a, v) :: xs, q => p = some a ∧ ∃ n, mem[a]? = some ⟨v, n⟩ ∧ Segment mem n xs q

/-- Following `next` from `p` meets the cells `xs` and ends in `NULL`. -/
def Chain (mem : List (Cell α)) (p : Option ℕ) (xs : List (ℕ × α)) : Prop :=
  Segment mem p xs none

@[simp]
theorem segment_nil : Segment mem p [] q ↔ p = q := Iff.rfl

@[simp]
theorem segment_cons {a : ℕ} {v : α} :
    Segment mem p ((a, v) :: xs) q ↔
      p = some a ∧ ∃ n, mem[a]? = some ⟨v, n⟩ ∧ Segment mem n xs q := Iff.rfl

@[simp]
theorem chain_nil : Chain mem p [] ↔ p = none := Iff.rfl

theorem chain_cons {a : ℕ} {v : α} :
    Chain mem p ((a, v) :: xs) ↔
      p = some a ∧ ∃ n, mem[a]? = some ⟨v, n⟩ ∧ Chain mem n xs := Iff.rfl

/-- Segments compose. -/
theorem segment_append :
    Segment mem p (xs ++ ys) r ↔ ∃ q, Segment mem p xs q ∧ Segment mem q ys r := by
  induction xs generalizing p with
  | nil => simp
  | cons x xs ih =>
    obtain ⟨a, v⟩ := x
    simp only [List.cons_append, segment_cons, ih]
    constructor
    · rintro ⟨hp, n, hn, q, hxs, hys⟩
      exact ⟨q, ⟨hp, n, hn, hxs⟩, hys⟩
    · rintro ⟨q, ⟨hp, n, hn, hxs⟩, hys⟩
      exact ⟨hp, n, hn, q, hxs, hys⟩

/-- A cell met by a segment is allocated, with the value the segment shows. -/
theorem Segment.getElem?_of_mem (h : Segment mem p xs q) {a : ℕ} {v : α} (hmem : (a, v) ∈ xs) :
    ∃ n, mem[a]? = some ⟨v, n⟩ := by
  obtain ⟨l, l', rfl⟩ := List.append_of_mem hmem
  obtain ⟨_, _, _, n, hn, _⟩ := segment_append.mp h
  exact ⟨n, hn⟩

theorem Segment.lt_of_mem (h : Segment mem p xs q) {a : ℕ} (hmem : a ∈ xs.map Prod.fst) :
    a < mem.length := by
  obtain ⟨⟨b, v⟩, hb, rfl⟩ := List.mem_map.mp hmem
  obtain ⟨n, hn⟩ := h.getElem?_of_mem hb
  exact (List.getElem?_eq_some_iff.mp hn).1

/-- Two segments of one pointer: one of them starts with the other. -/
theorem Segment.comparable (h : Segment mem p xs q) (h' : Segment mem p ys r) :
    (∃ zs, ys = xs ++ zs ∧ Segment mem q zs r) ∨ ∃ zs, xs = ys ++ zs ∧ Segment mem r zs q := by
  induction xs generalizing p ys with
  | nil =>
    obtain rfl := segment_nil.mp h
    exact Or.inl ⟨ys, rfl, h'⟩
  | cons x xs ih =>
    obtain ⟨a, v⟩ := x
    cases ys with
    | nil =>
      obtain rfl := segment_nil.mp h'
      exact Or.inr ⟨_, rfl, h⟩
    | cons y ys =>
      obtain ⟨b, w⟩ := y
      obtain ⟨rfl, n, hn, hxs⟩ := segment_cons.mp h
      obtain ⟨hab, m, hm, hys⟩ := segment_cons.mp h'
      obtain rfl : a = b := by simpa using hab
      obtain ⟨rfl, rfl⟩ : v = w ∧ n = m := by simpa [hn] using hm
      rcases ih hxs hys with ⟨zs, rfl, hzs⟩ | ⟨zs, rfl, hzs⟩
      · exact Or.inl ⟨zs, rfl, hzs⟩
      · exact Or.inr ⟨zs, rfl, hzs⟩

/-- From `NULL` nothing is met. -/
theorem Segment.eq_nil_of_none (h : Segment mem none xs q) : xs = [] ∧ q = none := by
  cases xs with
  | nil => exact ⟨rfl, (segment_nil.mp h).symm⟩
  | cons x xs => exact absurd (segment_cons.mp h).1 (by simp)

/-- A pointer determines its chain. -/
theorem Chain.unique (h : Chain mem p xs) (h' : Chain mem p ys) : xs = ys := by
  rcases Segment.comparable h h' with ⟨zs, rfl, hzs⟩ | ⟨zs, rfl, hzs⟩
  · simp [hzs.eq_nil_of_none.1]
  · simp [hzs.eq_nil_of_none.1]

/-- A segment that starts a chain: the rest of the chain is where the segment arrives. -/
theorem Chain.of_segment (h : Segment mem p xs q) (h' : Chain mem p ys) :
    ∃ zs, ys = xs ++ zs ∧ Chain mem q zs := by
  rcases Segment.comparable h h' with hzs | ⟨zs, rfl, hzs⟩
  · exact hzs
  · obtain ⟨rfl, rfl⟩ := hzs.eq_nil_of_none
    exact ⟨[], by simp, rfl⟩

/-- A chain meets no cell twice: a cell met again would have two chains of different lengths. -/
theorem Chain.nodup (h : Chain mem p xs) : (xs.map Prod.fst).Nodup := by
  induction xs generalizing p with
  | nil => simp
  | cons x xs ih =>
    obtain ⟨a, v⟩ := x
    obtain ⟨rfl, n, hn, hxs⟩ := chain_cons.mp h
    rw [List.map_cons, List.nodup_cons]
    refine ⟨fun ha => ?_, ih hxs⟩
    obtain ⟨⟨b, w⟩, hb, hba⟩ := List.mem_map.mp ha
    obtain rfl : b = a := hba
    obtain ⟨l, l', rfl⟩ := List.append_of_mem hb
    obtain ⟨q, -, hq⟩ := segment_append.mp hxs
    obtain ⟨rfl, -⟩ := segment_cons.mp hq
    have hlen := congrArg List.length (Chain.unique h hq)
    simp only [List.length_cons, List.length_append] at hlen
    omega

theorem Chain.length_le (h : Chain mem p xs) : xs.length ≤ mem.length := by
  have hsub : xs.map Prod.fst ⊆ List.range mem.length := by
    intro a ha
    exact List.mem_range.mpr (Segment.lt_of_mem h ha)
  simpa using (List.subperm_of_subset h.nodup hsub).length_le

/-- A chain starts at its first cell. -/
theorem Chain.eq_head? (h : Chain mem p xs) : p = xs.head?.map Prod.fst := by
  cases xs with
  | nil => exact h
  | cons x xs => exact (chain_cons.mp h).1

/-- A segment is kept by every write to memory that keeps the cells it meets. -/
theorem Segment.congr {mem' : List (Cell α)} (h : Segment mem p xs q)
    (hsame : ∀ a ∈ xs.map Prod.fst, mem'[a]? = mem[a]?) : Segment mem' p xs q := by
  induction xs generalizing p with
  | nil => exact h
  | cons x xs ih =>
    obtain ⟨a, v⟩ := x
    obtain ⟨rfl, n, hn, hxs⟩ := segment_cons.mp h
    have hrest := ih hxs fun b hb => hsame b (List.mem_cons_of_mem a hb)
    exact ⟨rfl, n, by rw [hsame a (by simp), hn], hrest⟩

/-- Allocation moves nothing. -/
theorem Segment.alloc (h : Segment mem p xs q) (c : Cell α) :
    Segment (LinkedList.alloc mem c) p xs q :=
  h.congr fun _ ha => getElem?_alloc_of_lt (h.lt_of_mem ha) c

/-- A write to a cell that a segment does not meet leaves the segment. -/
theorem Segment.setNext_of_notMem (h : Segment mem p xs q) {b : ℕ} (hb : b ∉ xs.map Prod.fst)
    (n : Option ℕ) : Segment (setNext mem b n) p xs q := by
  refine h.congr fun a ha => getElem?_setNext_of_ne ?_ n
  rintro rfl
  exact hb ha

/-- Writing the `next` field of the last cell of a segment redirects the segment. -/
theorem Segment.redirect {a : ℕ} {v : α} (h : Segment mem p (xs ++ [(a, v)]) q)
    (ha : a ∉ xs.map Prod.fst) (n : Option ℕ) :
    Segment (setNext mem a n) p (xs ++ [(a, v)]) n := by
  obtain ⟨r, hxs, rfl, m, hm, -⟩ := segment_append.mp h
  refine segment_append.mpr ⟨some a, hxs.setNext_of_notMem ha n, rfl, n, ?_, rfl⟩
  exact getElem?_setNext_self hm n

end LinkedList
