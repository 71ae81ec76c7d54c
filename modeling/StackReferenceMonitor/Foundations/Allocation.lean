import Mathlib.Algebra.Order.Group.Multiset
import StackReferenceMonitor.Foundations.Traced

/-!
# What a program does to its heap

The heap is the multiset of the blocks that are allocated, each known by the pointer that its
allocation was stored in. A program allocates and frees; to free what is not allocated is an error,
and so is to free a pointer that never came from an allocation.

A block that a computation needs is in the heap it starts from, and the rest of the heap does not
matter (`HeapOp.settle_add`). So what a computation costs is said once, for a heap with nothing else
in it, and what a run costs is the sum.

## Main definitions

* `HeapOp`, `HeapOp.settle`: the operations, and the heap after some of them.
* `HeapOp.Moves`, `HeapOp.Costs`: what operations make of some blocks, and of none.

## Main results

* `HeapOp.settle_add`: the rest of the heap stays as it is;
* `HeapOp.Moves.bind`: two computations, one after the other.
-/

/-- An operation on the heap. -/
inductive HeapOp (κ : Type) where
  /-- A block is allocated. -/
  | alloc (k : κ)
  /-- A block is freed. -/
  | free (k : κ)
  /-- A pointer is freed that no allocation has returned. -/
  | wild

namespace HeapOp

variable {κ : Type} [DecidableEq κ]

/-- The heap after an operation, unless it is an error. -/
def apply (h : Multiset κ) : HeapOp κ → Option (Multiset κ)
  | alloc k => some (k ::ₘ h)
  | free k => if k ∈ h then some (h.erase k) else none
  | wild => none

/-- The heap after some operations, unless one of them is an error. -/
def settle (h : Multiset κ) : List (HeapOp κ) → Option (Multiset κ)
  | [] => some h
  | op :: ops => (op.apply h).bind fun h' => settle h' ops

variable {h g : Multiset κ} {ops ops' : List (HeapOp κ)} {k : κ}

@[simp]
theorem settle_nil : settle h [] = some h := rfl

@[simp]
theorem settle_alloc : settle h (.alloc k :: ops) = settle (k ::ₘ h) ops := rfl

/-- To free the block that is on top. -/
@[simp]
theorem settle_free : settle (k ::ₘ h) (.free k :: ops) = settle h ops := by
  simp [settle, apply]

@[simp]
theorem settle_wild : settle h (.wild :: ops) = none := rfl

theorem settle_append : settle h (ops ++ ops') = (settle h ops).bind fun h' => settle h' ops' := by
  induction ops generalizing h with
  | nil => rfl
  | cons op ops ih =>
    simp only [List.cons_append, settle, Option.bind_assoc]
    congr 1
    funext h'
    exact ih

/-- The operations do not touch the rest of the heap. -/
theorem settle_add {h' : Multiset κ} (hops : settle h ops = some h') :
    settle (h + g) ops = some (h' + g) := by
  induction ops generalizing h with
  | nil => exact congrArg some (congrArg (· + g) (Option.some.inj hops))
  | cons op ops ih =>
    obtain ⟨h₁, hop, hrest⟩ := Option.bind_eq_some_iff.mp hops
    have hframe : op.apply (h + g) = some (h₁ + g) := by
      cases op with
      | alloc k =>
        obtain rfl : k ::ₘ h = h₁ := Option.some.inj hop
        simp [apply]
      | free k =>
        simp only [apply] at hop ⊢
        split at hop
        · next hk =>
          obtain rfl := Option.some.inj hop
          rw [if_pos (Multiset.mem_add.mpr (Or.inl hk)), Multiset.erase_add_left_pos g hk]
        · exact absurd hop (by simp)
      | wild => exact absurd hop (by simp [apply])
    rw [settle, hframe, Option.bind_some, ih hrest]

/-- After a pointer was freed that no allocation has returned, there is no heap. -/
theorem settle_of_wild_mem (hwild : .wild ∈ ops) : settle h ops = none := by
  obtain ⟨before, after, rfl⟩ := List.append_of_mem hwild
  rw [settle_append]
  cases settle h before <;> rfl

/-- From the blocks `take`, the operations lead to the blocks `give`. -/
def Moves (take : Multiset κ) (ops : List (HeapOp κ)) (give : Multiset κ) : Prop :=
  settle take ops = some give

/-- What the operations leave behind that was not there. -/
abbrev Costs (ops : List (HeapOp κ)) (cost : Multiset κ) : Prop :=
  Moves 0 ops cost

theorem Moves.frame {take give : Multiset κ} (hmoves : Moves take ops give) (g : Multiset κ) :
    Moves (take + g) ops (give + g) :=
  settle_add hmoves

theorem Moves.append {take mid give : Multiset κ} (hmoves : Moves take ops mid)
    (hmoves' : Moves mid ops' give) : Moves take (ops ++ ops') give := by
  rw [Moves, settle_append, hmoves, Option.bind_some]
  exact hmoves'

theorem costs_nil : Costs ([] : List (HeapOp κ)) 0 := rfl

/-- The costs of operations, wherever they start. -/
theorem Costs.moves {cost : Multiset κ} (hcosts : Costs ops cost) (h : Multiset κ) :
    Moves h ops (cost + h) := by
  simpa using Moves.frame hcosts h

/-- Two computations, one after the other: the second starts from what the first has left. If the
first stops, what it has left stays. -/
theorem Moves.bind {α β : Type} {x : Traced (HeapOp κ) α} {f : α → Traced (HeapOp κ) β}
    {take mid give : Multiset κ} (hx : Moves take x.events mid)
    (hf : ∀ a, x.result = some a → Moves mid (f a).events give)
    (hstop : x.result = none → mid = give) : Moves take (x >>= f).events give := by
  cases hresult : x.result with
  | none =>
    rw [Traced.bind_of_stop hresult, ← hstop hresult]
    exact hx
  | some a =>
    rw [Traced.bind_of_result hresult]
    exact hx.append (hf a hresult)

end HeapOp
