import Mathlib.Data.List.FinRange
import Mathlib.Data.List.Nodup
import Mathlib.Logic.Function.Basic

/-!
# Loops of stores

A loop that stores one word after another, the `i`-th at the address `addr i`. When the addresses
are pairwise distinct, each keeps its word, and all else is as it was. So a second loop that stores
the old words at the same addresses undoes the first.

## Main definitions

* `Stores.storeAll`: the loop.

## Main results

* `Stores.storeAll_apply`, `Stores.storeAll_of_ne`: the memory after the loop;
* `Stores.storeAll_storeAll`: storing the old words again gives back the memory.
-/

namespace Stores

variable {Addr Word : Type*} [DecidableEq Addr] {n : ℕ}

/-- `for (i = 0; i < n; i++) mem[addr[i]] = word[i]`. -/
def storeAll (mem : Addr → Word) (addr : Fin n → Addr) (word : Fin n → Word) : Addr → Word :=
  (List.finRange n).foldl (fun mem i => Function.update mem (addr i) (word i)) mem

/-- What some rounds of the loop do not store to is as it was. -/
theorem foldl_update_of_ne {addr : Fin n → Addr} {word : Fin n → Word} {a : Addr}
    {is : List (Fin n)} (h : ∀ i ∈ is, a ≠ addr i) (mem : Addr → Word) :
    is.foldl (fun mem i => Function.update mem (addr i) (word i)) mem a = mem a := by
  induction is generalizing mem with
  | nil => rfl
  | cons j is ih =>
    rw [List.foldl_cons, ih fun i hi => h i (List.mem_cons_of_mem j hi)]
    exact Function.update_of_ne (h j List.mem_cons_self) _ mem

/-- After some rounds, each at an address of its own, the words of these rounds are there. -/
theorem foldl_update_apply {addr : Fin n → Addr} (hinj : Function.Injective addr)
    {word : Fin n → Word} {i : Fin n} {is : List (Fin n)} (hnodup : is.Nodup) (hi : i ∈ is)
    (mem : Addr → Word) :
    is.foldl (fun mem i => Function.update mem (addr i) (word i)) mem (addr i) = word i := by
  induction is generalizing mem with
  | nil => exact absurd hi List.not_mem_nil
  | cons j is ih =>
    obtain ⟨hj, hnodup⟩ := List.nodup_cons.mp hnodup
    rw [List.foldl_cons]
    rcases List.mem_cons.mp hi with rfl | hi
    · -- no later round comes back to this address
      have hlater : ∀ k ∈ is, addr i ≠ addr k := by
        intro k hk heq
        obtain rfl := hinj heq
        exact hj hk
      rw [foldl_update_of_ne hlater]
      exact Function.update_self ..
    · exact ih hnodup hi _

/-- At the address of a round, the word of that round. -/
theorem storeAll_apply {addr : Fin n → Addr} (hinj : Function.Injective addr)
    (mem : Addr → Word) (word : Fin n → Word) (i : Fin n) :
    storeAll mem addr word (addr i) = word i :=
  foldl_update_apply hinj (List.nodup_finRange n) (List.mem_finRange i) mem

/-- At another address, what was there. -/
theorem storeAll_of_ne {addr : Fin n → Addr} {a : Addr} (h : ∀ i, a ≠ addr i)
    (mem : Addr → Word) (word : Fin n → Word) : storeAll mem addr word a = mem a :=
  foldl_update_of_ne (fun i _ => h i) mem

/-- Storing the old words at the same addresses undoes the stores. -/
theorem storeAll_storeAll {addr : Fin n → Addr} (hinj : Function.Injective addr)
    {mem : Addr → Word} {word old : Fin n → Word} (hold : ∀ i, mem (addr i) = old i) :
    storeAll (storeAll mem addr word) addr old = mem := by
  ext a
  by_cases h : ∃ i, a = addr i
  · obtain ⟨i, rfl⟩ := h
    rw [storeAll_apply hinj, hold i]
  · push Not at h
    rw [storeAll_of_ne h, storeAll_of_ne h]

end Stores
