import Mathlib.Algebra.BigOperators.Fin
import Mathlib.Data.Set.Basic
import StackReferenceMonitor.Foundations.Locks
import StackReferenceMonitor.Foundations.Runs

/-!
# Threads that contend for locks

Threads with lists of lock operations, interleaved in any order. An acquisition waits until the lock
is free, and a release never waits. Between the acquisition of a lock and its release a thread does
no other operation, so that threads wait in no circle. A thread may stop with a lock in its hands.

## Main definitions

* `Bracketed`: the operations of such a thread.
* `Contention.State`, `Contention.step`: the threads and the holders of the locks.

## Main results

* `Contention.State.Ok.exclusive`: one thread at a time is between the acquisition and the release;
* `Contention.State.Ok.waits`: when no thread can go on, those that are not done wait for threads
  that have stopped;
* `Contention.length_le`: a run of steps ends.
-/

/-- Operations in which a lock is released right after it is acquired, or never because the thread
stops there. The locks of `U` are released only, and the locks of `S` are those at which a thread
may stop. -/
inductive Bracketed {L : Type} (U S : Set L) : List (LockOp L) → Prop
  /-- No operation. -/
  | nil : Bracketed U S []
  /-- The thread stops with the lock. -/
  | stop (l : L) : l ∉ U → l ∈ S → Bracketed U S [.acquire l]
  /-- A section under the lock. -/
  | locked (l : L) (ops : List (LockOp L)) : l ∉ U → Bracketed U S ops →
      Bracketed U S (.acquire l :: .release l :: ops)
  /-- A release of a lock that no thread acquires. -/
  | unused (l : L) (ops : List (LockOp L)) : l ∈ U → Bracketed U S ops →
      Bracketed U S (.release l :: ops)

theorem Bracketed.mono {L : Type} {U S S' : Set L} (hS : S ⊆ S') {ops : List (LockOp L)}
    (h : Bracketed U S ops) : Bracketed U S' ops := by
  induction h with
  | nil => exact .nil
  | stop l hl hstop => exact .stop l hl (hS hstop)
  | locked l ops hl _ ih => exact .locked l ops hl ih
  | unused l ops hl _ ih => exact .unused l ops hl ih

namespace Contention

variable {ι L : Type}

/-- The threads and the locks. -/
structure State (ι L : Type) where
  /-- What each thread still has to do. -/
  todo : ι → List (LockOp L)
  /-- Who holds each lock. -/
  holder : L → Option ι

/-- All threads at their beginning, and all locks free. -/
def init (todo : ι → List (LockOp L)) : State ι L :=
  ⟨todo, fun _ => none⟩

/-- The thread can take its next step. -/
def State.Enabled (s : State ι L) (i : ι) : Prop :=
  match s.todo i with
  | [] => False
  | .acquire l :: _ => s.holder l = none
  | .release _ :: _ => True

/-! ### What threads hold -/

/-- Where a thread stands, with the locks that it holds: outside of a section, within one, or
stopped in one. -/
inductive Standing (U S : Set L) (held : Set L) : List (LockOp L) → Prop
  /-- The thread holds no lock. -/
  | outside (ops : List (LockOp L)) : held = ∅ → Bracketed U S ops → Standing U S held ops
  /-- The thread is about to release the one it holds. -/
  | inside (l : L) (ops : List (LockOp L)) : held = {l} → l ∉ U → Bracketed U S ops →
      Standing U S held (.release l :: ops)
  /-- The thread has stopped. -/
  | stopped (l : L) : held = {l} → l ∉ U → l ∈ S → Standing U S held []

/-- The locks that a thread holds. -/
def held (holder : L → Option ι) (i : ι) : Set L :=
  {l | holder l = some i}

/-- All threads stand well. -/
def State.Ok (U : Set L) (S : ι → Set L) (s : State ι L) : Prop :=
  (∀ i, Standing U (S i) (held s.holder i) (s.todo i)) ∧ ∀ l ∈ U, s.holder l = none

/-! ### Exclusion and progress -/

section Standing

variable {U : Set L} {S : ι → Set L} {s : State ι L}

/-- Before the first step. -/
theorem ok_init {todo : ι → List (LockOp L)} (h : ∀ i, Bracketed U (S i) (todo i)) :
    (init todo).Ok U S := by
  refine ⟨fun i => .outside _ ?_ (h i), fun _ _ => rfl⟩
  ext l
  simp [held, init]

/-- Two threads are not in sections of one lock at a time. -/
theorem State.Ok.exclusive (h : s.Ok U S) {i j : ι} {l : L} {ops ops' : List (LockOp L)}
    (hl : l ∉ U) (hi : s.todo i = .release l :: ops) (hj : s.todo j = .release l :: ops') :
    i = j := by
  have hholder : ∀ {i ops}, s.todo i = .release l :: ops → s.holder l = some i := by
    intro i ops hi
    have hstands := h.1 i
    rw [hi] at hstands
    cases hstands with
    | outside _ _ hbracketed =>
      cases hbracketed with
      | unused _ _ hunused => exact absurd hunused hl
    | inside _ _ hheld => exact (hheld ▸ Set.mem_singleton l : l ∈ held s.holder i)
  exact Option.some.inj ((hholder hi).symm.trans (hholder hj))

/-- When no thread can go on, one that is not done waits for one that has stopped. -/
theorem State.Ok.waits (h : s.Ok U S) (hstuck : ∀ i, ¬s.Enabled i) (i : ι) :
    s.todo i = [] ∨ ∃ l ops j, s.todo i = .acquire l :: ops ∧ s.holder l = some j ∧
      s.todo j = [] ∧ l ∈ S j := by
  have hnot := hstuck i
  cases htodo : s.todo i with
  | nil => exact Or.inl rfl
  | cons op ops =>
    rw [State.Enabled, htodo] at hnot
    cases op with
    | release l => exact absurd trivial hnot
    | acquire l =>
      obtain ⟨j, hj⟩ := Option.ne_none_iff_exists'.mp hnot
      have hheld : l ∈ held s.holder j := hj
      refine Or.inr ⟨l, ops, j, rfl, hj, ?_⟩
      have hstands := h.1 j
      generalize hops : s.todo j = ops' at hstands
      cases hstands with
      | outside _ hempty =>
        rw [hempty] at hheld
        exact absurd hheld (Set.notMem_empty l)
      | inside l' ops' =>
        -- it could go on
        have hnot := hstuck j
        rw [State.Enabled, hops] at hnot
        exact absurd trivial hnot
      | stopped l' hl' _ hstop =>
        rw [hl'] at hheld
        obtain rfl : l = l' := hheld
        exact ⟨rfl, hstop⟩

/-- Where all threads are done and none has stopped, all locks are free. -/
theorem State.Ok.free (h : s.Ok U fun _ => ∅) (hdone : ∀ i, s.todo i = []) (l : L) :
    s.holder l = none := by
  by_contra hholder
  obtain ⟨i, hi⟩ := Option.ne_none_iff_exists'.mp hholder
  have hheld : l ∈ held s.holder i := hi
  have hstands := h.1 i
  rw [hdone i] at hstands
  cases hstands with
  | outside _ hempty =>
    rw [hempty] at hheld
    exact absurd hheld (Set.notMem_empty l)
  | stopped _ _ _ hstop => exact hstop

end Standing

/-! ### Steps -/

variable [DecidableEq ι] [DecidableEq L]

/-- The next step of a thread. A thread that has to wait stays where it is. -/
def step (s : State ι L) (i : ι) : State ι L :=
  match s.todo i with
  | [] => s
  | .acquire l :: ops =>
    if s.holder l = none then
      ⟨Function.update s.todo i ops, Function.update s.holder l (some i)⟩
    else s
  | .release l :: ops => ⟨Function.update s.todo i ops, Function.update s.holder l none⟩

section Steps

variable {U : Set L} {S : ι → Set L} {s : State ι L} {i : ι} {l : L} {ops : List (LockOp L)}

/-- What a step does. -/
theorem step_of_wait (h : s.todo i = .acquire l :: ops) (hholder : s.holder l ≠ none) :
    step s i = s := by
  rw [step, h]
  exact if_neg hholder

theorem step_of_acquire (h : s.todo i = .acquire l :: ops) (hholder : s.holder l = none) :
    step s i = ⟨Function.update s.todo i ops, Function.update s.holder l (some i)⟩ := by
  rw [step, h]
  exact if_pos hholder

theorem step_of_release (h : s.todo i = .release l :: ops) :
    step s i = ⟨Function.update s.todo i ops, Function.update s.holder l none⟩ := by
  rw [step, h]

theorem step_of_nil (h : s.todo i = []) : step s i = s := by
  rw [step, h]

omit [DecidableEq ι]

theorem held_acquire_self (holder : L → Option ι) (l : L) (i : ι) :
    held (Function.update holder l (some i)) i = insert l (held holder i) := by
  ext l'
  by_cases hl : l' = l
  · simp [held, hl]
  · simp [held, hl]

theorem held_acquire_of_ne {holder : L → Option ι} (h : holder l = none) {i j : ι} (hj : j ≠ i) :
    held (Function.update holder l (some i)) j = held holder j := by
  ext l'
  by_cases hl : l' = l
  · simp [held, hl, h, hj.symm]
  · simp [held, hl]

theorem held_release (holder : L → Option ι) (l : L) (j : ι) :
    held (Function.update holder l none) j = held holder j \ {l} := by
  ext l'
  by_cases hl : l' = l
  · simp [held, hl]
  · simp [held, hl]

variable [DecidableEq ι]

omit [DecidableEq L] in
/-- Where the other threads stand does not change. -/
theorem State.Ok.update (h : s.Ok U S) {holder : L → Option ι}
    (hunused : ∀ l ∈ U, holder l = none)
    (hothers : ∀ j, j ≠ i → held holder j = held s.holder j)
    (hi : Standing U (S i) (held holder i) ops) :
    State.Ok U S ⟨Function.update s.todo i ops, holder⟩ := by
  refine ⟨fun j => ?_, hunused⟩
  dsimp only
  by_cases hj : j = i
  · subst hj
    rw [Function.update_self]
    exact hi
  · rw [Function.update_of_ne hj, hothers j hj]
    exact h.1 j

theorem State.Ok.acquire (h : s.Ok U S) (htodo : s.todo i = .acquire l :: ops)
    (hholder : s.holder l = none) : (step s i).Ok U S := by
  have hothers := fun j (hj : j ≠ i) => held_acquire_of_ne hholder hj
  have hheld := held_acquire_self s.holder l i
  have hunused : l ∉ U → ∀ l' ∈ U, Function.update s.holder l (some i) l' = none := by
    intro hl l' hl'
    rw [Function.update_of_ne (ne_of_mem_of_not_mem hl' hl)]
    exact h.2 l' hl'
  have hstands := h.1 i
  rw [htodo] at hstands
  rw [step_of_acquire htodo hholder]
  cases hstands with
  | outside _ hempty hbracketed =>
    rw [hempty, insert_empty_eq] at hheld
    cases hbracketed with
    | stop _ hl hstop => exact h.update (hunused hl) hothers (.stopped l hheld hl hstop)
    | locked _ ops hl hops => exact h.update (hunused hl) hothers (.inside l ops hheld hl hops)

theorem State.Ok.release (h : s.Ok U S) (htodo : s.todo i = .release l :: ops) :
    (step s i).Ok U S := by
  have hunused : ∀ l' ∈ U, Function.update s.holder l none l' = none := by
    intro l' hl'
    rw [Function.update_apply]
    split_ifs
    · rfl
    · exact h.2 l' hl'
  -- the lock is in no other thread's hands
  have hothers : (∀ j, j ≠ i → l ∉ held s.holder j) → ∀ j, j ≠ i →
      held (Function.update s.holder l none) j = held s.holder j := by
    intro hfree j hj
    rw [held_release]
    exact Set.sdiff_singleton_eq_self (hfree j hj)
  have hstands := h.1 i
  rw [htodo] at hstands
  rw [step_of_release htodo]
  cases hstands with
  | outside _ hempty hbracketed =>
    cases hbracketed with
    | unused _ _ hl hops =>
      refine h.update hunused (hothers fun j _ => ?_) (.outside _ ?_ hops)
      · simp [held, h.2 l hl]
      · rw [held_release, hempty, Set.empty_sdiff]
  | inside _ _ hheld hl hops =>
    have hmine : s.holder l = some i := (hheld ▸ Set.mem_singleton l : l ∈ held s.holder i)
    refine h.update hunused (hothers fun j hj => ?_) (.outside _ ?_ hops)
    · simp [held, hmine, hj.symm]
    · rw [held_release, hheld, Set.sdiff_self]

theorem State.Ok.step (h : s.Ok U S) (i : ι) : (step s i).Ok U S := by
  cases htodo : s.todo i with
  | nil =>
    rw [step_of_nil htodo]
    exact h
  | cons op ops =>
    cases op with
    | acquire l =>
      by_cases hholder : s.holder l = none
      · exact h.acquire htodo hholder
      · rw [step_of_wait htodo hholder]
        exact h
    | release l => exact h.release htodo

end Steps

section Progress

variable {s : State ι L} [Fintype ι]

/-- The operations that are left. -/
def State.left (s : State ι L) : ℕ :=
  ∑ i, (s.todo i).length

/-- A step of a thread that does not wait does one of them. -/
theorem left_step {i : ι} (h : s.Enabled i) : (step s i).left + 1 = s.left := by
  have hupdate : ∀ {op ops}, s.todo i = op :: ops →
      ∑ j, (Function.update s.todo i ops j).length + 1 = s.left := by
    intro op ops htodo
    rw [State.left, ← Finset.add_sum_erase _ _ (Finset.mem_univ i),
      ← Finset.add_sum_erase _ (fun j => (s.todo j).length) (Finset.mem_univ i), htodo,
      Function.update_self, List.length_cons]
    have hrest : ∑ j ∈ Finset.univ.erase i, (Function.update s.todo i ops j).length =
        ∑ j ∈ Finset.univ.erase i, (s.todo j).length := by
      refine Finset.sum_congr rfl fun j hj => ?_
      rw [Function.update_of_ne (Finset.ne_of_mem_erase hj)]
    omega
  rw [State.Enabled] at h
  cases htodo : s.todo i with
  | nil =>
    rw [htodo] at h
    exact h.elim
  | cons op ops =>
    cases op with
    | acquire l =>
      rw [htodo] at h
      rw [step_of_acquire htodo h]
      exact hupdate htodo
    | release l =>
      rw [step_of_release htodo]
      exact hupdate htodo

/-- A run of such steps is no longer than the operations that are left. -/
theorem length_le {as : List ι} (h : Run.EachStep step State.Enabled s as) :
    as.length ≤ s.left := by
  induction as generalizing s with
  | nil => exact Nat.zero_le _
  | cons i as ih =>
    obtain ⟨hi, has⟩ := Run.eachStep_cons.mp h
    have hle := ih has
    have hstep := left_step hi
    rw [List.length_cons]
    omega

end Progress

end Contention
