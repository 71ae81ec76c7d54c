import Mathlib.Logic.Function.Basic
import StackReferenceMonitor.Foundations.Traced

/-!
# Lock discipline

The lock operations of an execution, replayed on locks that are held or free. An execution is
disciplined if it never acquires a lock that it holds, never releases one that it does not hold, and
ends with all of them free, whether it returns or stops.

## Main definitions

* `LockOp`: an operation on a lock.
* `Locks.Disciplined`: the condition on the operations of an execution.
* `Locks.Releases`: code that runs with a lock held, and has released it when it returns.
* `Locks.Guarded`: such code after the acquisition of the lock.

## Main results

* `Locks.disciplined_acquire_iff`: a section between an acquisition and such code is disciplined
  exactly when it returns.
-/

/-- An operation on one of the locks `L`. -/
inductive LockOp (L : Type) where
  /-- `spin_lock` or `mutex_lock`. -/
  | acquire (l : L)
  /-- `spin_unlock` or `mutex_unlock`. -/
  | release (l : L)
  deriving DecidableEq

namespace Locks

variable {L α β : Type} [DecidableEq L]

/-- What an operation does to the locks that are held. Acquiring a lock that is held, or releasing
one that is free, is an error. -/
def apply (held : L → Bool) : LockOp L → Option (L → Bool)
  | .acquire l => if held l then none else some (Function.update held l true)
  | .release l => if held l then some (Function.update held l false) else none

/-- From free locks on there is no error, and in the end the locks are free. -/
def Disciplined (ops : List (LockOp L)) : Prop :=
  ops.foldlM apply (fun _ => false) = some fun _ => false

theorem disciplined_nil : Disciplined ([] : List (LockOp L)) := rfl

theorem disciplined_acquire_release (l : L) :
    Disciplined [LockOp.acquire l, LockOp.release l] := by
  simp [Disciplined, apply]

/-- A lock that is not released stays held. -/
theorem not_disciplined_acquire (l : L) : ¬Disciplined [LockOp.acquire l] := by
  intro h
  have hheld := congrFun (Option.some.inj h) l
  simp at hheld

/-- The first operation is not a release. -/
theorem not_disciplined_release (l : L) (ops : List (LockOp L)) :
    ¬Disciplined (LockOp.release l :: ops) := by
  simp [Disciplined, apply]

omit [DecidableEq L]

/-- Code that runs with the lock `l` held: it makes no other operation than to release it, and it
has done so when it returns. -/
structure Releases (l : L) (x : Traced (LockOp L) α) : Prop where
  /-- When it returns. -/
  returns : x.result.isSome → x.events = [.release l]
  /-- When it stops. -/
  stops : x.result = none → x.events = []

/-- The release itself, and then a result. -/
theorem Releases.release (l : L) (a : α) :
    Releases l (Traced.emit (.release l) >>= fun _ => pure a) :=
  ⟨fun _ => rfl, fun h => absurd h (by simp)⟩

/-- A first step without operations. -/
theorem Releases.ofOption_bind {l : L} {x : Option β} {f : β → Traced (LockOp L) α}
    (h : ∀ b, x = some b → Releases l (f b)) : Releases l (Traced.ofOption x >>= f) := by
  cases x with
  | none => exact ⟨fun hsome => absurd hsome (by simp), fun _ => rfl⟩
  | some b => exact ⟨(h b rfl).returns, (h b rfl).stops⟩

/-- A first step, such as a loop, that has released the lock on some of its ways out. -/
theorem Releases.bind {l : L} {x : Traced (LockOp L) β} {f : β → Traced (LockOp L) α}
    (hstops : x.result = none → x.events = [])
    (hreturns : ∀ b, x.result = some b → x.events = [] ∧ Releases l (f b) ∨
      x.events = [.release l] ∧ (f b).events = [] ∧ (f b).result.isSome) :
    Releases l (x >>= f) := by
  cases hx : x.result with
  | none =>
    rw [Traced.bind_of_stop hx, hstops hx]
    exact ⟨fun h => absurd h (by simp), fun _ => rfl⟩
  | some b =>
    rw [Traced.bind_of_result hx]
    rcases hreturns b hx with ⟨hnil, hf⟩ | ⟨hreleased, hnil, hsome⟩
    · rw [hnil, List.nil_append]
      exact ⟨hf.returns, hf.stops⟩
    · rw [hreleased, hnil]
      refine ⟨fun _ => rfl, fun hstop => ?_⟩
      rw [show (f b).result = none from hstop] at hsome
      exact absurd hsome (by simp)

/-- A step that never returns. -/
theorem Releases.stop (l : L) : Releases l (Traced.ofOption none : Traced (LockOp L) α) :=
  ⟨fun h => absurd h (by simp), fun _ => rfl⟩

/-- One of two ways on. -/
theorem Releases.ite {l : L} {c : Prop} [Decidable c] {x y : Traced (LockOp L) α}
    (hx : Releases l x) (hy : Releases l y) : Releases l (if c then x else y) := by
  split
  · exact hx
  · exact hy

/-- Code that acquires the lock `l` and then runs with it held. -/
def Guarded (l : L) (x : Traced (LockOp L) α) : Prop :=
  ∃ y, x = (Traced.emit (.acquire l) >>= fun _ => y) ∧ Releases l y

theorem Guarded.events {l : L} {x : Traced (LockOp L) α} (h : Guarded l x) :
    x.events = if x.result.isSome then [.acquire l, .release l] else [.acquire l] := by
  obtain ⟨y, rfl, hy⟩ := h
  rw [Traced.events_emit_bind, Traced.result_bind, Traced.result_emit, Option.bind_some]
  by_cases hsome : y.result.isSome
  · rw [if_pos hsome, hy.returns hsome]
  · rw [if_neg hsome, hy.stops (by simpa using hsome)]

/-- A section that a lock protects is disciplined exactly when it returns. -/
theorem disciplined_acquire_iff [DecidableEq L] {l : L} {x : Traced (LockOp L) α}
    (h : Releases l x) :
    Disciplined (Traced.emit (.acquire l) >>= fun _ => x).events ↔
      (Traced.emit (.acquire l) >>= fun _ => x).result.isSome := by
  rw [Traced.events_emit_bind, Traced.result_bind, Traced.result_emit, Option.bind_some]
  by_cases hsome : x.result.isSome
  · rw [h.returns hsome]
    exact iff_of_true (disciplined_acquire_release l) hsome
  · rw [h.stops (by simpa using hsome)]
    exact iff_of_false (not_disciplined_acquire l) hsome

theorem Guarded.disciplined_iff [DecidableEq L] {l : L} {x : Traced (LockOp L) α}
    (h : Guarded l x) : Disciplined x.events ↔ x.result.isSome := by
  obtain ⟨y, rfl, hy⟩ := h
  exact disciplined_acquire_iff hy

end Locks
