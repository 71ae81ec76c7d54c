import Mathlib.Logic.Function.Basic
import StackReferenceMonitor.Foundations.Runs

/-!
# Linearizability

A history is what the callers of an object see: the invocations of its operations and the responses
to them, in the order of their occurrence. It is linearizable if every operation that responds takes
effect at one point between its invocation and its response, as the sequential object does, and with
the response that the sequential object gives. An operation that has not responded may have taken
effect or not. Points that lie between invocation and response keep the order of the operations that
do not overlap.

## Main definitions

* `Linearizability.Event`, `Linearizability.Phase`: the events of a history, and where a caller
  stands.
* `Linearizes`: the history is linearizable, and its operations lead from one state of the
  sequential object to another.
* `Linearizability.history`: the history of a run.

## Main results

* `Linearizability.linearizes_history`: a run is linearizable if each of its steps prolongs a
  linearization of what comes after it.
-/

namespace Linearizability

/-- An event of a history. -/
inductive Event (ω ρ : Type*) where
  /-- The caller `t` invokes the operation. -/
  | invoke (t : ℕ) (op : ω)
  /-- The operation that `t` has invoked responds. -/
  | respond (t : ℕ) (r : ρ)

/-- Where a caller stands. -/
inductive Phase (ω ρ : Type*) where
  /-- It has no operation under way. -/
  | idle
  /-- Its operation has not taken effect. -/
  | pending (op : ω)
  /-- Its operation has taken effect, and is to respond with `r`. -/
  | done (r : ρ)
  /-- Its operation has not taken effect, and never will. -/
  | lost

variable {σ ω ρ M A : Type*}

/-- The history `h` of callers in the phases `φ` is linearizable: the operations of the sequential
object `spec`, in the order in which they take effect, lead from `s` to `s'`. -/
inductive Linearizes (spec : σ → ω → ρ → σ → Prop) :
    (ℕ → Phase ω ρ) → σ → List (Event ω ρ) → σ → Prop
  /-- The end of the history. -/
  | nil {φ : ℕ → Phase ω ρ} {s : σ} : Linearizes spec φ s [] s
  /-- An invocation. -/
  | invoke {φ : ℕ → Phase ω ρ} {s s' : σ} {h : List (Event ω ρ)} {t : ℕ} {op : ω}
      (hφ : φ t = .idle) (hrest : Linearizes spec (Function.update φ t (.pending op)) s h s') :
      Linearizes spec φ s (.invoke t op :: h) s'
  /-- The point at which an operation takes effect. -/
  | commit {φ : ℕ → Phase ω ρ} {s s₁ s' : σ} {h : List (Event ω ρ)} {op : ω} {r : ρ} (t : ℕ)
      (hφ : φ t = .pending op) (hspec : spec s op r s₁)
      (hrest : Linearizes spec (Function.update φ t (.done r)) s₁ h s') : Linearizes spec φ s h s'
  /-- A response. -/
  | respond {φ : ℕ → Phase ω ρ} {s s' : σ} {h : List (Event ω ρ)} {t : ℕ} {r : ρ}
      (hφ : φ t = .done r) (hrest : Linearizes spec (Function.update φ t .idle) s h s') :
      Linearizes spec φ s (.respond t r :: h) s'
  /-- An operation is given up. -/
  | abandon {φ : ℕ → Phase ω ρ} {s s' : σ} {h : List (Event ω ρ)} {op : ω} (t : ℕ)
      (hφ : φ t = .pending op) (hrest : Linearizes spec (Function.update φ t .lost) s h s') :
      Linearizes spec φ s h s'

/-- An operation that takes effect in its last step. -/
theorem Linearizes.commit_respond {spec : σ → ω → ρ → σ → Prop} {φ : ℕ → Phase ω ρ} {s s₁ s' : σ}
    {h : List (Event ω ρ)} {t : ℕ} {op : ω} {r : ρ} (hφ : φ t = .pending op)
    (hspec : spec s op r s₁) (hrest : Linearizes spec (Function.update φ t .idle) s₁ h s') :
    Linearizes spec φ s (.respond t r :: h) s' := by
  refine .commit t hφ hspec (.respond (Function.update_self t _ φ) ?_)
  rwa [Function.update_idem]

/-- The events of a run of which every step has the events `emits`. -/
def history (step : M → A → M) (emits : M → A → List (Event ω ρ)) : M → List A → List (Event ω ρ)
  | _, [] => []
  | m, a :: as => emits m a ++ history step emits (step m a) as

/-- A run is linearizable if each of its steps keeps the invariant `Inv` and prolongs every
linearization of what comes after it. The sequential object is the part `abs` of the state, and
`phases` is where the callers stand. -/
theorem linearizes_history {step : M → A → M} {emits : M → A → List (Event ω ρ)}
    {spec : σ → ω → ρ → σ → Prop} (abs : M → σ) (phases : M → ℕ → Phase ω ρ) {Inv : M → Prop}
    {C : M → A → Prop} (hinv : ∀ m a, Inv m → C m a → Inv (step m a))
    (hstep : ∀ m a, Inv m → C m a →
      ∀ h s', Linearizes spec (phases (step m a)) (abs (step m a)) h s' →
        Linearizes spec (phases m) (abs m) (emits m a ++ h) s')
    {m : M} (hm : Inv m) {as : List A} (has : Run.EachStep step C m as) :
    Linearizes spec (phases m) (abs m) (history step emits m as) (abs (Run.exec step m as)) := by
  induction as generalizing m with
  | nil => exact .nil
  | cons a as ih =>
    obtain ⟨ha, has⟩ := Run.eachStep_cons.mp has
    exact hstep m a hm ha _ _ (ih (hinv m a hm ha) has)

end Linearizability
