import Mathlib.Data.Int.Notation
import Mathlib.Data.Nat.Notation

/-!
# Code that calls hooked functions

Code over some states that does what it likes, in any order, and on the way calls functions which
something else may hook. Nothing is said about the code but where it calls such a function: it has
ended, or it stands before a call, and goes on with the value and the state that come back.

A hook does not keep the body of its function from running. What it can do is to replace the value
that the caller sees, or to fault.

## Main definitions

* `Hooked`: such code.
* `Hooked.run`: its run, with the calls served by something that may fault.
* `Hooked.runWith`: its run, with the values of the calls replaced.
* `Hooked.EachCall`: a condition on the calls that it comes to.

## Main results

* `Hooked.run_eq_runWith`: if each call is served by its body and a replacement of its value, so is
  the whole run.
-/

universe u

/-- Code over the states `σ` that calls functions of `κ`, from where it stands to its end. -/
inductive Hooked (κ σ : Type u) where
  /-- It has ended with a value. -/
  | done (ret : ℤ) (s : σ)
  /-- It calls a function, which has a body, and goes on with what comes back. -/
  | call (c : κ) (s : σ) (body : σ → ℤ × σ) (next : ℤ → σ → Hooked κ σ)

namespace Hooked

variable {κ σ : Type u}

/-- Runs the code. Its calls, which are numbered from `n` on, are left to `serve`, and if one of
them faults, so does the run. -/
def run (serve : ℕ → κ → (σ → ℤ × σ) → σ → Option (ℤ × σ)) :
    ℕ → Hooked κ σ → Option (ℤ × σ)
  | _, done ret s => some (ret, s)
  | n, call c s body next => do
    let (ret, s) ← serve n c body s
    run serve (n + 1) (next ret s)

section Answers

variable {serve : ℕ → κ → (σ → ℤ × σ) → σ → Option (ℤ × σ)} (answer : ℕ → κ → ℤ → ℤ)

/-- Runs the code with every body as it is, and `answer` in place of its value. -/
def runWith : ℕ → Hooked κ σ → ℤ × σ
  | _, done ret s => (ret, s)
  | n, call c s body next => runWith (n + 1) (next (answer n c (body s).1) (body s).2)

/-- The calls that this run comes to meet the condition `P`. -/
def EachCall (P : ℕ → κ → Prop) : ℕ → Hooked κ σ → Prop
  | _, done _ _ => True
  | n, call c s body next =>
    P n c ∧ EachCall P (n + 1) (next (answer n c (body s).1) (body s).2)

/-- Decides `EachCall`. -/
def decideEachCall (P : ℕ → κ → Prop) [∀ n c, Decidable (P n c)] :
    (n : ℕ) → (code : Hooked κ σ) → Decidable (EachCall answer P n code)
  | _, done _ _ => isTrue trivial
  | n, call c s body next =>
    have := decideEachCall P (n + 1) (next (answer n c (body s).1) (body s).2)
    inferInstanceAs (Decidable (_ ∧ _))

instance eachCallDecidable (P : ℕ → κ → Prop) [∀ n c, Decidable (P n c)] (n : ℕ)
    (code : Hooked κ σ) : Decidable (EachCall answer P n code) :=
  decideEachCall answer P n code

/-- A run whose calls are each served by the body, with `answer` in place of its value, is that run
with the values replaced. -/
theorem run_eq_runWith {answer} {P : ℕ → κ → Prop}
    (hserve : ∀ n c body s, P n c → serve n c body s = some (answer n c (body s).1, (body s).2))
    {n : ℕ} {code : Hooked κ σ} (h : EachCall answer P n code) :
    run serve n code = some (runWith answer n code) := by
  -- on the code: what follows a call counts on from the next number
  induction code generalizing n with
  | done ret s => rfl
  | call c s body next ih =>
    obtain ⟨hcall, hnext⟩ := h
    rw [run, hserve n c body s hcall]
    exact ih _ _ hnext

end Answers

end Hooked
