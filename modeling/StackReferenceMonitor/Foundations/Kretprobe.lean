import Mathlib.Data.Int.Notation

/-!
# Return probes

A kretprobe on a function, as the kernel runs it: the entry handler runs before the body. If it
returns `0`, the return handler runs after the body has returned, with the data of the entry
handler, and may change the registers the caller then sees. If it returns anything else, no return
handler runs. In no case does a handler keep the body from running.

A handler that faults does not return, and then neither does the call: the result is `none`.

## Main results

* `Kretprobe.call_of_zero`, `Kretprobe.call_of_ne_zero`: a call under each kind of answer.
-/

universe u

/-- `struct kretprobe`: its two handlers. -/
structure Kretprobe (Regs Data : Type u) where
  /-- `entry_handler`: its return value, and what it leaves in the instance's `data`. -/
  entryHandler : Regs → Option (ℤ × Data)
  /-- `handler`: run on return, on the registers at that point, which it may change. -/
  handler : Data → Regs → Option Regs

namespace Kretprobe

variable {Regs Data σ : Type u} {krp : Kretprobe Regs Data} {regs : Regs} {data : Data} {ret : ℤ}

/-- A call of the probed function: the registers its caller sees, and the state after it. -/
def call (krp : Kretprobe Regs Data) (regs : Regs) (body : σ → Regs × σ) (s : σ) :
    Option (Regs × σ) := do
  let (ret, data) ← krp.entryHandler regs
  let (regs, s) := body s
  if ret = 0 then
    let regs ← krp.handler data regs
    return (regs, s)
  else return (regs, s)

/-- The body runs all the same, and the return handler after it. -/
theorem call_of_zero (h : krp.entryHandler regs = some (0, data)) (body : σ → Regs × σ) (s : σ) :
    krp.call regs body s = (krp.handler data (body s).1).map fun regs' => (regs', (body s).2) := by
  cases hhandler : krp.handler data (body s).1 <;> simp [call, h, hhandler]

/-- The call is that of the body. -/
theorem call_of_ne_zero (h : krp.entryHandler regs = some (ret, data)) (hret : ret ≠ 0)
    (body : σ → Regs × σ) (s : σ) : krp.call regs body s = some (body s) := by
  simp [call, h, hret]

end Kretprobe
