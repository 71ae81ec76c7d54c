import Mathlib.Data.List.Forall2
import Mathlib.Data.List.Infix

/-!
# Runs of deterministic state machines

A machine is a total step function `step : σ → α → σ`, and a run is a list of actions. An action
that is not enabled is a step that changes nothing, so that every list of actions is a run, and
"every interleaving" is "every list".

## Main definitions

* `Run.exec`: the state a run ends in.
* `Run.Always`, `Run.Sometime`: a property of every state, or of some state, a run visits, its
  first and its last state included.
* `Run.EachStep`: a condition on every step of a run, read off the action and the state before it.
* `Run.outputs`: the outputs of a machine that answers each action.
* `Run.shadow`: the run of another machine, which may leave steps out.

## Main results

* `Run.invariant` and `Run.always_of_eachStep`: what each step preserves holds along the run, the
  second under a condition on the steps;
* `Run.always_iff_eachStep_given`, `Run.always_iff_eachStep`: when the condition is also necessary
  at each step, it holds of every step exactly when the property holds of every state;
* `Run.simulation_each`, `Run.simulation`: machines related step by step answer alike and end
  related;
* `Run.simulation_shadow`: so do a machine and its shadow.
-/

namespace Run

variable {σ α : Type*} {step : σ → α → σ}

/-- The state after the actions `as`. -/
def exec (step : σ → α → σ) (s : σ) (as : List α) : σ :=
  as.foldl step s

@[simp]
theorem exec_nil (s : σ) : exec step s [] = s := rfl

@[simp]
theorem exec_cons (s : σ) (a : α) (as : List α) :
    exec step s (a :: as) = exec step (step s a) as := rfl

theorem exec_append (s : σ) (as bs : List α) :
    exec step s (as ++ bs) = exec step (exec step s as) bs :=
  List.foldl_append

/-- The last step of a run. -/
theorem exec_concat (s : σ) (as : List α) (a : α) :
    exec step s (as ++ [a]) = step (exec step s as) a := by
  rw [exec_append, exec_cons, exec_nil]

/-- `P` holds of every state the run `as` visits from `s`. -/
def Always (step : σ → α → σ) (P : σ → Prop) (s : σ) (as : List α) : Prop :=
  ∀ xs, xs <+: as → P (exec step s xs)

/-- `P` holds of some state the run `as` visits from `s`. -/
def Sometime (step : σ → α → σ) (P : σ → Prop) (s : σ) (as : List α) : Prop :=
  ∃ xs, xs <+: as ∧ P (exec step s xs)

/-- The condition `C` holds of every step of the run `as` from `s`: of the state before the step
and of its action. -/
def EachStep (step : σ → α → σ) (C : σ → α → Prop) (s : σ) (as : List α) : Prop :=
  ∀ xs a, xs ++ [a] <+: as → C (exec step s xs) a

section Always

variable {P : σ → Prop} {s : σ} {as : List α}

theorem Always.exec (h : Always step P s as) : P (exec step s as) :=
  h as (List.prefix_refl as)

theorem Always.of_prefix {bs : List α} (h : Always step P s as) (hbs : bs <+: as) :
    Always step P s bs :=
  fun xs hxs => h xs (hxs.trans hbs)

theorem always_nil : Always step P s [] ↔ P s := by
  simp [Always]

/-- A run visits its first state, and then what the rest of it visits. -/
theorem always_cons {a : α} : Always step P s (a :: as) ↔ P s ∧ Always step P (step s a) as := by
  constructor
  · intro h
    exact ⟨h [] List.nil_prefix, fun xs hxs => h (a :: xs) (List.cons_prefix_cons.mpr ⟨rfl, hxs⟩)⟩
  · rintro ⟨hs, has⟩ xs hxs
    rcases List.prefix_cons_iff.mp hxs with rfl | ⟨ys, rfl, hys⟩
    · exact hs
    · exact has ys hys

/-- What holds all along a run holds along its second part. -/
theorem Always.of_append {bs : List α} (h : Always step P s (bs ++ as)) :
    Always step P (Run.exec step s bs) as := by
  intro xs hxs
  rw [← exec_append]
  exact h (bs ++ xs) ((List.prefix_append_right_inj bs).mpr hxs)

theorem Always.mono {Q : σ → Prop} (h : Always step P s as) (hPQ : ∀ t, P t → Q t) :
    Always step Q s as :=
  fun xs hxs => hPQ _ (h xs hxs)

theorem Sometime.of_exec (h : P (Run.exec step s as)) : Sometime step P s as :=
  ⟨as, List.prefix_refl as, h⟩

theorem Sometime.of_prefix {bs : List α} (h : Sometime step P s bs) (hbs : bs <+: as) :
    Sometime step P s as := by
  obtain ⟨xs, hxs, hP⟩ := h
  exact ⟨xs, hxs.trans hbs, hP⟩

end Always

section EachStep

variable {C : σ → α → Prop} {s : σ} {as : List α}

@[simp]
theorem eachStep_nil : EachStep step C s [] := by
  intro xs a h
  simp at h

/-- The condition of a run's first step, and of the others. -/
theorem eachStep_cons {a : α} :
    EachStep step C s (a :: as) ↔ C s a ∧ EachStep step C (step s a) as := by
  constructor
  · intro h
    refine ⟨h [] a (by simp), fun xs b hxs => h (a :: xs) b ?_⟩
    exact List.cons_prefix_cons.mpr ⟨rfl, hxs⟩
  · rintro ⟨hs, has⟩ xs b hxs
    cases xs with
    | nil =>
      obtain ⟨rfl, -⟩ := List.cons_prefix_cons.mp hxs
      exact hs
    | cons x xs =>
      obtain ⟨rfl, hys⟩ := List.cons_prefix_cons.mp hxs
      exact has xs b hys

instance EachStep.decidable [∀ s a, Decidable (C s a)] :
    (s : σ) → (as : List α) → Decidable (EachStep step C s as)
  | _, [] => isTrue eachStep_nil
  | s, a :: as =>
    haveI := EachStep.decidable (step s a) as
    decidable_of_iff _ eachStep_cons.symm

theorem EachStep.of_prefix {bs : List α} (h : EachStep step C s as) (hbs : bs <+: as) :
    EachStep step C s bs :=
  fun xs a hxs => h xs a (hxs.trans hbs)

theorem EachStep.mono {D : σ → α → Prop} (h : EachStep step C s as)
    (hCD : ∀ t a, C t a → D t a) : EachStep step D s as :=
  fun xs a hxs => hCD _ _ (h xs a hxs)

/-- The condition of a run's last step. -/
theorem EachStep.last {a : α} (h : EachStep step C s (as ++ [a])) : C (exec step s as) a :=
  h as a (List.prefix_refl _)

theorem EachStep.init {a : α} (h : EachStep step C s (as ++ [a])) : EachStep step C s as :=
  h.of_prefix (List.prefix_append as [a])

/-- What holds of the steps of a run holds of those of its second part. -/
theorem EachStep.of_append {bs : List α} (h : EachStep step C s (bs ++ as)) :
    EachStep step C (exec step s bs) as := by
  intro xs a hxs
  rw [← exec_append]
  refine h (bs ++ xs) a ?_
  rw [List.append_assoc]
  exact (List.prefix_append_right_inj bs).mpr hxs

/-- A condition that reads the action alone holds of every step when it holds of every action. -/
theorem eachStep_of_forall {C : α → Prop} (h : ∀ a ∈ as, C a) :
    EachStep step (fun _ a => C a) s as := by
  intro xs a hxs
  exact h a (hxs.subset (by simp))

end EachStep

/-- What holds initially and is preserved by every step holds after every run. -/
theorem invariant {P : σ → Prop} (hstep : ∀ s a, P s → P (step s a)) {s : σ} (h0 : P s)
    (as : List α) : P (exec step s as) := by
  induction as generalizing s with
  | nil => exact h0
  | cons a as ih => exact ih (hstep s a h0)

/-- What holds initially and is preserved by every step that meets `C` holds of every state that
a run of such steps visits. -/
theorem always_of_eachStep {P : σ → Prop} {C : σ → α → Prop}
    (hstep : ∀ s a, P s → C s a → P (step s a)) {s : σ} (h0 : P s) {as : List α}
    (hC : EachStep step C s as) : Always step P s as := by
  intro xs hxs
  replace hC := hC.of_prefix hxs
  clear hxs
  -- the last step of the run is the one whose condition is at hand
  induction xs using List.reverseRecOn with
  | nil => exact h0
  | append_singleton xs a ih =>
    rw [exec_concat]
    exact hstep _ _ (ih hC.init) hC.last

/-- `Inv` gives `P`, and of the steps that meet `D`, those that meet `C` too preserve `Inv`, and no
other reaches `P` from `Inv`. Then a run whose steps meet `D` visits only states with `P` exactly
when all its steps meet `C`. -/
theorem always_iff_eachStep_given {Inv P : σ → Prop} {C D : σ → α → Prop}
    (hP : ∀ s, Inv s → P s) (hstep : ∀ s a, Inv s → D s a → C s a → Inv (step s a))
    (hnec : ∀ s a, Inv s → D s a → P (step s a) → C s a) {s : σ} (h0 : Inv s) {as : List α}
    (hD : EachStep step D s as) : Always step P s as ↔ EachStep step C s as := by
  constructor
  · intro hA
    -- the steps before the one at hand already meet `C`, so `Inv` holds before it
    induction as using List.reverseRecOn with
    | nil => exact eachStep_nil
    | append_singleton as a ih =>
      have hC := ih hD.init (hA.of_prefix (List.prefix_append as [a]))
      have hboth : EachStep step (fun s a => D s a ∧ C s a) s as :=
        fun xs b hxs => ⟨hD.init xs b hxs, hC xs b hxs⟩
      have hInv := (always_of_eachStep (fun s a h hDC => hstep s a h hDC.1 hDC.2) h0 hboth).exec
      have hlast : C (exec step s as) a := by
        have hend := hA.exec
        rw [exec_concat] at hend
        exact hnec _ _ hInv hD.last hend
      intro xs b hxs
      rcases List.prefix_concat_iff.mp hxs with heq | hpre
      · obtain ⟨rfl, hb⟩ := List.append_inj' heq rfl
        obtain rfl : b = a := by simpa using hb
        exact hlast
      · exact hC xs b hpre
  · intro hC
    have hboth : EachStep step (fun s a => D s a ∧ C s a) s as :=
      fun xs b hxs => ⟨hD xs b hxs, hC xs b hxs⟩
    exact (always_of_eachStep (fun s a h hDC => hstep s a h hDC.1 hDC.2) h0 hboth).mono hP

/-- The same without a condition on all steps: a run visits only states with `P` exactly when all
its steps meet `C`. -/
theorem always_iff_eachStep {Inv P : σ → Prop} {C : σ → α → Prop} (hP : ∀ s, Inv s → P s)
    (hstep : ∀ s a, Inv s → C s a → Inv (step s a))
    (hnec : ∀ s a, Inv s → P (step s a) → C s a) {s : σ} (h0 : Inv s) (as : List α) :
    Always step P s as ↔ EachStep step C s as :=
  always_iff_eachStep_given (D := fun _ _ => True) hP (fun s a h _ => hstep s a h)
    (fun s a h _ => hnec s a h) h0 (eachStep_of_forall (C := fun _ => True) fun _ _ => trivial)

/-! ### Runs that leave steps out -/

section Shadow

variable {τ β : Type*} {step' : τ → β → τ}

/-- The run that another machine makes beside the run `as` from `s`: for each step an action of its
own, or none. -/
def shadow (step : σ → α → σ) (f : σ → α → Option β) : σ → List α → List β
  | _, [] => []
  | s, a :: as => (f s a).toList ++ shadow step f (step s a) as

/-- A relation that each step preserves, with the action that goes with it, holds at the ends of
both runs. -/
theorem simulation_shadow {f : σ → α → Option β} {R : σ → τ → Prop}
    (hstep : ∀ s t a, R s t → R (step s a) (exec step' t (f s a).toList)) {s : σ} {t : τ}
    (hR : R s t) (as : List α) :
    R (exec step s as) (exec step' t (shadow step f s as)) := by
  induction as generalizing s t with
  | nil => exact hR
  | cons a as ih =>
    rw [shadow, exec_append, exec_cons]
    exact ih (hstep s t a hR)

end Shadow

/-! ### Machines with outputs -/

section Outputs

variable {τ β α' : Type*}

/-- The answers of a machine to the actions `as`. -/
def outputs (call : σ → α → β × σ) : σ → List α → List β
  | _, [] => []
  | s, a :: as => (call s a).1 :: outputs call (call s a).2 as

/-- Actions that change nothing are answered each for itself. -/
theorem outputs_of_unchanged {call : σ → α → β × σ} {s : σ} {as : List α}
    (h : ∀ a ∈ as, (call s a).2 = s) : outputs call s as = as.map fun a => (call s a).1 := by
  induction as with
  | nil => rfl
  | cons a as ih =>
    rw [outputs, h a List.mem_cons_self, ih fun b hb => h b (List.mem_cons_of_mem a hb),
      List.map_cons]

/-- Two machines whose actions correspond under `L`, whose states are related by `R`, and whose
answers correspond under `f` at each step that meets `C`, answer alike along a run of such steps and
end in related states. The relation may depend on the number of actions that are left. -/
theorem simulation_each {β' : Type*} {call : σ → α → β × σ} {call' : τ → α' → β' × τ}
    {f : β' → β} {R : ℕ → σ → τ → Prop} {L : α → α' → Prop} {C : τ → α' → Prop}
    (hstep : ∀ n s t a b, R (n + 1) s t → L a b → C t b →
      (call s a).1 = f (call' t b).1 ∧ R n (call s a).2 (call' t b).2)
    {k : ℕ} {s : σ} {t : τ} {as : List α} (hR : R (as.length + k) s t) {bs : List α'}
    (hL : List.Forall₂ L as bs) (hC : EachStep (fun t b => (call' t b).2) C t bs) :
    outputs call s as = (outputs call' t bs).map f ∧
      R k (exec (fun s a => (call s a).2) s as) (exec (fun t b => (call' t b).2) t bs) := by
  induction hL generalizing s t with
  | nil => exact ⟨rfl, by simpa using hR⟩
  | cons hab _ ih =>
    rw [List.length_cons, Nat.add_right_comm] at hR
    obtain ⟨hfirst, hrest⟩ := eachStep_cons.mp hC
    obtain ⟨hout, hR'⟩ := hstep _ _ _ _ _ hR hab hfirst
    obtain ⟨houts, hend⟩ := ih hR' hrest
    refine ⟨?_, hend⟩
    rw [outputs, outputs, List.map_cons, hout, houts]

/-- The same for machines that agree at every step. -/
theorem simulation_counted {β' : Type*} {call : σ → α → β × σ} {call' : τ → α' → β' × τ}
    {f : β' → β} {R : ℕ → σ → τ → Prop} {L : α → α' → Prop}
    (hstep : ∀ n s t a b, R (n + 1) s t → L a b →
      (call s a).1 = f (call' t b).1 ∧ R n (call s a).2 (call' t b).2)
    {k : ℕ} {s : σ} {t : τ} {as : List α} (hR : R (as.length + k) s t) {bs : List α'}
    (hL : List.Forall₂ L as bs) :
    outputs call s as = (outputs call' t bs).map f ∧
      R k (exec (fun s a => (call s a).2) s as) (exec (fun t b => (call' t b).2) t bs) :=
  simulation_each (fun n s t a b hR hL _ => hstep n s t a b hR hL) hR hL
    (eachStep_of_forall (C := fun _ => True) fun _ _ => trivial)

/-- The same for a relation that does not depend on it. -/
theorem simulation {β' : Type*} {call : σ → α → β × σ} {call' : τ → α' → β' × τ} {f : β' → β}
    {R : σ → τ → Prop} {L : α → α' → Prop}
    (hstep : ∀ s t a b, R s t → L a b →
      (call s a).1 = f (call' t b).1 ∧ R (call s a).2 (call' t b).2)
    {s : σ} {t : τ} (hR : R s t) {as : List α} {bs : List α'} (hL : List.Forall₂ L as bs) :
    outputs call s as = (outputs call' t bs).map f ∧
      R (exec (fun s a => (call s a).2) s as) (exec (fun t b => (call' t b).2) t bs) :=
  simulation_counted (R := fun _ => R) (k := 0) (fun _ => hstep) hR hL

end Outputs

end Run
