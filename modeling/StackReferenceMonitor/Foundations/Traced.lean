import Mathlib.Data.Option.Basic

/-!
# Computations with events

A computation that may stop without a result, and emits events on its way. The events of a
computation that stops are those before the stop.

## Main definitions

* `Traced`: the events and the result, a monad.
* `Traced.emit`, `Traced.ofOption`: one event, and a step without events that may stop.

## Main results

* `Traced.result_bind`: the results are those of the computation without events;
* `Traced.bind_of_result`: the events of two steps, one after the other.
-/

/-- The events of a computation, and its result unless it stops before. -/
structure Traced (ε α : Type) where
  /-- The events, in their order. -/
  events : List ε
  /-- The result. -/
  result : Option α

namespace Traced

variable {ε α β : Type}

instance : Monad (Traced ε) where
  pure a := ⟨[], some a⟩
  bind x f :=
    match x.result with
    | none => ⟨x.events, none⟩
    | some a => ⟨x.events ++ (f a).events, (f a).result⟩

/-- One event. -/
def emit (e : ε) : Traced ε Unit :=
  ⟨[e], some ()⟩

/-- A step without events. -/
def ofOption (x : Option α) : Traced ε α :=
  ⟨[], x⟩

@[simp]
theorem events_pure (a : α) : (pure a : Traced ε α).events = [] := rfl

@[simp]
theorem result_pure (a : α) : (pure a : Traced ε α).result = some a := rfl

@[simp]
theorem events_ofOption (x : Option α) : (ofOption x : Traced ε α).events = [] := rfl

@[simp]
theorem result_ofOption (x : Option α) : (ofOption x : Traced ε α).result = x := rfl

/-- A first step that has a result. -/
theorem bind_of_result {x : Traced ε α} {a : α} (h : x.result = some a) (f : α → Traced ε β) :
    x >>= f = ⟨x.events ++ (f a).events, (f a).result⟩ := by
  show (match x.result with
    | none => ⟨x.events, none⟩
    | some a => ⟨x.events ++ (f a).events, (f a).result⟩ : Traced ε β) = _
  rw [h]

/-- A first step that stops. -/
theorem bind_of_stop {x : Traced ε α} (h : x.result = none) (f : α → Traced ε β) :
    x >>= f = ⟨x.events, none⟩ := by
  show (match x.result with
    | none => ⟨x.events, none⟩
    | some a => ⟨x.events ++ (f a).events, (f a).result⟩ : Traced ε β) = _
  rw [h]

/-- The events of a first step are among those of the whole. -/
theorem mem_events_bind {x : Traced ε α} {e : ε} (h : e ∈ x.events) (f : α → Traced ε β) :
    e ∈ (x >>= f).events := by
  cases hresult : x.result with
  | none =>
    rw [bind_of_stop hresult]
    exact h
  | some a =>
    rw [bind_of_result hresult]
    exact List.mem_append_left _ h

/-- Without its events, a computation is one that may stop. -/
@[simp]
theorem result_bind (x : Traced ε α) (f : α → Traced ε β) :
    (x >>= f).result = x.result.bind fun a => (f a).result := by
  cases h : x.result with
  | none => rw [bind_of_stop h, Option.bind_none]
  | some a => rw [bind_of_result h, Option.bind_some]

@[simp]
theorem result_emit (e : ε) : (emit e).result = some () := rfl

/-- A step without events that has a result. -/
@[simp]
theorem ofOption_some_bind (a : α) (f : α → Traced ε β) :
    (ofOption (some a) : Traced ε α) >>= f = f a := rfl

@[simp]
theorem events_emit_bind (e : ε) (f : Unit → Traced ε β) :
    (emit e >>= f).events = e :: (f ()).events := rfl

end Traced
