import Mathlib.Tactic.Common

/-!
# Computations that leave a trace

A computation with the events it leaves behind.  The events before a failure
stay, so a property of the trace of a failed call can be stated.
-/

/-- The events of a computation in order, and its result. -/
structure Traced (E ε α : Type) where
  events : List E
  result : Except ε α

namespace Traced

variable {E ε α β : Type}

protected def pure (a : α) : Traced E ε α := ⟨[], .ok a⟩

protected def bind (x : Traced E ε α) (f : α → Traced E ε β) : Traced E ε β :=
  match x.result with
  | .ok a => ⟨x.events ++ (f a).events, (f a).result⟩
  | .error e => ⟨x.events, .error e⟩

instance : Monad (Traced E ε) where
  pure := Traced.pure
  bind := Traced.bind

/-- One event. -/
def emit (event : E) : Traced E ε Unit := ⟨[event], .ok ()⟩

/-- A computation without events. -/
def lift (x : Except ε α) : Traced E ε α := ⟨[], x⟩

/-- A failure without events. -/
def fail (e : ε) : Traced E ε α := ⟨[], .error e⟩

@[simp] theorem lift_events (x : Except ε α) : (lift x : Traced E ε α).events = [] := rfl

variable {x : Traced E ε α} {f : α → Traced E ε β}

theorem bind_of_ok {a : α} (h : x.result = .ok a) :
    x >>= f = ⟨x.events ++ (f a).events, (f a).result⟩ := by
  show Traced.bind x f = _
  unfold Traced.bind
  rw [h]

theorem bind_of_error {e : ε} (h : x.result = .error e) : x >>= f = ⟨x.events, .error e⟩ := by
  show Traced.bind x f = _
  unfold Traced.bind
  rw [h]

/-- A step without events that succeeds is its continuation. -/
theorem lift_bind_of_ok {y : Except ε α} {a : α} (h : y = .ok a) : lift y >>= f = f a := by
  rw [bind_of_ok (x := lift y) h, lift_events, List.nil_append]

theorem lift_bind_of_error {y : Except ε α} {e : ε} (h : y = .error e) : lift y >>= f = fail e :=
  bind_of_error (x := lift y) h

end Traced
