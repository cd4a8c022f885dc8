import Mathlib.Tactic.Common

/-!
# Computations that leave a trace and may raise

`Traced Ev Err X` is a computation that performs observable actions (`Ev`, in
order) and then returns an `X` or raises an `Err`. An exception ends the
computation but not the trace: what was done before it stays done. That is
what makes statements such as "nothing was sent before the check passed"
expressible.

Sequencing is the monad structure; `bind_ok` and `bind_error` are the two ways
a step can go.
-/

namespace KgaGateway

universe u v w

/-- A computation with observable actions `Ev` and exceptions `Err`. -/
@[ext] structure Traced (Ev : Type u) (Err : Type v) (X : Type w) : Type (max u v w) where
  /-- the actions performed, in order -/
  trace : List Ev
  /-- how it ended -/
  result : Except Err X

namespace Traced

variable {Ev : Type u} {Err : Type v} {X Y : Type w}

/-- Return without doing anything. -/
protected def pure (x : X) : Traced Ev Err X := ⟨[], .ok x⟩

/-- Run `m`, then `f` on what it returned; an exception of `m` ends both. -/
protected def bind (m : Traced Ev Err X) (f : X → Traced Ev Err Y) : Traced Ev Err Y :=
  match m.result with
  | .ok x => ⟨m.trace ++ (f x).trace, (f x).result⟩
  | .error e => ⟨m.trace, .error e⟩

instance : Monad (Traced Ev Err) where
  pure := Traced.pure
  bind := Traced.bind

/-- Raise. -/
def raise (e : Err) : Traced Ev Err X := ⟨[], .error e⟩

/-- Perform one action. -/
def emit (a : Ev) : Traced Ev Err PUnit := ⟨[a], .ok ⟨⟩⟩

/-- A computation without actions. -/
def lift (r : Except Err X) : Traced Ev Err X := ⟨[], r⟩

/-- `try … except … raise … from`: exceptions are translated, the actions
already performed stay. -/
def mapError {Err' : Type v} (f : Err → Err') (m : Traced Ev Err X) : Traced Ev Err' X :=
  ⟨m.trace, m.result.mapError f⟩

/-! ## How a sequence goes -/

@[simp] theorem pure_eq (x : X) : (pure x : Traced Ev Err X) = ⟨[], .ok x⟩ := rfl

@[simp] theorem bind_ok (t : List Ev) (x : X) (f : X → Traced Ev Err Y) :
    (⟨t, .ok x⟩ : Traced Ev Err X) >>= f = ⟨t ++ (f x).trace, (f x).result⟩ := rfl

@[simp] theorem bind_error (t : List Ev) (e : Err) (f : X → Traced Ev Err Y) :
    (⟨t, .error e⟩ : Traced Ev Err X) >>= f = ⟨t, .error e⟩ := rfl

@[simp] theorem raise_eq (e : Err) : (raise e : Traced Ev Err X) = ⟨[], .error e⟩ := rfl

@[simp] theorem lift_eq (r : Except Err X) : (lift r : Traced Ev Err X) = ⟨[], r⟩ := rfl

@[simp] theorem emit_eq (a : Ev) : (emit a : Traced Ev Err PUnit) = ⟨[a], .ok ⟨⟩⟩ := rfl

theorem bind_of_ok {m : Traced Ev Err X} {x : X} (h : m.result = .ok x)
    (f : X → Traced Ev Err Y) : m >>= f = ⟨m.trace ++ (f x).trace, (f x).result⟩ := by
  obtain ⟨trace, result⟩ := m
  subst h
  rfl

theorem bind_of_error {m : Traced Ev Err X} {e : Err} (h : m.result = .error e)
    (f : X → Traced Ev Err Y) : m >>= f = ⟨m.trace, .error e⟩ := by
  obtain ⟨trace, result⟩ := m
  subst h
  rfl

/-- An action before a computation is the first of its actions. -/
theorem emit_bind (a : Ev) (m : Traced Ev Err X) (f : X → Traced Ev Err Y) :
    (emit a >>= fun _ => m >>= f) = (⟨a :: m.trace, m.result⟩ : Traced Ev Err X) >>= f := by
  rcases m with ⟨trace, e | x⟩ <;> rfl

end Traced

end KgaGateway
