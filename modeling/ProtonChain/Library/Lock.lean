import Mathlib.Data.Option.Basic

/-! Locks that a thread cannot take twice.

A critical section runs with the lock held and lets it go when it returns. A thread that
takes the lock again while it holds it waits without end: that call gives no answer, and
neither does any call it was made from.
-/

set_option autoImplicit false

namespace Locks

structure Lock (A : Type) where
  held : Bool
  value : A
  deriving DecidableEq

namespace Lock
variable {A R : Type}

def new (value : A) : Lock A := ⟨false, value⟩

/-- Run the body with the lock held. A body that does not return keeps the lock. -/
def write (lock : Lock A) (body : Lock A → Option R × Lock A) : Option R × Lock A :=
  if lock.held then (none, lock)
  else
    match body { lock with held := true } with
    | (some answer, after) => (some answer, { after with held := false })
    | (none, after) => (none, after)

variable {lock : Lock A} {body : Lock A → Option R × Lock A}

theorem write_held (held : lock.held = true) : lock.write body = (none, lock) := by
  unfold write
  rw [if_pos held]

theorem write_free {answer : R} {after : Lock A} (free : lock.held = false)
    (returned : body ⟨true, lock.value⟩ = (some answer, after)) :
    lock.write body = (some answer, ⟨false, after.value⟩) := by
  unfold write
  rw [free, if_neg Bool.false_ne_true, returned]

theorem write_isSome_iff :
    (lock.write body).1.isSome ↔ lock.held = false ∧ (body ⟨true, lock.value⟩).1.isSome := by
  cases held : lock.held with
  | true => simp [write_held held]
  | false =>
    unfold write
    rw [held, if_neg Bool.false_ne_true]
    split
    next returned => simp [returned]
    next stuck => simp [stuck]

/-- After a body that lets nobody else take the lock, it is held exactly if there is no answer. -/
theorem write_after (keeps : (body ⟨true, lock.value⟩).2.held = true) :
    (lock.write body).2.held = (lock.write body).1.isNone := by
  cases held : lock.held with
  | true => rw [write_held held, held, Option.isNone_none]
  | false =>
    unfold write
    rw [held, if_neg Bool.false_ne_true]
    split
    next => rfl
    next after stuck =>
      rw [stuck] at keeps
      exact keeps

end Lock

end Locks
