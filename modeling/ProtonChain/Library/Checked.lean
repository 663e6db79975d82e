import Mathlib.Algebra.Group.Nat.Defs
import Mathlib.Data.Nat.Init

/-! Checked arithmetic on machine words.

An operation whose exact result does not fit its word ends the call. Each law gives the
result of an operation that succeeds as an equation of naturals, so that a proof about
the code never meets a wrapped value.
-/

set_option autoImplicit false

namespace Checked

/-- Why a call does not go through. -/
inductive Fault (E : Type) where
  | overflow
  | divisionByZero
  | reason (text : String)
  | raised (error : E)
  deriving DecidableEq, Repr

abbrev Outcome (E A : Type) := Except (Fault E) A

section Control
variable {E A B : Type}

/-- A requirement that ends the call with the fault where it does not hold. -/
def ensure (holds : Prop) [Decidable holds] (fault : Fault E) : Outcome E Unit :=
  if holds then .ok () else .error fault

def demand (fault : Fault E) : Option A → Outcome E A
  | some value => .ok value
  | none => .error fault

@[simp] theorem demand_eq_ok {fault : Fault E} {given : Option A} {value : A} :
    demand fault given = .ok value ↔ given = some value := by
  cases given <;> simp [demand]

@[simp] theorem ensure_eq_ok {holds : Prop} [Decidable holds] {fault : Fault E} {answer : Unit} :
    ensure holds fault = .ok answer ↔ holds := by
  simp only [ensure]
  split <;> simp [*]

@[simp] theorem bind_eq_ok {outcome : Outcome E A} {next : A → Outcome E B} {value : B} :
    (outcome >>= next) = .ok value ↔ ∃ given, outcome = .ok given ∧ next given = .ok value := by
  cases outcome with
  | error fault => simp [bind, Except.bind]
  | ok given => simp [bind, Except.bind]

theorem ok_bind (given : A) (next : A → Outcome E B) :
    ((.ok given : Outcome E A) >>= next) = next given := rfl

@[simp] theorem pure_eq_ok {given value : A} :
    (pure given : Outcome E A) = .ok value ↔ given = value :=
  Except.ok.injEq given value ▸ Iff.rfl

end Control

section Lift
variable {E E' A : Type} (embed : E → E')

/-- A fault of one part as a fault of the whole. -/
def Fault.map : Fault E → Fault E'
  | .overflow => .overflow
  | .divisionByZero => .divisionByZero
  | .reason text => .reason text
  | .raised error => .raised (embed error)

def lift : Outcome E A → Outcome E' A
  | .ok value => .ok value
  | .error fault => .error (fault.map embed)

@[simp] theorem lift_eq_ok {outcome : Outcome E A} {value : A} :
    lift embed outcome = .ok value ↔ outcome = .ok value := by
  cases outcome <;> simp [lift]

end Lift

section Arithmetic
variable {E : Type} {w : Nat} (first second : BitVec w)

def add : Outcome E (BitVec w) :=
  if first.toNat + second.toNat < 2 ^ w then .ok (first + second) else .error .overflow

def sub : Outcome E (BitVec w) :=
  if second.toNat ≤ first.toNat then .ok (first - second) else .error .overflow

def mul : Outcome E (BitVec w) :=
  if first.toNat * second.toNat < 2 ^ w then .ok (first * second) else .error .overflow

def div : Outcome E (BitVec w) :=
  if second = 0 then .error .divisionByZero else .ok (first / second)

/-- A product divided, rounded down. -/
def mulDiv (factor factor' divisor : BitVec w) : Outcome E (BitVec w) := do
  let product ← mul factor factor'
  div product divisor

variable {first second} {result : BitVec w}

@[simp] theorem add_eq_ok :
    (add first second : Outcome E _) = .ok result ↔
      result.toNat = first.toNat + second.toNat := by
  rw [add]
  split
  next fits =>
    rw [Except.ok.injEq, ← BitVec.toNat_inj, BitVec.toNat_add_of_lt fits, eq_comm]
  next wide =>
    have small := result.isLt
    exact iff_of_false nofun (by omega)

@[simp] theorem sub_eq_ok :
    (sub first second : Outcome E _) = .ok result ↔
      result.toNat + second.toNat = first.toNat := by
  rw [sub]
  split
  next below =>
    rw [Except.ok.injEq, ← BitVec.toNat_inj, BitVec.toNat_sub_of_le below]
    omega
  next above => exact iff_of_false nofun (by omega)

@[simp] theorem mul_eq_ok :
    (mul first second : Outcome E _) = .ok result ↔
      result.toNat = first.toNat * second.toNat := by
  rw [mul]
  split
  next fits =>
    rw [Except.ok.injEq, ← BitVec.toNat_inj, BitVec.toNat_mul_of_lt fits, eq_comm]
  next wide =>
    have small := result.isLt
    exact iff_of_false nofun (by omega)

@[simp] theorem div_eq_ok :
    (div first second : Outcome E _) = .ok result ↔
      0 < second.toNat ∧ result.toNat = first.toNat / second.toNat := by
  rw [div]
  split
  next zero =>
    subst zero
    exact iff_of_false nofun fun both => absurd both.1 (by simp)
  next nonzero =>
    have positive : 0 < second.toNat := by
      apply Nat.pos_of_ne_zero
      intro zero
      exact nonzero (BitVec.eq_of_toNat_eq (by simpa using zero))
    rw [Except.ok.injEq, ← BitVec.toNat_inj, BitVec.toNat_udiv, and_iff_right positive, eq_comm]

theorem add_eq_ok_iff_fits :
    (add first second : Outcome E _) = .ok result ↔
      first.toNat + second.toNat < 2 ^ w ∧ result = first + second := by
  rw [add]
  split
  next fits => rw [Except.ok.injEq, and_iff_right fits, eq_comm]
  next wide => exact iff_of_false nofun fun both => wide both.1

theorem sub_eq_ok_iff_le :
    (sub first second : Outcome E _) = .ok result ↔
      second.toNat ≤ first.toNat ∧ result = first - second := by
  rw [sub]
  split
  next below => rw [Except.ok.injEq, and_iff_right below, eq_comm]
  next above => exact iff_of_false nofun fun both => above both.1

@[simp] theorem mulDiv_eq_ok {factor factor' divisor : BitVec w} :
    (mulDiv factor factor' divisor : Outcome E _) = .ok result ↔
      factor.toNat * factor'.toNat < 2 ^ w ∧ 0 < divisor.toNat ∧
        result.toNat = factor.toNat * factor'.toNat / divisor.toNat := by
  simp only [mulDiv, bind_eq_ok, div_eq_ok]
  constructor
  · rintro ⟨product, exact, positive, quotient⟩
    rw [mul_eq_ok] at exact
    rw [exact] at quotient
    exact ⟨exact ▸ product.isLt, positive, quotient⟩
  · rintro ⟨fits, positive, quotient⟩
    refine ⟨factor * factor', mul_eq_ok.mpr (BitVec.toNat_mul_of_lt fits), positive, ?_⟩
    rw [BitVec.toNat_mul_of_lt fits]
    exact quotient

end Arithmetic

/-! ## Faults that do not occur -/

section Avoids
variable {E A B : Type}

def Avoids (fault : Fault E) (outcome : Outcome E A) : Prop := outcome ≠ .error fault

theorem Avoids.bind {fault : Fault E} {outcome : Outcome E A} {next : A → Outcome E B}
    (first : Avoids fault outcome)
    (rest : ∀ given, outcome = .ok given → Avoids fault (next given)) :
    Avoids fault (outcome >>= next) := by
  cases outcome with
  | error other =>
    intro same
    exact first (congrArg Except.error (Except.error.inj same))
  | ok given => exact rest given rfl

theorem avoids_ok (fault : Fault E) (value : A) : Avoids fault (.ok value) := nofun

theorem avoids_ensure {holds : Prop} [Decidable holds] {fault other : Fault E}
    (apart : other ≠ fault) : Avoids fault (ensure holds other) := by
  rw [Avoids, ensure]
  split
  · nofun
  · exact fun same => apart (Except.error.inj same)

theorem avoids_reason {holds : Prop} [Decidable holds] (text : String) :
    Avoids .divisionByZero (ensure holds (.reason text : Fault E)) := avoids_ensure nofun

theorem avoids_raised {holds : Prop} [Decidable holds] (error : E) :
    Avoids .divisionByZero (ensure holds (.raised error)) := avoids_ensure nofun

variable {w : Nat} (first second : BitVec w)

theorem avoids_add : Avoids .divisionByZero (add first second : Outcome E _) := by
  rw [Avoids, add]
  split <;> nofun

theorem avoids_sub : Avoids .divisionByZero (sub first second : Outcome E _) := by
  rw [Avoids, sub]
  split <;> nofun

theorem avoids_mul : Avoids .divisionByZero (mul first second : Outcome E _) := by
  rw [Avoids, mul]
  split <;> nofun

theorem avoids_div {second : BitVec w} (positive : 0 < second.toNat) :
    Avoids .divisionByZero (div first second : Outcome E _) := by
  rw [Avoids, div, if_neg]
  · nofun
  · rintro rfl
    simp at positive

theorem avoids_mulDiv (factor factor' : BitVec w) {divisor : BitVec w}
    (positive : 0 < divisor.toNat) :
    Avoids .divisionByZero (mulDiv factor factor' divisor : Outcome E _) :=
  (avoids_mul factor factor').bind fun product _ => avoids_div product positive

end Avoids

end Checked
