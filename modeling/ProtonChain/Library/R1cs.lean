import Mathlib.Algebra.BigOperators.Group.List.Basic
import Mathlib.Algebra.Ring.Basic
import Mathlib.Data.Nat.Cast.Basic

/-! Rank-one constraint systems and the field variables that build them.

A system is synthesized in one of two modes: a setup only counts variables and collects
constraints, a prover also computes a value for every variable. What an assignment has to satisfy
are the constraints alone, so each gadget is described by the one that it adds.
-/

set_option autoImplicit false

namespace R1cs

/-! ## Constraints -/

/-- The constant one, a public input, or a witness. -/
inductive Variable where
  | one
  | input (index : Nat)
  | witness (index : Nat)
  deriving DecidableEq, Repr

abbrev LinearCombination (F : Type) := List (F × Variable)

/-- The product of two combinations is the third. -/
structure Constraint (F : Type) where
  left : LinearCombination F
  right : LinearCombination F
  output : LinearCombination F

structure Assignment (F : Type) where
  input : Nat → F
  witness : Nat → F

section Values
variable {F : Type} [CommRing F]

def Assignment.value (assignment : Assignment F) : Variable → F
  | .one => 1
  | .input index => assignment.input index
  | .witness index => assignment.witness index

def eval (assignment : Assignment F) (combination : LinearCombination F) : F :=
  (combination.map fun term => term.1 * assignment.value term.2).sum

def scale (factor : F) (combination : LinearCombination F) : LinearCombination F :=
  combination.map fun term => (factor * term.1, term.2)

def minus (first second : LinearCombination F) : LinearCombination F := first ++ scale (-1) second

def Constraint.Holds (constraint : Constraint F) (assignment : Assignment F) : Prop :=
  eval assignment constraint.left * eval assignment constraint.right =
    eval assignment constraint.output

def Satisfies (assignment : Assignment F) (constraints : List (Constraint F)) : Prop :=
  ∀ constraint ∈ constraints, constraint.Holds assignment

/-- The constraint of a multiplication. -/
def Constraint.product (left right output : LinearCombination F) : Constraint F :=
  ⟨left, right, output⟩

/-- The difference times one is nothing. -/
def Constraint.equal (first second : LinearCombination F) : Constraint F :=
  ⟨minus first second, [(1, .one)], []⟩

variable (assignment : Assignment F)

theorem eval_cons (term : F × Variable) (rest : LinearCombination F) :
    eval assignment (term :: rest) =
      term.1 * assignment.value term.2 + eval assignment rest := by
  rw [eval, List.map_cons, List.sum_cons, eval]

@[simp] theorem eval_single (column : Variable) :
    eval assignment [(1, column)] = assignment.value column := by
  rw [eval, List.map_singleton, List.sum_singleton, one_mul]

@[simp] theorem eval_scale (factor : F) (combination : LinearCombination F) :
    eval assignment (scale factor combination) = factor * eval assignment combination := by
  induction combination with
  | nil => exact (mul_zero factor).symm
  | cons term rest ih =>
    rw [scale, List.map_cons, eval_cons, eval_cons, mul_add, mul_assoc]
    exact congrArg _ ih

@[simp] theorem eval_minus (first second : LinearCombination F) :
    eval assignment (minus first second) = eval assignment first - eval assignment second := by
  have split : eval assignment (minus first second) =
      eval assignment first + eval assignment (scale (-1) second) := by
    rw [eval, minus, List.map_append, List.sum_append, eval, eval]
  rw [split, eval_scale, neg_one_mul, sub_eq_add_neg]

@[simp] theorem holds_product (left right output : LinearCombination F) :
    (Constraint.product left right output).Holds assignment ↔
      eval assignment left * eval assignment right = eval assignment output := Iff.rfl

@[simp] theorem holds_equal (first second : LinearCombination F) :
    (Constraint.equal first second).Holds assignment ↔
      eval assignment first = eval assignment second := by
  rw [Constraint.equal, Constraint.Holds, eval_minus, eval_single, Assignment.value, mul_one,
    ← sub_eq_zero (a := eval assignment first)]
  rfl

@[simp] theorem satisfies_nil : Satisfies assignment [] :=
  fun _ member => absurd member List.not_mem_nil

@[simp] theorem satisfies_cons (constraint : Constraint F) (rest : List (Constraint F)) :
    Satisfies assignment (constraint :: rest) ↔
      constraint.Holds assignment ∧ Satisfies assignment rest :=
  List.forall_mem_cons

end Values

/-! ## Synthesis -/

inductive SynthesisMode where
  | setup
  | prove
  deriving DecidableEq, Repr

inductive SynthesisError where
  | assignmentMissing
  deriving DecidableEq, Repr

/-- Inputs are counted from 1; the place before them is that of the constant one. -/
structure ConstraintSystem (F : Type) where
  mode : SynthesisMode
  numInputs : Nat
  numWitnesses : Nat
  inputAssignment : List F
  witnessAssignment : List F
  constraints : List (Constraint F)

def ConstraintSystem.new {F : Type} (mode : SynthesisMode) : ConstraintSystem F where
  mode := mode
  numInputs := 1
  numWitnesses := 0
  inputAssignment := []
  witnessAssignment := []
  constraints := []

/-- The values a prover has computed; the variables that were not allocated are zero. -/
def ConstraintSystem.assignment {F : Type} [CommRing F] (system : ConstraintSystem F) :
    Assignment F where
  input index := ((1 : F) :: system.inputAssignment).getD index 0
  witness index := system.witnessAssignment.getD index 0

def ConstraintSystem.IsSatisfied {F : Type} [CommRing F] (system : ConstraintSystem F) : Prop :=
  Satisfies system.assignment system.constraints

abbrev Synthesis (F A : Type) := StateT (ConstraintSystem F) (Except SynthesisError) A

/-- A constant or an allocated combination, with its value where a prover knows it. -/
inductive FpVar (F : Type) where
  | constant (value : F)
  | allocated (value : Option F) (combination : LinearCombination F)

section Gadgets
variable {F : Type} [CommRing F]

/-- A value that the prover has to have. -/
def known (value : Option F) : Except SynthesisError F :=
  match value with
  | some value => .ok value
  | none => .error .assignmentMissing

/-- The value is asked for by a prover only. -/
def generate (mode : SynthesisMode) (value : Option F) : Except SynthesisError (Option F) :=
  match mode with
  | .setup => .ok none
  | .prove => (known value).map some

def FpVar.newInput (value : Option F) : Synthesis F (FpVar F) := fun system => do
  let value ← generate system.mode value
  let allocated := FpVar.allocated value [(1, .input system.numInputs)]
  return (allocated, { system with
    numInputs := system.numInputs + 1
    inputAssignment := system.inputAssignment ++ value.toList })

def FpVar.newWitness (value : Option F) : Synthesis F (FpVar F) := fun system => do
  let value ← generate system.mode value
  let allocated := FpVar.allocated value [(1, .witness system.numWitnesses)]
  return (allocated, { system with
    numWitnesses := system.numWitnesses + 1
    witnessAssignment := system.witnessAssignment ++ value.toList })

def enforceConstraint (constraint : Constraint F) : Synthesis F Unit :=
  modify fun system => { system with constraints := system.constraints ++ [constraint] }

def FpVar.combination : FpVar F → LinearCombination F
  | constant value => [(value, .one)]
  | allocated _ combination => combination

def FpVar.value : FpVar F → Option F
  | constant value => some value
  | allocated value _ => value

/-- Differences and multiples of variables need no constraint. -/
def FpVar.sub (first second : FpVar F) : FpVar F :=
  match first, second with
  | constant first, constant second => constant (first - second)
  | first, second =>
    allocated (first.value.bind fun left => second.value.map fun right => left - right)
      (minus first.combination second.combination)

/-- A product of two variables is a witness with a constraint of its own. -/
def FpVar.mul : FpVar F → FpVar F → Synthesis F (FpVar F)
  | constant first, constant second => return constant (first * second)
  | constant factor, allocated value combination
  | allocated value combination, constant factor =>
    return allocated (value.map fun value => factor * value) (scale factor combination)
  | allocated value combination, allocated value' combination' => do
    let product ← newWitness (value.bind fun left => value'.map fun right => left * right)
    enforceConstraint (.product combination combination' product.combination)
    return product

/-- Two constants are not compared. -/
def FpVar.enforceEqual : FpVar F → FpVar F → Synthesis F Unit
  | constant _, constant _ => return ()
  | first, second => enforceConstraint (.equal first.combination second.combination)

end Gadgets

end R1cs
