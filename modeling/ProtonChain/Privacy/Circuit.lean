import ProtonChain.Library.R1cs

/-! The circuit of a private transfer.

Its constraints are the same in setup and in proving: two products that open the commitments,
and the sender secret in the place of the nullifier. The difference of balance and amount is
computed and then left alone, and the membership check compares the root with itself.
-/

set_option autoImplicit false

namespace ProtonChain.Privacy

open R1cs

structure PrivateTransferCircuit (F : Type) where
  senderBalance : Option F
  transferAmount : Option F
  receiverSecret : Option F
  senderSecret : Option F
  senderCommitment : Option F
  receiverCommitment : Option F
  nullifier : Option F
  merkleRoot : Option F

namespace PrivateTransferCircuit
variable {F : Type} [CommRing F]

def generateConstraints (circuit : PrivateTransferCircuit F) : Synthesis F Unit := do
  let senderBalance ← FpVar.newWitness circuit.senderBalance
  let transferAmount ← FpVar.newWitness circuit.transferAmount
  let senderSecret ← FpVar.newWitness circuit.senderSecret
  let receiverSecret ← FpVar.newWitness circuit.receiverSecret
  let senderCommitment ← FpVar.newInput circuit.senderCommitment
  let receiverCommitment ← FpVar.newInput circuit.receiverCommitment
  let nullifier ← FpVar.newInput circuit.nullifier
  let merkleRoot ← FpVar.newInput circuit.merkleRoot
  -- nothing is asked of the difference
  let _diff := senderBalance.sub transferAmount
  let computedSenderCommitment ← senderSecret.mul senderBalance
  computedSenderCommitment.enforceEqual senderCommitment
  let computedReceiverCommitment ← receiverSecret.mul transferAmount
  computedReceiverCommitment.enforceEqual receiverCommitment
  let nonce := FpVar.constant ((1 : Nat) : F)
  let computedNullifier ← senderSecret.mul nonce
  computedNullifier.enforceEqual nullifier
  merkleRoot.enforceEqual merkleRoot

def synthesize (mode : SynthesisMode) (circuit : PrivateTransferCircuit F) :
    Except SynthesisError (ConstraintSystem F) := do
  let (_, system) ← circuit.generateConstraints.run (ConstraintSystem.new mode)
  return system

/-- The circuit as a setup sees it, which asks for no values. -/
def blank : PrivateTransferCircuit F := ⟨none, none, none, none, none, none, none, none⟩

end PrivateTransferCircuit

/-! ## Assignments -/

@[ext] structure PublicInputs (F : Type) where
  senderCommitment : F
  receiverCommitment : F
  nullifier : F
  merkleRoot : F

section Assignments
variable {F : Type} (assignment : Assignment F)

/-- The variables in the order in which they are allocated. -/
def senderBalance : F := assignment.witness 0
def transferAmount : F := assignment.witness 1
def senderSecret : F := assignment.witness 2
def receiverSecret : F := assignment.witness 3

def publicInputs : PublicInputs F :=
  ⟨assignment.input 1, assignment.input 2, assignment.input 3, assignment.input 4⟩

/-- The assignment satisfies all constraints of the circuit. -/
def Satisfied [CommRing F] : Prop :=
  ∃ system, PrivateTransferCircuit.blank.synthesize .setup = .ok system ∧
    Satisfies assignment system.constraints

end Assignments

/-! ## What the constraints say -/

section Constraints
variable {F : Type} [CommRing F]

def circuitConstraints : List (Constraint F) :=
  [.product [(1, .witness 2)] [(1, .witness 0)] [(1, .witness 4)],
    .equal [(1, .witness 4)] [(1, .input 1)],
    .product [(1, .witness 3)] [(1, .witness 1)] [(1, .witness 5)],
    .equal [(1, .witness 5)] [(1, .input 2)],
    .equal (scale ((1 : Nat) : F) [(1, .witness 2)]) [(1, .input 3)],
    .equal [(1, .input 4)] [(1, .input 4)]]

/-- A setup of any circuit goes through, whether its values are there or not. -/
theorem synthesize_setup (circuit : PrivateTransferCircuit F) :
    (circuit.synthesize .setup).map ConstraintSystem.constraints = .ok circuitConstraints := rfl

/-- A prover with all values collects the same constraints and computes the two products. -/
theorem synthesize_prove (balance amount secret secret' commitment commitment' nullifier root : F) :
    (PrivateTransferCircuit.mk (some balance) (some amount) (some secret') (some secret)
        (some commitment) (some commitment') (some nullifier) (some root)).synthesize .prove =
      .ok
        { mode := .prove
          numInputs := 5
          numWitnesses := 6
          inputAssignment := [commitment, commitment', nullifier, root]
          witnessAssignment :=
            [balance, amount, secret, secret', secret * balance, secret' * amount]
          constraints := circuitConstraints } := rfl

theorem satisfied_iff_constraints (assignment : Assignment F) :
    Satisfied assignment ↔ Satisfies assignment circuitConstraints := by
  constructor
  · rintro ⟨system, synthesized, satisfies⟩
    have same : system.constraints = circuitConstraints := by
      have collected := synthesize_setup (PrivateTransferCircuit.blank (F := F))
      rw [synthesized] at collected
      exact Except.ok.inj collected
    exact same ▸ satisfies
  · intro satisfies
    exact ⟨_, rfl, satisfies⟩

/-- The balance and the amount enter through one product each, and the nullifier is the sender
secret. -/
theorem satisfied_iff (assignment : Assignment F) :
    Satisfied assignment ↔
      (assignment.witness 4 = senderSecret assignment * senderBalance assignment ∧
        assignment.witness 5 = receiverSecret assignment * transferAmount assignment) ∧
      (publicInputs assignment).senderCommitment =
        senderSecret assignment * senderBalance assignment ∧
      (publicInputs assignment).receiverCommitment =
        receiverSecret assignment * transferAmount assignment ∧
      (publicInputs assignment).nullifier = senderSecret assignment := by
  rw [satisfied_iff_constraints]
  simp only [circuitConstraints, satisfies_cons, satisfies_nil, holds_product, holds_equal,
    eval_single, eval_scale, Assignment.value, Nat.cast_one, one_mul, and_true]
  constructor
  · rintro ⟨product, opened, product', opened', same⟩
    exact ⟨⟨product.symm, product'.symm⟩, opened.symm.trans product.symm,
      opened'.symm.trans product'.symm, same.symm⟩
  · rintro ⟨⟨product, product'⟩, opened, opened', same⟩
    exact ⟨product.symm, product.trans opened.symm, product'.symm, product'.trans opened'.symm,
      same.symm⟩

/-! ## Assignments for every choice of witnesses -/

/-- The assignment that opens both commitments with these witnesses. -/
def assign (balance amount secret secret' root : F) : Assignment F where
  witness
    | 0 => balance
    | 1 => amount
    | 2 => secret
    | 3 => secret'
    | 4 => secret * balance
    | 5 => secret' * amount
    | _ => 0
  input
    | 1 => secret * balance
    | 2 => secret' * amount
    | 3 => secret
    | 4 => root
    | _ => 0

theorem satisfied_assign (balance amount secret secret' root : F) :
    Satisfied (assign balance amount secret secret' root) :=
  (satisfied_iff _).mpr ⟨⟨rfl, rfl⟩, rfl, rfl, rfl⟩

theorem publicInputs_assign (balance amount secret secret' root : F) :
    publicInputs (assign balance amount secret secret' root) =
      ⟨secret * balance, secret' * amount, secret, root⟩ := rfl

end Constraints

end ProtonChain.Privacy
