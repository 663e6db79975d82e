import ProtonChain.Library.Codec
import ProtonChain.Privacy.Prover

/-! The verifier of private transfers and the builder of their transactions.

The verifier reads a proof back before it checks it, and nothing is read back. The builder
attaches the bytes of a proof to a transaction and drops its public inputs.
-/

set_option autoImplicit false

namespace ProtonChain.Privacy

/-- The proof system as prover and verifier call it. -/
structure Groth16Verifier extends Groth16 where
  VerifyingKey : Type
  publicInputs : Proof → List U128
  verify : VerifyingKey → List FrBn254 → Proof → Except String Bool

/-- The whole of the proof system manager. -/
structure ZkVerifier (groth16 : Groth16Verifier) extends ZkProtonSystem groth16.toGroth16 where
  verifyingKey : Option groth16.VerifyingKey
  verificationCount : U64

/-- The simplified version of the source, which refuses whatever it is given. -/
def deserializeProof (groth16 : Groth16Verifier) (_data : Bytes) : Except String groth16.Proof :=
  .error "Deserialization not fully implemented"

/-- The text of a message that holds nothing to be escaped, as `{:?}` writes it. -/
def quoted (message : String) : String := "\"" ++ message ++ "\""

namespace ZkVerifier

variable {groth16 : Groth16Verifier} (system : ZkVerifier groth16)

def verifyProof (zkProof : ZkProof) : Except String Bool × ZkVerifier groth16 :=
  match system.verifyingKey with
  | none => (.error "Verifying key not initialized", system)
  | some vk =>
    match deserializeProof groth16 zkProof.proofData with
    | .error message => (.error ("Failed to deserialize proof: " ++ quoted message), system)
    | .ok proof =>
      -- the inputs are asked of the proof that was read back, whose name hides the argument
      match groth16.verify vk ((groth16.publicInputs proof).map fieldOf) proof with
      | .error fault => (.error ("Verification failed: " ++ fault), system)
      | .ok result =>
        (.ok result, { system with verificationCount := system.verificationCount + 1 })

/-- The verifier accepts what is attached to the transaction, with some public inputs. -/
def Accepts (tx : Transaction) : Prop :=
  ∃ proofData publicInputs, tx.zkProof = some proofData ∧
    (system.verifyProof ⟨proofData, publicInputs⟩).1 = .ok true

/-- Without a key or without a proof, every answer is an error. -/
theorem verifyProof_refuses (zkProof : ZkProof) :
    ∃ message, system.verifyProof zkProof = (.error message, system) := by
  rw [verifyProof]
  cases system.verifyingKey with
  | none => exact ⟨_, rfl⟩
  | some vk => exact ⟨_, rfl⟩

theorem not_accepts (tx : Transaction) : ¬ system.Accepts tx := by
  rintro ⟨proofData, publicInputs, -, accepted⟩
  obtain ⟨message, refused⟩ := system.verifyProof_refuses ⟨proofData, publicInputs⟩
  rw [refused] at accepted
  cases accepted

end ZkVerifier

/-! ## The builder -/

namespace PrivacyTxBuilder

/-- The bytes of the amount, each mixed with one of the secret; the secret is cycled, and
sixteen bytes take it twice. -/
def encryptAmount (amount : U128) (secret : U64) : Bytes :=
  List.zipWith (· ^^^ ·) (Codec.toBytes 16 amount.toNat) (toLeBytes secret ++ toLeBytes secret)

section Build
variable {groth16 : Groth16Verifier} (system : ZkVerifier groth16) (sender : Address)
  (toStealth : StealthAddress) (amount senderBalance : U128) (senderSecret receiverSecret : U64)
  (gasPrice : U128) (gasLimit : U64) (shardId : U16) (timestamp : U64)

/-- Receiver and value are hidden: the one is left out and the other is zero. -/
def privateTransfer (proofData : Bytes) : Transaction where
  txType := .privateTransfer
  nonce := 0
  sender := sender
  receiver := none
  value := 0
  gasPrice := gasPrice
  gasLimit := gasLimit
  data := []
  shardId := shardId
  timestamp := timestamp
  signature := []
  stealthAddress := some toStealth
  zkProof := some proofData
  encryptedAmount := some (encryptAmount amount senderSecret)

variable {system sender toStealth amount senderBalance senderSecret receiverSecret gasPrice gasLimit
  shardId timestamp}

end Build

end PrivacyTxBuilder

end ProtonChain.Privacy
