import ProtonChain.Library.Checked
import ProtonChain.Library.Transactions
import ProtonChain.Solidity.Chain

/-! The private token: spent nullifiers and a hash chain over the commitments.

The verifier is another contract, asked by a static call. Events are kept in the order in which
they are emitted; a call that reverts leaves none. Public minting and burning touch none of this.
-/

set_option autoImplicit false

namespace ProtonChain.Solidity

open Checked

inductive TokenError where
  | invalidZKProof
  | nullifierAlreadySpent
  | invalidMerkleRoot
  | ownableUnauthorizedAccount
  deriving DecidableEq, Repr

/-- The mapping of spent nullifiers to `bool` is given by the keys mapped to `true`. -/
structure ProtonPrivateToken where
  owner : Address
  zkVerifier : Address
  merkleRoot : Hash
  nullifierSpent : Finset Hash
  balanceCommitments : HashMap Address Hash
  viewKeys : HashMap Address Hash

/-- The hash and the verifier contract. A static call that fails answers `none`, and any
other one the bytes it returns. -/
structure TokenEnv (World : Type) where
  keccak256 : Bytes → List.Vector UInt8 32
  verifyTransfer : World → Address → Hash → Hash → Hash → Bytes → Option Bytes
  verifyBatchTransfer : World → Address → List Hash → List Hash → Hash → Bytes → Option Bytes

namespace ProtonPrivateToken

def new (deployer zkVerifier : Address) : ProtonPrivateToken where
  owner := deployer
  zkVerifier := zkVerifier
  merkleRoot := Hash.zero
  nullifierSpent := ∅
  balanceCommitments := ∅
  viewKeys := ∅

structure PrivateTransfer where
  nullifier : Hash
  commitment : Hash
  encryptedAmount : Hash
  deriving DecidableEq

structure State (World : Type) where
  token : ProtonPrivateToken
  events : List PrivateTransfer
  world : World

/-- The nullifier is marked and the event emitted. -/
def State.spend {World : Type} (state : State World) (entry : PrivateTransfer) : State World :=
  { state with
    token := { state.token with
      nullifierSpent := insert entry.nullifier state.token.nullifierSpent }
    events := state.events ++ [entry] }

def State.setRoot {World : Type} (state : State World) (root : Hash) : State World :=
  { state with token := { state.token with merkleRoot := root } }

/-! ## The chain of commitments -/

section Chain
variable (keccak256 : Bytes → List.Vector UInt8 32)

/-- `keccak256(abi.encodePacked(root, commitment))`. -/
def nextRoot (root commitment : Hash) : Hash :=
  Hash.new keccak256 (root.asBytes.toList ++ commitment.asBytes.toList)

def foldRoot (root : Hash) (commitments : List Hash) : Hash :=
  commitments.foldl (nextRoot keccak256) root

theorem foldRoot_append (root : Hash) (first second : List Hash) :
    foldRoot keccak256 root (first ++ second) =
      foldRoot keccak256 (foldRoot keccak256 root first) second :=
  List.foldl_append

end Chain

/-! ## Calls -/

/-- The entries of a batch, one for each index of its arrays. -/
def entries : List Hash → List Hash → List Hash → List PrivateTransfer
  | nullifier :: nullifiers, commitment :: commitments, encryptedAmount :: encryptedAmounts =>
    ⟨nullifier, commitment, encryptedAmount⟩ :: entries nullifiers commitments encryptedAmounts
  | _, _, _ => []

/-- The loop that spends the nullifiers of a batch; it reverts at the first that is spent. -/
def spendEach {World : Type} : List PrivateTransfer → State World →
    Outcome TokenError (State World)
  | [], state => .ok state
  | entry :: rest, state => do
    ensure (entry.nullifier ∉ state.token.nullifierSpent) (.raised .nullifierAlreadySpent)
    spendEach rest (state.spend entry)

section Calls
variable {World : Type} (env : TokenEnv World) (caller : Address) (state : State World)

def verifyProof (nullifier commitment root : Hash) (proof : Bytes) : Outcome TokenError Bool :=
  staticAnswer
    (env.verifyTransfer state.world state.token.zkVerifier nullifier commitment root proof)

def verifyBatchProof (nullifiers commitments : List Hash) (root : Hash) (proof : Bytes) :
    Outcome TokenError Bool :=
  staticAnswer
    (env.verifyBatchTransfer state.world state.token.zkVerifier nullifiers commitments root proof)

def privateTransfer (nullifier commitment root encryptedAmount : Hash) (proof : Bytes) :
    Outcome TokenError (State World) := do
  let valid ← verifyProof env state nullifier commitment root proof
  ensure valid (.raised .invalidZKProof)
  ensure (nullifier ∉ state.token.nullifierSpent) (.raised .nullifierAlreadySpent)
  ensure (root = state.token.merkleRoot) (.raised .invalidMerkleRoot)
  let spent := state.spend ⟨nullifier, commitment, encryptedAmount⟩
  return spent.setRoot (nextRoot env.keccak256 state.token.merkleRoot commitment)

/-- The new root is built from the root that the caller gives. -/
def batchPrivateTransfer (nullifiers commitments : List Hash) (root : Hash)
    (encryptedAmounts : List Hash) (proof : Bytes) : Outcome TokenError (State World) := do
  ensure (nullifiers.length = commitments.length ∧
    commitments.length = encryptedAmounts.length) (.reason "Array length mismatch")
  let valid ← verifyBatchProof env state nullifiers commitments root proof
  ensure valid (.raised .invalidZKProof)
  let spent ← spendEach (entries nullifiers commitments encryptedAmounts) state
  return spent.setRoot (foldRoot env.keccak256 root commitments)

def registerViewKey (viewKey : Hash) : State World :=
  { state with
    token := { state.token with viewKeys := state.token.viewKeys.insert caller viewKey } }

def updateBalanceCommitment (account : Address) (newCommitment : Hash) :
    Outcome TokenError (State World) := do
  ensure (caller = state.token.zkVerifier) (.reason "Only ZK verifier")
  return { state with
    token := { state.token with
      balanceCommitments := state.token.balanceCommitments.insert account newCommitment } }

def updateMerkleRoot (newRoot : Hash) : Outcome TokenError (State World) := do
  ensure (caller = state.token.owner) (.raised .ownableUnauthorizedAccount)
  return state.setRoot newRoot

def setZKVerifier (newVerifier : Address) : Outcome TokenError (State World) := do
  ensure (caller = state.token.owner) (.raised .ownableUnauthorizedAccount)
  return { state with token := { state.token with zkVerifier := newVerifier } }

end Calls

/-! ## Runs -/

inductive Call where
  | privateTransfer (nullifier commitment root encryptedAmount : Hash) (proof : Bytes)
  | batchPrivateTransfer (nullifiers commitments : List Hash) (root : Hash)
    (encryptedAmounts : List Hash) (proof : Bytes)
  | registerViewKey (viewKey : Hash)
  | updateBalanceCommitment (account : Address) (newCommitment : Hash)
  | updateMerkleRoot (newRoot : Hash)
  | setZKVerifier (newVerifier : Address)

/-- A call of the token, or what happens outside: other calls leave a new world, and the owner
may have passed the ownership on. -/
inductive Input (World : Type) where
  | call (caller : Address) (call : Call)
  | outside (world : World) (owner : Address)

section Runs
variable {World : Type} (env : TokenEnv World)

def perform (state : State World) : Input World → Outcome TokenError (State World)
  | .call _ (.privateTransfer nullifier commitment root encryptedAmount proof) =>
    privateTransfer env state nullifier commitment root encryptedAmount proof
  | .call _ (.batchPrivateTransfer nullifiers commitments root encryptedAmounts proof) =>
    batchPrivateTransfer env state nullifiers commitments root encryptedAmounts proof
  | .call caller (.registerViewKey viewKey) => .ok (registerViewKey caller state viewKey)
  | .call caller (.updateBalanceCommitment account newCommitment) =>
    updateBalanceCommitment caller state account newCommitment
  | .call caller (.updateMerkleRoot newRoot) => updateMerkleRoot caller state newRoot
  | .call caller (.setZKVerifier newVerifier) => setZKVerifier caller state newVerifier
  | .outside world owner =>
    .ok { state with
      token := { state.token with owner := owner }
      world := world }

def step : State World → Input World → Except (Fault TokenError) Unit × State World :=
  Transactions.step (perform env)

def deployed (deployer zkVerifier : Address) (world : World) : State World :=
  ⟨new deployer zkVerifier, [], world⟩

end Runs

end ProtonPrivateToken

end ProtonChain.Solidity
