import ProtonChain.Solidity.BridgeExecutions
import ProtonChain.Solidity.DeploymentVerifier
import ProtonChain.Solidity.ZKStatements

/-! Which key a deployment needs for its private calls.

One key serves the questions of all contracts, and a question needs a point of the key for each
of its public inputs and one more. So what a deployment has opened bounds from below how long the
keys were that it was given.
-/

set_option autoImplicit false

namespace ProtonChain.Solidity

open Checked ProtonZKVerifier

/-! ## Accepted questions -/

/-- What an accepted question says of the key and of the proof. -/
structure ProtonZKVerifier.Accepts (verifier : ProtonZKVerifier) (publicInputs : List U256)
    (proof : Bytes) : Prop where
  keyed : verifier.vkSet = true
  points : publicInputs.length < verifier.vk.ic.length
  long : 256 ≤ proof.length

theorem ProtonZKVerifier.accepts_of_verify {verifier : ProtonZKVerifier}
    {publicInputs : List U256} {proof : Bytes} {accepted : Bool}
    (answered : verify verifyProof verifier publicInputs proof = .ok accepted) :
    Accepts verifier publicInputs proof := by
  simp only [verify, decodeProof, bind_eq_ok, ensure_eq_ok, pure_eq_ok] at answered
  obtain ⟨-, keyed, decoded, ⟨-, long, -⟩, answered⟩ := answered
  refine ⟨keyed, ?_, long⟩
  cases key : verifier.vk.ic with
  | nil =>
    rw [verifyProof, key] at answered
    cases answered
  | cons vkX ic =>
    rw [verifyProof, key] at answered
    simp only [bind_eq_ok] at answered
    obtain ⟨combined, done, -⟩ := answered
    exact Nat.lt_succ_of_le (length_combineInputs done)

/-! ## What private calls leave -/

namespace ProtonPrivateToken
variable {World : Type} {env : TokenEnv World} {caller : Address} {state next : State World}

def Call.spends : Call → Bool
  | .privateTransfer _ _ _ _ _ => true
  | .batchPrivateTransfer nullifiers _ _ _ _ => !nullifiers.isEmpty
  | _ => false

theorem nullifierSpent_perform {call : Call} (quiet : call.spends = false)
    (performed : perform env state (.call caller call) = .ok next) :
    next.token.nullifierSpent = state.token.nullifierSpent := by
  cases call with
  | privateTransfer => cases quiet
  | batchPrivateTransfer nullifiers commitments root encryptedAmounts proof =>
    obtain ⟨-, -, spent, done, rfl⟩ := batchPrivateTransfer_eq_ok.mp performed
    obtain rfl : nullifiers = [] := by simpa [Call.spends] using quiet
    obtain rfl := Except.ok.inj done
    rfl
  | registerViewKey viewKey =>
    obtain rfl := Except.ok.inj performed
    rfl
  | updateBalanceCommitment account newCommitment =>
    obtain ⟨-, rfl⟩ := updateBalanceCommitment_eq_ok.mp performed
    rfl
  | updateMerkleRoot newRoot =>
    obtain ⟨-, rfl⟩ := updateMerkleRoot_eq_ok.mp performed
    rfl
  | setZKVerifier newVerifier =>
    obtain ⟨-, rfl⟩ := setZKVerifier_eq_ok.mp performed
    rfl

end ProtonPrivateToken

namespace ProtonPrivateNFT

theorem isPrivate_of_insert {nft minted : ProtonPrivateNFT} {tokenId other : U256}
    {token : NftData} (mapped : minted.tokenData = nft.tokenData.insert tokenId token)
    (isPublic : token.isPrivate = false) (isPrivate : minted.isPrivate other = true) :
    nft.isPrivate other = true := by
  rw [ProtonPrivateNFT.isPrivate, data, mapped, FiniteMap.lookup_insert] at isPrivate
  split at isPrivate
  · exact absurd (isPublic.symm.trans isPrivate) Bool.false_ne_true
  · exact isPrivate

end ProtonPrivateNFT

namespace ProtonBridge
variable {World : Type} {env : BridgeEnv World} {caller : Address} {block : BlockContext}
  {state next : State World}

/-- A transfer is confirmed, or one has been executed. -/
def Confirmed (bridge : ProtonBridge) : Prop :=
  (∃ transferId, (bridge.pendingTransfer transferId).status ≠ .pending) ∨
    bridge.completedTransfers.Nonempty

def Call.signs : Call → Bool
  | .signTransfer _ _ _ => true
  | _ => false

theorem confirmed_of_perform {call : Call} (quiet : call.signs = false)
    (performed : perform env state (.call caller block call) = .ok next)
    (confirmed : Confirmed next.bridge) : Confirmed state.bridge := by
  change (∃ transferId, (next.bridge.books.record transferId).status ≠ .pending) ∨
    next.bridge.books.completed.Nonempty at confirmed
  have effect := perform_effect performed
  generalize next.bridge.books = books at effect confirmed
  generalize next.world = world at effect
  cases effect with
  | initiated _ _ _ _ _ _ transferId =>
    rcases confirmed with ⟨other, status⟩ | completed
    · by_cases own : other = transferId
      · subst own
        exact absurd (by simp [Books.entered, PendingTransfer.initiate]) status
      · simp only [Books.entered, Function.update_of_ne own] at status
        exact .inl ⟨other, status⟩
    · exact .inr completed
  | privatelyInitiated _ _ _ _ _ _ _ _ _ transferId =>
    rcases confirmed with ⟨other, status⟩ | completed
    · by_cases own : other = transferId
      · subst own
        exact absurd (by simp [Books.entered, PendingTransfer.initiate]) status
      · simp only [Books.entered, Function.update_of_ne own] at status
        exact .inl ⟨other, status⟩
    · exact .inr completed
  | signed => cases quiet
  | minted _ _ transferId _ executable =>
    -- what is executed had all its signatures
    exact .inl ⟨transferId, by rw [executable.complete]; decide⟩
  | released _ _ transferId _ _ executable =>
    exact .inl ⟨transferId, by rw [executable.complete]; decide⟩
  | governed => exact confirmed

end ProtonBridge

namespace Deployment

section Questions
variable {World : Type} (env : DeploymentEnv World)

/-- The question that a call puts to the verifier, with its proof. -/
def Input.question (state : Deployment World) : Input World → Option (Statement × Bytes)
  | .token _ (.privateTransfer nullifier commitment root _ proof) =>
    some (.transfer nullifier commitment root, proof)
  | .token _ (.batchPrivateTransfer nullifiers commitments root _ proof) =>
    some (.batchTransfer nullifiers commitments root, proof)
  | .privateSwap _ tokenIn tokenOut nullifier encryptedAmountIn encryptedAmountOut _ zkProof =>
    match ProtonDEX.sortTokens tokenIn tokenOut with
    | .ok (token0, token1) =>
      some (.swap (ProtonDEX.pairHash (env.dexEnv state.verifier).toEnv token0 token1) nullifier
        encryptedAmountIn encryptedAmountOut, zkProof)
    | .error _ => none
  | .staking _ _ (.privateStake address _ commitment nullifier zkProof) =>
    some (.stake address commitment nullifier, zkProof)
  | .nft _ _ (.privateMint _ encryptedMetadata metadataHash zkProof) =>
    some (.metadata metadataHash encryptedMetadata, zkProof)
  | .nft _ _ (.privateTransfer tokenId _ nullifier zkProof) =>
    some (.nftOwnership tokenId (state.nft.stealthOwner tokenId) nullifier, zkProof)
  | .nft _ _ (.revealMetadata tokenId viewKey zkProof) => some (.viewKey tokenId viewKey, zkProof)
  | .bridge _ _ (.initiatePrivateTransfer _ _ asset _ amountCommitment _ zkProof) =>
    some (.bridgeAmount asset amountCommitment, zkProof)
  | .bridge _ _ (.signTransfer transferId _ merkleProof) => some (.merkle transferId, merkleProof)
  | .bridge _ _ (.updateMerkleRoot chainId newRoot zkProof) =>
    some (.merkleUpdate chainId newRoot, zkProof)
  | _ => none

variable {env} {state next : Deployment World}

theorem accepts_of_answer {E : Type} {world : World} {address : Address} {statement : Statement}
    {proof : Bytes} (trusted : address = env.zkVerifier)
    (answered : (staticAnswer (env.answer state.verifier world address statement proof) :
      Outcome E Bool) = .ok true) :
    Accepts state.verifier (statement.publicInputs env.keccak256) proof := by
  rw [DeploymentEnv.answer, if_pos trusted, staticAnswer_returned, Statement.call_eq] at answered
  exact accepts_of_verify answered

theorem accepts_of_perform (trusts : Trusts env state) {input : Input World}
    {statement : Statement} {proof : Bytes}
    (asked : input.question env state = some (statement, proof))
    (performed : perform env state input = .ok next) :
    Accepts state.verifier (statement.publicInputs env.keccak256) proof := by
  cases input with
  | token caller call =>
    simp only [perform, callToken, bind_eq_ok, lift_eq_ok] at performed
    obtain ⟨after, performed, -⟩ := performed
    cases call with
    | privateTransfer nullifier commitment root encryptedAmount proof =>
      cases asked
      exact accepts_of_answer trusts.token
        (ProtonPrivateToken.privateTransfer_eq_ok.mp performed).1
    | batchPrivateTransfer nullifiers commitments root encryptedAmounts proof =>
      cases asked
      exact accepts_of_answer trusts.token
        (ProtonPrivateToken.batchPrivateTransfer_eq_ok.mp performed).2.1
    | _ => cases asked
  | privateSwap caller tokenIn tokenOut nullifier encryptedAmountIn encryptedAmountOut
      minAmountOutCommitment zkProof =>
    simp only [perform, callDex, ProtonDEX.performOrder, bind_eq_ok, lift_eq_ok] at performed
    obtain ⟨after, ⟨exchange, performed, -⟩, -⟩ := performed
    obtain ⟨⟨sorted, sorts, -, verified⟩, -⟩ :=
      (ProtonDEX.privateSwap_eq_ok minAmountOutCommitment).mp performed
    simp only [Input.question, sorts, Option.some.injEq, Prod.mk.injEq] at asked
    obtain ⟨rfl, rfl⟩ := asked
    exact accepts_of_answer rfl verified
  | staking caller now call =>
    simp only [perform, callStaking, bind_eq_ok, lift_eq_ok] at performed
    obtain ⟨after, performed, -⟩ := performed
    cases call with
    | privateStake address encryptedAmount commitment nullifier zkProof =>
      cases asked
      simp only [ProtonStaking.perform, ProtonStaking.privateStake, bind_eq_ok, ensure_eq_ok]
        at performed
      obtain ⟨-, -, -, -, valid, verified, -, rfl, -⟩ := performed
      exact accepts_of_answer trusts.staking verified
    | _ => cases asked
  | nft caller timestamp call =>
    simp only [perform, callNft, bind_eq_ok, lift_eq_ok] at performed
    obtain ⟨after, performed, -⟩ := performed
    cases ProtonPrivateNFT.perform_effect performed with
    | privatelyMinted _ _ _ _ _ _ _ _ _ _ verified =>
      cases asked
      exact accepts_of_answer trusts.nft verified
    | privatelyTransferred _ _ _ _ _ _ _ _ _ verified =>
      cases asked
      exact accepts_of_answer trusts.nft verified
    | revealed _ _ _ _ _ verified =>
      cases asked
      exact accepts_of_answer trusts.nft verified
    | _ => cases asked
  | bridge caller block call =>
    simp only [perform, callBridge, bind_eq_ok, lift_eq_ok] at performed
    obtain ⟨after, performed, -⟩ := performed
    cases call with
    | initiatePrivateTransfer targetChain stealthReceiver asset encryptedAmount amountCommitment
        nullifier zkProof =>
      cases asked
      simp only [ProtonBridge.perform, ProtonBridge.initiatePrivateTransfer, bind_eq_ok,
        ensure_eq_ok] at performed
      obtain ⟨_, ⟨-, -, valid, verified, -, rfl, -⟩, -⟩ := performed
      exact accepts_of_answer trusts.bridge verified
    | signTransfer transferId signature merkleProof =>
      cases asked
      have signs := (ProtonBridge.signTransfer_eq_ok.mp performed).1
      exact accepts_of_answer trusts.bridge signs.proved
    | updateMerkleRoot chainId newRoot zkProof =>
      cases asked
      simp only [ProtonBridge.perform, ProtonBridge.updateMerkleRoot, bind_eq_ok, ensure_eq_ok]
        at performed
      obtain ⟨valid, verified, -, rfl, -⟩ := performed
      exact accepts_of_answer trusts.bridge verified
    | _ => cases asked
  | _ => cases asked

/-- What private calls have opened, with the number of public inputs that took. -/
inductive Opens (state : Deployment World) : Nat → Prop
  | transferred (nullifier : Hash) (spent : nullifier ∈ state.token.nullifierSpent) :
    Opens state 3
  | staked (nullifier : Hash) (spent : nullifier ∈ state.staking.privateDelegationNullifiers) :
    Opens state 3
  | moved (nullifier : Hash) (spent : nullifier ∈ state.nft.nullifierSpent) : Opens state 3
  | minted (tokenId : U256) (isPrivate : state.nft.isPrivate tokenId = true) : Opens state 2
  | rooted (chainId : U256) (known : chainId ∈ state.bridge.merkleRoots) : Opens state 2
  | confirmed (confirmed : ProtonBridge.Confirmed state.bridge) : Opens state 1

/-- The call asks about at least so many public inputs. -/
def Asks (env : DeploymentEnv World) (state : Deployment World) (input : Input World)
    (count : Nat) : Prop :=
  ∃ statement proof, input.question env state = some (statement, proof) ∧
    count ≤ (statement.publicInputs env.keccak256).length

section Contracts
variable {caller : Address} {count : Nat}

theorem opens_of_callToken {call : ProtonPrivateToken.Call}
    (performed : callToken env state caller call = .ok next) (opens : Opens next count) :
    Opens state count ∨ Asks env state (.token caller call) count := by
  simp only [callToken, bind_eq_ok, lift_eq_ok, pure_eq_ok] at performed
  obtain ⟨after, performed, rfl⟩ := performed
  cases opens with
  | transferred nullifier spent =>
    cases spends : call.spends with
    | false =>
      have kept := ProtonPrivateToken.nullifierSpent_perform spends performed
      exact .inl (.transferred nullifier (kept ▸ spent))
    | true =>
      cases call with
      | privateTransfer nullifier commitment root encryptedAmount proof =>
        exact .inr ⟨_, _, rfl, Nat.le_refl 3⟩
      | batchPrivateTransfer nullifiers commitments root encryptedAmounts proof =>
        -- a nullifier, its commitment and the root
        obtain ⟨⟨lengths, -⟩, -⟩ := ProtonPrivateToken.batchPrivateTransfer_eq_ok.mp performed
        have some_spent : nullifiers.length ≠ 0 := by
          simpa [ProtonPrivateToken.Call.spends, List.length_eq_zero_iff] using spends
        refine .inr ⟨_, _, rfl, ?_⟩
        simp only [Statement.publicInputs, List.length_append, List.length_map, List.length_cons,
          List.length_nil]
        omega
      | _ => cases spends
  | staked nullifier spent => exact .inl (.staked nullifier spent)
  | moved nullifier spent => exact .inl (.moved nullifier spent)
  | minted tokenId isPrivate => exact .inl (.minted tokenId isPrivate)
  | rooted chainId known => exact .inl (.rooted chainId known)
  | confirmed confirmed => exact .inl (.confirmed confirmed)

theorem opens_of_callStaking {now : U64} {call : ProtonStaking.Call}
    (performed : callStaking env state caller now call = .ok next) (opens : Opens next count) :
    Opens state count ∨ Asks env state (.staking caller now call) count := by
  simp only [callStaking, bind_eq_ok, lift_eq_ok, pure_eq_ok] at performed
  obtain ⟨after, performed, rfl⟩ := performed
  cases opens with
  | staked nullifier spent =>
    change nullifier ∈ after.staking.privateDelegationNullifiers at spent
    rw [(ProtonStaking.zkVerifier_perform performed).2] at spent
    cases call with
    | privateStake address encryptedAmount commitment nullifier zkProof =>
      exact .inr ⟨_, _, rfl, Nat.le_refl 3⟩
    | _ => exact .inl (.staked nullifier spent)
  | transferred nullifier spent => exact .inl (.transferred nullifier spent)
  | moved nullifier spent => exact .inl (.moved nullifier spent)
  | minted tokenId isPrivate => exact .inl (.minted tokenId isPrivate)
  | rooted chainId known => exact .inl (.rooted chainId known)
  | confirmed confirmed => exact .inl (.confirmed confirmed)

theorem opens_of_callNft {timestamp : U256} {call : ProtonPrivateNFT.Call}
    (performed : callNft env state caller timestamp call = .ok next) (opens : Opens next count) :
    Opens state count ∨ Asks env state (.nft caller timestamp call) count := by
  simp only [callNft, bind_eq_ok, lift_eq_ok, pure_eq_ok] at performed
  obtain ⟨after, performed, rfl⟩ := performed
  cases opens with
  | moved nullifier spent =>
    cases ProtonPrivateNFT.perform_effect performed with
    | privatelyTransferred => exact .inr ⟨_, _, rfl, Nat.le_refl 3⟩
    | publiclyMinted _ _ _ _ _ _ _ _ mapped =>
      subst mapped
      exact .inl (.moved nullifier spent)
    | privatelyMinted _ _ _ _ _ _ _ _ _ _ _ mapped =>
      subst mapped
      exact .inl (.moved nullifier spent)
    | publiclyTransferred _ _ _ _ _ _ _ _ _ mapped =>
      subst mapped
      exact .inl (.moved nullifier spent)
    | _ => exact .inl (.moved nullifier spent)
  | minted tokenId isPrivate =>
    cases ProtonPrivateNFT.perform_effect performed with
    | privatelyMinted => exact .inr ⟨_, _, rfl, Nat.le_refl 2⟩
    | publiclyMinted _ _ _ minted _ _ _ _ mapped =>
      subst mapped
      exact .inl (.minted tokenId (ProtonPrivateNFT.isPrivate_of_insert rfl rfl isPrivate))
    | publiclyTransferred _ _ _ _ _ _ _ _ _ mapped =>
      subst mapped
      exact .inl (.minted tokenId isPrivate)
    | _ => exact .inl (.minted tokenId isPrivate)
  | transferred nullifier spent => exact .inl (.transferred nullifier spent)
  | staked nullifier spent => exact .inl (.staked nullifier spent)
  | rooted chainId known => exact .inl (.rooted chainId known)
  | confirmed confirmed => exact .inl (.confirmed confirmed)

theorem opens_of_callBridge {block : BlockContext} {call : ProtonBridge.Call}
    (performed : callBridge env state caller block call = .ok next) (opens : Opens next count) :
    Opens state count ∨ Asks env state (.bridge caller block call) count := by
  simp only [callBridge, bind_eq_ok, lift_eq_ok, pure_eq_ok] at performed
  obtain ⟨after, performed, rfl⟩ := performed
  cases opens with
  | rooted chainId known =>
    change chainId ∈ after.bridge.merkleRoots at known
    rw [(ProtonBridge.zkVerifier_perform performed).2] at known
    cases call with
    | updateMerkleRoot chainId newRoot zkProof => exact .inr ⟨_, _, rfl, Nat.le_refl 2⟩
    | _ => exact .inl (.rooted chainId known)
  | confirmed confirmed =>
    cases signs : call.signs with
    | false => exact .inl (.confirmed (ProtonBridge.confirmed_of_perform signs performed confirmed))
    | true =>
      cases call with
      | signTransfer transferId signature merkleProof => exact .inr ⟨_, _, rfl, Nat.le_refl 1⟩
      | _ => cases signs
  | transferred nullifier spent => exact .inl (.transferred nullifier spent)
  | staked nullifier spent => exact .inl (.staked nullifier spent)
  | moved nullifier spent => exact .inl (.moved nullifier spent)
  | minted tokenId isPrivate => exact .inl (.minted tokenId isPrivate)

/-- What the contracts but the exchange have opened does not change with the rest. -/
theorem Opens.congr (opens : Opens next count)
    (token : next.token.nullifierSpent = state.token.nullifierSpent)
    (staking : next.staking.privateDelegationNullifiers =
      state.staking.privateDelegationNullifiers)
    (nft : { next.nft with owner := state.nft.owner } = state.nft)
    (bridge : { next.bridge with owner := state.bridge.owner } = state.bridge) :
    Opens state count := by
  cases opens with
  | transferred nullifier spent => exact .transferred nullifier (token ▸ spent)
  | staked nullifier spent => exact .staked nullifier (staking ▸ spent)
  | moved nullifier spent => exact .moved nullifier (nft ▸ spent)
  | minted tokenId isPrivate => exact .minted tokenId (nft ▸ isPrivate)
  | rooted chainId known => exact .rooted chainId (bridge ▸ known)
  | confirmed confirmed => exact .confirmed (bridge ▸ confirmed)

theorem opens_of_perform {input : Input World} (performed : perform env state input = .ok next)
    (opens : Opens next count) : Opens state count ∨ Asks env state input count := by
  cases input with
  | token caller call => exact opens_of_callToken performed opens
  | staking caller now call => exact opens_of_callStaking performed opens
  | nft caller timestamp call => exact opens_of_callNft performed opens
  | bridge caller block call => exact opens_of_callBridge performed opens
  | dex | privateSwap | placeEncryptedOrder | cancelOrder =>
    obtain ⟨after, rfl⟩ := callDex_ok performed
    exact .inl (opens.congr rfl rfl rfl rfl)
  | setVerificationKey vk =>
    obtain rfl := Except.ok.inj performed
    exact .inl (opens.congr rfl rfl rfl rfl)
  | outside world owners =>
    obtain rfl := Except.ok.inj performed
    exact .inl (opens.congr rfl rfl rfl rfl)

theorem opens_of_step {input : Input World} (opens : Opens (step env state input).2 count) :
    Opens state count ∨
      Asks env state input count ∧ Transactions.Succeeds (perform env) state input := by
  by_cases succeeds : Transactions.Succeeds (perform env) state input
  · obtain ⟨next, performed⟩ := id succeeds
    rw [step, Transactions.step_of_ok performed] at opens
    exact (opens_of_perform performed opens).imp_right fun asks => ⟨asks, succeeds⟩
  · rw [step, Transactions.step_of_not_succeeds succeeds] at opens
    exact .inl opens

end Contracts

/-! ### Runs -/

def Input.key : Input World → Option VerifyingKey
  | .setVerificationKey vk => some vk
  | _ => none

def lastKey (inputs : List (Input World)) : Option VerifyingKey :=
  (inputs.filterMap Input.key).getLast?

theorem mem_of_lastKey {inputs : List (Input World)} {vk : VerifyingKey}
    (last : lastKey inputs = some vk) : .setVerificationKey vk ∈ inputs := by
  obtain ⟨input, listed, sets⟩ := List.mem_filterMap.mp (List.mem_of_getLast? last)
  cases input with
  | setVerificationKey other =>
    obtain rfl := Option.some.inj sets
    exact listed
  | _ => cases sets

theorem verifier_perform {input : Input World} (performed : perform env state input = .ok next) :
    next.verifier = (input.key.map fun vk => ⟨vk, true⟩).getD state.verifier := by
  cases input with
  | setVerificationKey vk =>
    obtain rfl := Except.ok.inj performed
    rfl
  | outside world owners =>
    obtain rfl := Except.ok.inj performed
    rfl
  | token caller call =>
    simp only [perform, callToken, bind_eq_ok, pure_eq_ok] at performed
    obtain ⟨after, -, rfl⟩ := performed
    rfl
  | dex | privateSwap | placeEncryptedOrder | cancelOrder =>
    obtain ⟨after, rfl⟩ := callDex_ok performed
    rfl
  | staking caller now call =>
    simp only [perform, callStaking, bind_eq_ok, pure_eq_ok] at performed
    obtain ⟨after, -, rfl⟩ := performed
    rfl
  | nft caller timestamp call =>
    simp only [perform, callNft, bind_eq_ok, pure_eq_ok] at performed
    obtain ⟨after, -, rfl⟩ := performed
    rfl
  | bridge caller block call =>
    simp only [perform, callBridge, bind_eq_ok, pure_eq_ok] at performed
    obtain ⟨after, -, rfl⟩ := performed
    rfl

theorem verifier_step (input : Input World) :
    (step env state input).2.verifier =
      (input.key.map fun vk => ⟨vk, true⟩).getD state.verifier := by
  by_cases succeeds : Transactions.Succeeds (perform env) state input
  · obtain ⟨next, performed⟩ := succeeds
    rw [step, Transactions.step_of_ok performed]
    exact verifier_perform performed
  · rw [step, Transactions.step_of_not_succeeds succeeds]
    -- setting a key cannot fail
    cases input with
    | setVerificationKey vk => exact absurd ⟨_, rfl⟩ succeeds
    | _ => rfl

section Deployed
variable (env) (deployer protonToken : Address) (validatorThreshold : U256) (world : World)

theorem verifier_run (inputs : List (Input World)) :
    (Runs.run (step env) (deployed env deployer protonToken validatorThreshold world)
      inputs).2.verifier =
      ((lastKey inputs).map fun vk => ⟨vk, true⟩).getD ProtonZKVerifier.deployed := by
  induction inputs using List.reverseRecOn with
  | nil => rfl
  | append_singleton inputs last ih =>
    rw [Runs.run_concat, verifier_step, ih, lastKey, lastKey, List.filterMap_append]
    cases key : last.key with
    | none => simp [key]
    | some vk => simp [key]

theorem not_opens_deployed {count : Nat} :
    ¬ Opens (deployed env deployer protonToken validatorThreshold world) count := by
  intro opens
  cases opens with
  | transferred nullifier spent => cases spent
  | staked nullifier spent => cases spent
  | moved nullifier spent => cases spent
  | minted tokenId isPrivate => cases isPrivate
  | rooted chainId known => exact absurd known Finmap.notMem_empty
  | confirmed confirmed =>
    rcases confirmed with ⟨transferId, status⟩ | ⟨transferId, completed⟩
    · exact absurd rfl status
    · cases completed

variable {inputs : List (Input World)} (keeps : ∀ input ∈ inputs, KeepsVerifier env input)
include keeps

theorem trusts_run :
    Trusts env (Runs.run (step env)
      (deployed env deployer protonToken validatorThreshold world) inputs).2 := by
  have keep : ∀ state input next, Trusts env state → KeepsVerifier env input →
      perform env state input = .ok next → Trusts env next := by
    intro state input next trusts keeps performed
    exact trusts.perform keeps performed
  have visits := Transactions.visits_of_keeps keep
    (trusts_deployed deployer protonToken validatorThreshold world) inputs
    ((Runs.meets_const (step env) (KeepsVerifier env) _ inputs).mpr keeps)
  exact visits inputs [] (List.append_nil inputs).symm

theorem key_of_accepts {statement : Statement} {proof : Bytes}
    {input : Input World}
    (asked : input.question env (Runs.run (step env)
      (deployed env deployer protonToken validatorThreshold world) inputs).2 =
        some (statement, proof))
    (succeeds : Transactions.Succeeds (perform env) (Runs.run (step env)
      (deployed env deployer protonToken validatorThreshold world) inputs).2 input) :
    256 ≤ proof.length ∧ ∃ vk, lastKey inputs = some vk ∧
      (statement.publicInputs env.keccak256).length < vk.ic.length := by
  obtain ⟨next, performed⟩ := succeeds
  have trusts := trusts_run env deployer protonToken validatorThreshold world keeps
  obtain ⟨keyed, points, long⟩ := accepts_of_perform trusts asked performed
  rw [verifier_run] at keyed points
  cases last : lastKey inputs with
  | none =>
    rw [last] at keyed
    cases keyed
  | some vk =>
    rw [last] at points
    exact ⟨long, vk, rfl, points⟩

theorem key_of_opens {count : Nat}
    (opens : Opens (Runs.run (step env)
      (deployed env deployer protonToken validatorThreshold world) inputs).2 count) :
    ∃ vk, .setVerificationKey vk ∈ inputs ∧ count < vk.ic.length := by
  induction inputs using List.reverseRecOn with
  | nil => exact absurd opens (not_opens_deployed env deployer protonToken validatorThreshold world)
  | append_singleton inputs last ih =>
    have before : ∀ input ∈ inputs, KeepsVerifier env input :=
      fun input listed => keeps input (List.mem_append_left _ listed)
    rw [Runs.run_concat] at opens
    rcases opens_of_step opens with opened | ⟨⟨statement, proof, asked, enough⟩, succeeds⟩
    · obtain ⟨vk, listed, points⟩ := ih before opened
      exact ⟨vk, List.mem_append_left _ listed, points⟩
    · obtain ⟨-, vk, set, points⟩ :=
        key_of_accepts env deployer protonToken validatorThreshold world before asked succeeds
      exact ⟨vk, List.mem_append_left _ (mem_of_lastKey set), enough.trans_lt points⟩

end Deployed

end Questions

/-- A call that hands a proof to the verifier goes through only under a key with more points than
the call has public inputs, and a proof of 256 bytes. So whatever private calls have opened in a
run, some key of the run was long enough for it. -/
theorem private_calls_need_keys {World : Type} (env : DeploymentEnv World)
    (deployer protonToken : Address) (validatorThreshold : U256) (world : World)
    (inputs : List (Input World)) (keeps : ∀ input ∈ inputs, KeepsVerifier env input) :
    let start := deployed env deployer protonToken validatorThreshold world
    (∀ earlier input later statement proof, inputs = earlier ++ input :: later →
      input.question env (Runs.run (step env) start earlier).2 = some (statement, proof) →
      Transactions.Succeeds (perform env) (Runs.run (step env) start earlier).2 input →
        256 ≤ proof.length ∧ ∃ vk, lastKey earlier = some vk ∧
          (statement.publicInputs env.keccak256).length < vk.ic.length) ∧
    ∀ count, Opens (Runs.run (step env) start inputs).2 count →
      ∃ vk, .setVerificationKey vk ∈ inputs ∧ count < vk.ic.length := by
  intro start
  constructor
  · rintro earlier input later statement proof rfl asked succeeds
    have before : ∀ input ∈ earlier, KeepsVerifier env input :=
      fun input listed => keeps input (List.mem_append_left _ listed)
    exact key_of_accepts env deployer protonToken validatorThreshold world before asked succeeds
  · intro count opens
    exact key_of_opens env deployer protonToken validatorThreshold world keeps opens

/-- A nullifier is spent under a key of four points. -/
theorem private_calls_need_keys_sample :
    ∃ vk, Input.setVerificationKey vk ∈
        [.setVerificationKey Sample.key, Sample.transfer (List.replicate 256 1)] ∧
      3 < vk.ic.length :=
  (private_calls_need_keys Sample.env (ProtonChain.Sample.address 9) (ProtonChain.Sample.address 1)
    2 Solidity.Sample.ledger
    [.setVerificationKey Sample.key, Sample.transfer (List.replicate 256 1)]
    (by decide +kernel)).2 3 (.transferred Hash.zero (by decide +kernel))

end Deployment

end ProtonChain.Solidity
