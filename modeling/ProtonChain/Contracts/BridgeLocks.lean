import ProtonChain.Contracts.Bridge
import ProtonChain.Library.Flows

/-! What the bridge of the chain has locked.

Tokens are locked under the chain that they go to, and released under the chain that they come
from. Every record comes from this chain, and only records that go to this chain are executed, so
nothing that is locked for another chain is ever released, and what is locked for this one covers
all that wait.
-/

set_option autoImplicit false

namespace ProtonChain.Contracts.ProtonBridge

open Checked

/-! ## Amounts under a key -/

/-- What a pending transfer has locked under a key. -/
def PendingTransfer.under (transfer : PendingTransfer) (key : U64 × Address) : Nat :=
  if (transfer.targetChain, transfer.asset) = key then transfer.amount.toNat else 0

/-- What all pending transfers have locked under a key. -/
def waiting (bridge : ProtonBridge) (key : U64 × Address) : Nat :=
  FiniteMap.total (fun transfer => transfer.under key) bridge.pendingTransfers

section Flows
variable {World : Type}

def Input.locks (key : U64 × Address) : Input World → Nat
  | .call _ (.initiateTransfer targetChain _ asset amount) =>
    if (targetChain, asset) = key then amount.toNat else 0
  | _ => 0

/-- What an input releases from under a key if it goes through. Where there is a wrapped token it
is minted instead. -/
def Input.releases (state : State World) (key : U64 × Address) : Input World → Nat
  | .call _ (.executeTransfer transferId) =>
    match state.bridge.pendingTransfers.lookup transferId with
    | some transfer =>
      if (transfer.sourceChain, transfer.asset) = key ∧ key ∉ state.bridge.wrappedAssets then
        transfer.amount.toNat
      else 0
    | none => 0
  | _ => 0

variable (host : BridgeHost World)

def locked (start : State World) (inputs : List (Input World)) (key : U64 × Address) : Nat :=
  Transactions.moved (perform host) (fun _ input => input.locks key) start inputs

def released (start : State World) (inputs : List (Input World)) (key : U64 × Address) : Nat :=
  Transactions.moved (perform host) (fun state input => input.releases state key) start inputs

/-- A completely signed transfer to this chain that the host pays. -/
def Payable (state : State World) (transferId : Hash) : Prop :=
  ∃ transfer, state.bridge.pendingTransfers.lookup transferId = some transfer ∧
    transfer.status = .signaturesComplete ∧ transfer.targetChain = host.chainId ∧
    transferId ∉ state.bridge.completedTransfers ∧
    match state.bridge.wrappedAssets.lookup (transfer.sourceChain, transfer.asset) with
    | some wrapped => (host.mintWrappedTokens state.world wrapped transfer.receiver
        transfer.amount).isSome
    | none => (host.transfer state.world transfer.asset transfer.receiver transfer.amount).isSome

end Flows

/-! ## Steps -/

section Steps
variable {World : Type} {host : BridgeHost World} {state next : State World}
  {input : Input World}

/-- Every record comes from this chain. -/
def Local (host : BridgeHost World) (bridge : ProtonBridge) : Prop :=
  ∀ transferId transfer, bridge.pendingTransfers.lookup transferId = some transfer →
    transfer.sourceChain = host.chainId

/-- What an input that goes through does to the amounts under a key. -/
structure Moves (state : State World) (input : Input World) (key : U64 × Address)
    (next : State World) : Prop where
  lockedAsset : (next.bridge.lockedAsset key).toNat + input.releases state key =
    (state.bridge.lockedAsset key).toNat + input.locks key
  waiting : next.bridge.waiting key + input.releases state key ≤
    state.bridge.waiting key + input.locks key

theorem lockedAsset_insert {bridge after : ProtonBridge} {key : U64 × Address} {amount : U128}
    (written : after.lockedAssets = bridge.lockedAssets.insert key amount) (other : U64 × Address) :
    after.lockedAsset other = if other = key then amount else bridge.lockedAsset other := by
  simp only [lockedAsset, written, FiniteMap.lookup_insert]
  split <;> rfl

theorem moves_kept (key : U64 × Address)
    (lockedAssets : next.bridge.lockedAssets = state.bridge.lockedAssets)
    (transfers : next.bridge.pendingTransfers = state.bridge.pendingTransfers)
    (locks : input.locks key = 0) (releases : input.releases state key = 0) :
    Moves state input key next where
  lockedAsset := by rw [lockedAsset, lockedAsset, lockedAssets, locks, releases]
  waiting := by rw [waiting, waiting, transfers, locks, releases]

theorem moves_recorded (key : U64 × Address) {transferId : Hash} {transfer : PendingTransfer}
    (lockedAssets : next.bridge.lockedAssets = state.bridge.lockedAssets)
    (transfers : next.bridge.pendingTransfers =
      state.bridge.pendingTransfers.insert transferId transfer)
    (smaller : transfer.under key ≤ FiniteMap.weightAt
      (fun other : PendingTransfer => other.under key) state.bridge.pendingTransfers transferId)
    (locks : input.locks key = 0) (releases : input.releases state key = 0) :
    Moves state input key next where
  lockedAsset := by rw [lockedAsset, lockedAsset, lockedAssets, locks, releases]
  waiting := by
    have written := FiniteMap.total_insert (fun transfer : PendingTransfer => transfer.under key)
      state.bridge.pendingTransfers transferId transfer
    rw [waiting, waiting, transfers, locks, releases]
    omega

theorem payOut_moves {transfer : PendingTransfer} (paid : payOut host state transfer = .ok next) :
    next.bridge.pendingTransfers = state.bridge.pendingTransfers ∧
      ∀ key, (next.bridge.lockedAsset key).toNat +
        (if (transfer.sourceChain, transfer.asset) = key ∧ key ∉ state.bridge.wrappedAssets then
          transfer.amount.toNat else 0) = (state.bridge.lockedAsset key).toNat := by
  simp only [payOut] at paid
  split at paid
  next wrapped known =>
    simp only [bind_eq_ok, pure_eq_ok] at paid
    obtain ⟨world, -, rfl⟩ := paid
    refine ⟨rfl, fun key => ?_⟩
    rw [if_neg, Nat.add_zero]
    rintro ⟨rfl, unknown⟩
    exact unknown (Finmap.mem_of_lookup_eq_some known)
  next unknown =>
    simp only [bind_eq_ok, ensure_eq_ok, sub_eq_ok, demand_eq_ok, pure_eq_ok] at paid
    obtain ⟨-, enough, left, taken, world, -, rfl⟩ := paid
    refine ⟨rfl, fun key => ?_⟩
    rw [lockedAsset_insert rfl]
    by_cases here : key = (transfer.sourceChain, transfer.asset)
    · rw [if_pos here, if_pos ⟨here.symm, here ▸ Finmap.lookup_eq_none.mp unknown⟩, here]
      omega
    · rw [if_neg here, if_neg fun both => here both.1.symm, Nat.add_zero]

theorem perform_local (kept : Local host state.bridge)
    (performed : perform host state input = .ok next) : Local host next.bridge := by
  cases input with
  | outside world =>
    obtain rfl := Except.ok.inj performed
    exact kept
  | call context call =>
    cases call with
    | initiateTransfer targetChain receiver asset amount =>
      simp only [perform, initiateTransfer, bind_eq_ok, pure_eq_ok] at performed
      obtain ⟨_, ⟨chain, -, -, -, -, -, world, -, locked, -, rfl⟩, rfl⟩ := performed
      exact FiniteMap.forall_lookup_insert rfl kept
    | initiatePrivateTransfer targetChain stealthReceiver asset encryptedAmount amountCommitment
        zkProof =>
      simp only [perform, initiatePrivateTransfer, bind_eq_ok, pure_eq_ok] at performed
      obtain ⟨_, ⟨-, -, world, -, rfl⟩, rfl⟩ := performed
      exact FiniteMap.forall_lookup_insert rfl kept
    | signTransfer transferId signature merkleProof =>
      simp only [perform, signTransfer, bind_eq_ok, demand_eq_ok, pure_eq_ok] at performed
      obtain ⟨info, -, -, -, transfer, found, -, -, -, -, -, -, rfl⟩ := performed
      exact FiniteMap.forall_lookup_insert (kept transferId transfer found) kept
    | executeTransfer transferId =>
      simp only [perform, executeTransfer, bind_eq_ok, pure_eq_ok] at performed
      obtain ⟨transfer, -, -, -, -, -, -, -, paid, done, rfl⟩ := performed
      simp only [Local, (payOut_moves done).1]
      exact FiniteMap.forall_lookup_erase transferId kept
    | addChain chainId bridgeContract confirmationBlocks =>
      simp only [perform, addChain, bind_eq_ok, pure_eq_ok] at performed
      obtain ⟨-, -, -, -, rfl⟩ := performed
      exact kept
    | registerWrappedAsset chainId remoteAsset localAsset =>
      simp only [perform, registerWrappedAsset, bind_eq_ok, pure_eq_ok] at performed
      obtain ⟨-, -, rfl⟩ := performed
      exact kept
    | addValidator validator stake =>
      simp only [perform, addValidator, bind_eq_ok, pure_eq_ok] at performed
      obtain ⟨-, -, rfl⟩ := performed
      exact kept
    | updateMerkleRoot chainId newRoot zkProof =>
      simp only [perform, updateMerkleRoot, bind_eq_ok, pure_eq_ok] at performed
      obtain ⟨-, -, rfl⟩ := performed
      exact kept

theorem initiateTransfer_moves {context : CallContext} {targetChain : U64}
    {receiver asset : Address} {amount : U128}
    (performed : perform host state (.call context (.initiateTransfer targetChain receiver asset
      amount)) = .ok next) (key : U64 × Address) :
    Moves state (.call context (.initiateTransfer targetChain receiver asset amount)) key next := by
  simp only [perform, initiateTransfer, bind_eq_ok, add_eq_ok, pure_eq_ok] at performed
  obtain ⟨_, ⟨chain, -, -, -, -, -, world, -, locked, grown, rfl⟩, rfl⟩ := performed
  constructor
  · rw [lockedAsset_insert rfl]
    simp only [Input.locks, Input.releases, Nat.add_zero]
    by_cases here : key = (targetChain, asset)
    · rw [if_pos here, if_pos here.symm, here, grown]
    · rw [if_neg here, if_neg fun same => here same.symm, Nat.add_zero]
  · exact (Nat.le_add_right _ _).trans_eq
      (FiniteMap.total_insert (fun transfer : PendingTransfer => transfer.under key) _ _ _)

/-- Only a record that comes from this chain and goes to it is executed, so what is released was
waiting under the same key. -/
theorem executeTransfer_moves (kept : Local host state.bridge) {context : CallContext}
    {transferId : Hash}
    (performed : perform host state (.call context (.executeTransfer transferId)) = .ok next)
    (key : U64 × Address) :
    Moves state (.call context (.executeTransfer transferId)) key next := by
  simp only [perform, executeTransfer, bind_eq_ok, ensure_eq_ok, demand_eq_ok, pure_eq_ok]
    at performed
  obtain ⟨transfer, found, -, -, -, target, -, -, paid, done, rfl⟩ := performed
  obtain ⟨transfers, moved⟩ := payOut_moves done
  have source := kept transferId transfer found
  constructor
  · simp only [Input.releases, Input.locks, found]
    exact moved key
  · have gone := FiniteMap.total_erase (fun transfer : PendingTransfer => transfer.under key)
      state.bridge.pendingTransfers transferId
    rw [FiniteMap.weightAt_of_lookup _ _ found] at gone
    simp only [waiting, transfers, Input.releases, Input.locks, found, Nat.add_zero]
    refine (Nat.add_le_add_left ?_ _).trans_eq gone
    rw [PendingTransfer.under, target, source]
    split
    next both => rw [if_pos both.1]
    next => exact Nat.zero_le _

theorem perform_moves (kept : Local host state.bridge)
    (performed : perform host state input = .ok next) (key : U64 × Address) :
    Moves state input key next := by
  cases input with
  | outside world =>
    obtain rfl := Except.ok.inj performed
    exact moves_kept key rfl rfl rfl rfl
  | call context call =>
    cases call with
    | initiateTransfer targetChain receiver asset amount =>
      exact initiateTransfer_moves performed key
    | executeTransfer transferId => exact executeTransfer_moves kept performed key
    | initiatePrivateTransfer targetChain stealthReceiver asset encryptedAmount amountCommitment
        zkProof =>
      simp only [perform, initiatePrivateTransfer, bind_eq_ok, pure_eq_ok] at performed
      obtain ⟨_, ⟨-, -, world, -, rfl⟩, rfl⟩ := performed
      -- the amount of the record is hidden, and none is counted
      refine moves_recorded key rfl rfl ?_ rfl rfl
      rw [PendingTransfer.under]
      split <;> exact Nat.zero_le _
    | signTransfer transferId signature merkleProof =>
      simp only [perform, signTransfer, bind_eq_ok, demand_eq_ok, pure_eq_ok] at performed
      obtain ⟨info, -, -, -, transfer, found, -, -, -, -, -, -, rfl⟩ := performed
      refine moves_recorded key rfl rfl ?_ rfl rfl
      rw [FiniteMap.weightAt_of_lookup _ _ found]
      exact Nat.le_refl _
    | addChain chainId bridgeContract confirmationBlocks =>
      simp only [perform, addChain, bind_eq_ok, pure_eq_ok] at performed
      obtain ⟨-, -, -, -, rfl⟩ := performed
      exact moves_kept key rfl rfl rfl rfl
    | registerWrappedAsset chainId remoteAsset localAsset =>
      simp only [perform, registerWrappedAsset, bind_eq_ok, pure_eq_ok] at performed
      obtain ⟨-, -, rfl⟩ := performed
      exact moves_kept key rfl rfl rfl rfl
    | addValidator validator stake =>
      simp only [perform, addValidator, bind_eq_ok, pure_eq_ok] at performed
      obtain ⟨-, -, rfl⟩ := performed
      exact moves_kept key rfl rfl rfl rfl
    | updateMerkleRoot chainId newRoot zkProof =>
      simp only [perform, updateMerkleRoot, bind_eq_ok, pure_eq_ok] at performed
      obtain ⟨-, -, rfl⟩ := performed
      exact moves_kept key rfl rfl rfl rfl

/-- The books of a bridge: where its records come from and what its locks cover. -/
structure Covered (host : BridgeHost World) (bridge : ProtonBridge) : Prop where
  records : Local host bridge
  covers : ∀ key, bridge.waiting key ≤ (bridge.lockedAsset key).toNat

theorem perform_covered (covered : Covered host state.bridge)
    (performed : perform host state input = .ok next) : Covered host next.bridge where
  records := perform_local covered.records performed
  covers key := by
    obtain ⟨lockedAsset, waiting⟩ := perform_moves covered.records performed key
    have covers := covered.covers key
    omega

end Steps

/-! ## Runs -/

section Runs
variable {World : Type} (host : BridgeHost World)

end Runs

end ProtonChain.Contracts.ProtonBridge
