import ProtonChain.Solidity.Bridge

/-! What the calls of the bridge do where they go through.

Signatures and executions are described exactly, so that it can also be said when they go
through. The calls that only configure the bridge keep the books of its transfers.
-/

set_option autoImplicit false

namespace ProtonChain.Solidity.ProtonBridge

open Checked

/-! ## Signatures -/

def PendingTransfer.signed (transfer : PendingTransfer) (validator : Address) : PendingTransfer :=
  if validator ∈ transfer.signatures then transfer
  else { transfer with
    signatures := insert validator transfer.signatures
    signatureCount := transfer.signatureCount + 1 }

theorem signatures_signed (transfer : PendingTransfer) (validator : Address) :
    (transfer.signed validator).signatures = insert validator transfer.signatures := by
  rw [PendingTransfer.signed]
  split
  next flagged => exact (Finset.insert_eq_of_mem flagged).symm
  next => rfl

/-- The record without what signatures and the execution write. -/
def PendingTransfer.core (transfer : PendingTransfer) : PendingTransfer :=
  { transfer with
    signatures := ∅
    signatureCount := 0
    status := .pending }

def PendingTransfer.settled (transfer : PendingTransfer) (threshold : U256) : PendingTransfer :=
  { transfer with
    status := if threshold ≤ transfer.signatureCount then .signaturesComplete
      else .sourceConfirmed }

@[simp] theorem core_settled_signed (transfer : PendingTransfer) (validator : Address)
    (threshold : U256) : ((transfer.signed validator).settled threshold).core = transfer.core := by
  rw [PendingTransfer.signed]
  split <;> rfl

theorem record_eq_ok {transfer recorded : PendingTransfer} {validator : Address} :
    transfer.record validator = .ok recorded ↔
      (validator ∈ transfer.signatures ∨ transfer.signatureCount.toNat + 1 < 2 ^ 256) ∧
        recorded = transfer.signed validator := by
  rw [PendingTransfer.record, PendingTransfer.signed]
  split
  next flagged => simp [flagged, eq_comm]
  next fresh =>
    simp only [bind_eq_ok, add_eq_ok_iff_fits, pure_eq_ok, fresh, false_or]
    constructor
    · rintro ⟨count, ⟨fits, rfl⟩, rfl⟩
      exact ⟨fits, rfl⟩
    · rintro ⟨fits, rfl⟩
      exact ⟨_, ⟨fits, rfl⟩, rfl⟩

section Calls
variable {World : Type} (env : BridgeEnv World)

/-- The signature recovers to the validator. -/
def Authentic (validator : Address) (transferId : Hash) (signature : Bytes) : Prop :=
  ∃ r s v, splitSignature signature = .ok (r, s, v) ∧
    env.ecrecover (ethSignedMessage env.keccak256 validator transferId) v r s = validator

structure Signs (state : State World) (validator : Address) (transferId : Hash)
    (signature merkleProof : Bytes) : Prop where
  registered : (state.bridge.validator validator).addr ≠ Address.zero
  active : (state.bridge.validator validator).isActive = true
  found : (state.bridge.pendingTransfer transferId).transferId ≠ Hash.zero
  unexecuted : (state.bridge.pendingTransfer transferId).status ≠ .executed
  authentic : Authentic env validator transferId signature
  proved : verifyMerkleProof env state merkleProof transferId = .ok true
  counts : validator ∈ (state.bridge.pendingTransfer transferId).signatures ∨
    (state.bridge.pendingTransfer transferId).signatureCount.toNat + 1 < 2 ^ 256

def State.sign (state : State World) (validator : Address) (block : BlockContext)
    (transferId : Hash) : State World :=
  { state with
    bridge := (state.bridge.setPendingTransfer transferId
      (((state.bridge.pendingTransfer transferId).signed validator).settled
        state.bridge.validatorThreshold)).setValidator validator
          { state.bridge.validator validator with lastSignature := block.timestamp } }

variable {env} {caller : Address} {state next : State World} {block : BlockContext}

theorem verifyValidatorSignature_eq_true {bridge : ProtonBridge} {validator : Address}
    {transferId : Hash} {signature : Bytes} :
    verifyValidatorSignature env bridge validator transferId signature = .ok true ↔
      Authentic env validator transferId signature ∧
        (bridge.validator validator).isActive = true := by
  simp only [verifyValidatorSignature, bind_eq_ok, pure_eq_ok, Bool.and_eq_true,
    decide_eq_true_eq, Authentic]
  constructor
  · rintro ⟨⟨r, s, v⟩, split, same, active⟩
    exact ⟨⟨r, s, v, split, same⟩, active⟩
  · rintro ⟨⟨r, s, v, split, same⟩, active⟩
    exact ⟨⟨r, s, v⟩, split, same, active⟩

theorem signTransfer_eq_ok {transferId : Hash} {signature merkleProof : Bytes} :
    signTransfer env caller state block transferId signature merkleProof = .ok next ↔
      Signs env state caller transferId signature merkleProof ∧
        next = state.sign caller block transferId := by
  simp only [signTransfer, bind_eq_ok, ensure_eq_ok, record_eq_ok, pure_eq_ok]
  constructor
  · rintro ⟨-, registered, -, active, -, found, -, unexecuted, valid, verified, -, holds, answer,
      proved, -, granted, _, ⟨counts, rfl⟩, rfl⟩
    rw [holds, verifyValidatorSignature_eq_true] at verified
    rw [granted] at proved
    exact ⟨⟨registered, active, found, unexecuted, verified.1, proved, counts⟩, rfl⟩
  · rintro ⟨signs, rfl⟩
    have verified := verifyValidatorSignature_eq_true.mpr ⟨signs.authentic, signs.active⟩
    exact ⟨(), signs.registered, (), signs.active, (), signs.found, (), signs.unexecuted, true,
      verified, (), rfl, true, signs.proved, (), rfl, _, ⟨signs.counts, rfl⟩, rfl⟩

/-! ## Executions -/

/-- What an execution pays: wrapped tokens where there are some, else what was locked. -/
inductive Paid (env : BridgeEnv World) (state : State World) (transfer : PendingTransfer) :
    State World → Prop
  | minted (world : World) (wrapped : wrappedOf env state.bridge transfer ≠ Address.zero)
    (done : env.mint state.world (wrappedOf env state.bridge transfer) env.self transfer.receiver
      transfer.amount = some world) :
    Paid env state transfer { state with world := world }
  | released (locked : U256) (world : World)
    (unwrapped : wrappedOf env state.bridge transfer = Address.zero)
    (left : locked.toNat + transfer.amount.toNat =
      (state.bridge.lockedAsset
        (assetKey env.keccak256 transfer.sourceChain transfer.asset)).toNat)
    (done : env.erc20.transfer state.world transfer.asset env.self transfer.receiver
      transfer.amount = some world) :
    Paid env state transfer
      ⟨state.bridge.setLockedAsset (assetKey env.keccak256 transfer.sourceChain transfer.asset)
        locked, world⟩

/-- What an execution checks of the record. -/
structure Executable (env : BridgeEnv World) (bridge : ProtonBridge) (transferId : Hash) :
    Prop where
  found : (bridge.pendingTransfer transferId).transferId ≠ Hash.zero
  complete : (bridge.pendingTransfer transferId).status = .signaturesComplete
  here : (bridge.pendingTransfer transferId).targetChain = env.chainId
  fresh : transferId ∉ bridge.completedTransfers

def State.finish (paid : State World) (transferId : Hash) (transfer : PendingTransfer) :
    State World :=
  let bridge := paid.bridge.setPendingTransfer transferId { transfer with status := .executed }
  { paid with
    bridge := { bridge with completedTransfers := insert transferId bridge.completedTransfers } }

@[simp] theorem transferFrom_eq_ok {asset owner : Address} {amount : U256} {world world' : World} :
    transferFrom env asset owner amount world = .ok world' ↔
      env.erc20.transferFrom world asset env.self owner env.self amount = some world' := by
  rw [transferFrom]
  split <;> simp [*]

@[simp] theorem transfer_eq_ok {asset recipient : Address} {amount : U256}
    {world world' : World} :
    transfer env asset recipient amount world = .ok world' ↔
      env.erc20.transfer world asset env.self recipient amount = some world' := by
  rw [transfer]
  split <;> simp [*]

@[simp] theorem mintWrapped_eq_ok {wrapped recipient : Address} {amount : U256}
    {world world' : World} :
    mintWrapped env wrapped recipient amount world = .ok world' ↔
      env.mint world wrapped env.self recipient amount = some world' := by
  rw [mintWrapped]
  split <;> simp [*]

theorem releaseLocked_eq_ok {transfer : PendingTransfer} :
    releaseLocked env state transfer = .ok next ↔
      ∃ locked world,
        locked.toNat + transfer.amount.toNat = (state.bridge.lockedAsset
          (assetKey env.keccak256 transfer.sourceChain transfer.asset)).toNat ∧
        env.erc20.transfer state.world transfer.asset env.self transfer.receiver
          transfer.amount = some world ∧
        next = ⟨state.bridge.setLockedAsset
          (assetKey env.keccak256 transfer.sourceChain transfer.asset) locked, world⟩ := by
  simp only [releaseLocked, bind_eq_ok, ensure_eq_ok, sub_eq_ok, transfer_eq_ok, pure_eq_ok]
  constructor
  · rintro ⟨-, -, locked, left, world, done, rfl⟩
    exact ⟨locked, world, left, done, rfl⟩
  · rintro ⟨locked, world, left, done, rfl⟩
    exact ⟨(), (Nat.le_add_left _ _).trans_eq left, locked, left, world, done, rfl⟩

theorem payOut_eq_ok {transfer : PendingTransfer} :
    payOut env state transfer = .ok next ↔ Paid env state transfer next := by
  simp only [payOut]
  split
  next wrapped =>
    simp only [bind_eq_ok, mintWrapped_eq_ok, pure_eq_ok]
    constructor
    · rintro ⟨world, minted, rfl⟩
      exact .minted world wrapped minted
    · intro paid
      cases paid with
      | minted world _ minted => exact ⟨world, minted, rfl⟩
      | released _ _ unwrapped => exact absurd unwrapped wrapped
  next unwrapped =>
    have unwrapped := not_not.mp unwrapped
    rw [releaseLocked_eq_ok]
    constructor
    · rintro ⟨locked, world, left, sent, rfl⟩
      exact .released locked world unwrapped left sent
    · intro paid
      cases paid with
      | minted _ wrapped => exact absurd unwrapped wrapped
      | released locked world _ left sent => exact ⟨locked, world, left, sent, rfl⟩

theorem executeTransfer_eq_ok {transferId : Hash} :
    executeTransfer env state transferId = .ok next ↔
      Executable env state.bridge transferId ∧
        ∃ paid, Paid env state (state.bridge.pendingTransfer transferId) paid ∧
          next = paid.finish transferId (state.bridge.pendingTransfer transferId) := by
  simp only [executeTransfer, bind_eq_ok, ensure_eq_ok, payOut_eq_ok, pure_eq_ok]
  constructor
  · rintro ⟨-, found, -, complete, -, here, -, fresh, paid, done, rfl⟩
    exact ⟨⟨found, complete, here, fresh⟩, paid, done, rfl⟩
  · rintro ⟨⟨found, complete, here, fresh⟩, paid, done, rfl⟩
    exact ⟨(), found, (), complete, (), here, (), fresh, paid, done, rfl⟩

/-! ## New transfers -/

theorem initiateTransfer_ok {targetChain : U256} {receiver asset : Address} {amount : U256}
    {transferId : Hash}
    (done : initiateTransfer env caller state block targetChain receiver asset amount =
      .ok (transferId, next)) :
    transferId = transferIdOf env.keccak256 targetChain caller receiver asset amount block ∧
      transferId ∉ state.bridge.completedTransfers ∧
      env.erc20.transferFrom state.world asset env.self caller env.self amount =
        some next.world ∧
      ∃ locked, locked.toNat =
          (state.bridge.lockedAsset (assetKey env.keccak256 targetChain asset)).toNat +
            amount.toNat ∧
        next.bridge = { (state.bridge.setLockedAsset
            (assetKey env.keccak256 targetChain asset) locked).setPendingTransfer transferId
              ((state.bridge.pendingTransfer transferId).initiate transferId env.chainId
                targetChain caller receiver asset amount block) with
          pendingTransferIds := state.bridge.pendingTransferIds ++ [transferId] } := by
  simp only [initiateTransfer, bind_eq_ok, ensure_eq_ok, transferFrom_eq_ok, add_eq_ok,
    pure_eq_ok] at done
  obtain ⟨-, -, -, fresh, world, paid, locked, grown, same⟩ := done
  obtain ⟨rfl, rfl⟩ := Prod.mk.inj same
  exact ⟨rfl, fresh, paid, locked, grown, rfl⟩

theorem initiatePrivateTransfer_ok {targetChain : U256} {stealthReceiver : Hash}
    {asset : Address} {encryptedAmount amountCommitment nullifier : Hash} {zkProof : Bytes}
    {transferId : Hash}
    (done : initiatePrivateTransfer env caller state block targetChain stealthReceiver asset
      encryptedAmount amountCommitment nullifier zkProof = .ok (transferId, next)) :
    transferId = privateTransferIdOf env.keccak256 targetChain caller stealthReceiver asset
        encryptedAmount block ∧
      next.world = state.world ∧
      ∃ locked, locked.toNat =
          (state.bridge.lockedAsset (assetKey env.keccak256 targetChain asset)).toNat + 1 ∧
        next.bridge = { (state.bridge.setLockedAsset
            (assetKey env.keccak256 targetChain asset) locked).setPendingTransfer transferId
              { (state.bridge.pendingTransfer transferId).initiate transferId env.chainId
                  targetChain caller Address.zero asset 0 block with
                encryptedAmount := encryptedAmount
                stealthReceiver := stealthReceiver } with
          pendingTransferIds := state.bridge.pendingTransferIds ++ [transferId] } := by
  simp only [initiatePrivateTransfer, bind_eq_ok, add_eq_ok, pure_eq_ok] at done
  obtain ⟨-, -, -, -, -, -, locked, grown, same⟩ := done
  obtain ⟨rfl, rfl⟩ := Prod.mk.inj same
  exact ⟨rfl, rfl, locked, grown, rfl⟩

end Calls

end ProtonChain.Solidity.ProtonBridge
