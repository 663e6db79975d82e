import Mathlib.Logic.Function.Basic
import ProtonChain.Solidity.BridgeCalls

/-! The books of the bridge: the records of transfers and their ids in the order in which they
came in, what is completed and what is locked.

Each input that goes through changes the books in one of a few ways. The calls that only
configure the bridge change nothing in them.
-/

set_option autoImplicit false

namespace ProtonChain.Solidity.ProtonBridge

open Checked

@[ext] structure Books where
  record : Hash → PendingTransfer
  ids : List Hash
  completed : Finset Hash
  locked : Hash → Nat

namespace Books
variable (books : Books)

def entered (transferId : Hash) (transfer : PendingTransfer) (key : Hash) (amount : Nat) :
    Books :=
  { books with
    record := Function.update books.record transferId transfer
    ids := books.ids ++ [transferId]
    locked := Function.update books.locked key (books.locked key + amount) }

def signed (transferId : Hash) (validator : Address) (threshold : U256) : Books :=
  { books with
    record := Function.update books.record transferId
      (((books.record transferId).signed validator).settled threshold) }

def released (key : Hash) (amount : Nat) : Books :=
  { books with locked := Function.update books.locked key (books.locked key - amount) }

def finished (transferId : Hash) : Books :=
  { books with
    record := Function.update books.record transferId
      { books.record transferId with status := .executed }
    completed := insert transferId books.completed }

theorem core_signed (transferId : Hash) (validator : Address) (threshold : U256) (other : Hash) :
    ((books.signed transferId validator threshold).record other).core =
      (books.record other).core := by
  by_cases own : other = transferId
  · subst own
    simp only [signed, Function.update_self, core_settled_signed]
  · simp only [Books.signed, Function.update_of_ne own]

theorem core_finished (transferId other : Hash) :
    ((books.finished transferId).record other).core = (books.record other).core := by
  by_cases own : other = transferId
  · subst own
    simp only [Books.finished, Function.update_self]
    rfl
  · simp only [Books.finished, Function.update_of_ne own]

theorem locked_entered (transferId : Hash) (transfer : PendingTransfer) (key : Hash) (amount : Nat)
    (other : Hash) :
    (books.entered transferId transfer key amount).locked other =
      books.locked other + if other = key then amount else 0 := by
  simp only [entered, Function.update_apply]
  split
  next own => rw [own]
  next => rfl

theorem locked_released {key : Hash} {amount : Nat} (covered : amount ≤ books.locked key)
    (other : Hash) :
    (books.released key amount).locked other + (if other = key then amount else 0) =
      books.locked other := by
  simp only [released, Function.update_apply]
  split
  next own =>
    rw [own]
    exact Nat.sub_add_cancel covered
  next => rfl

end Books

def books (bridge : ProtonBridge) : Books where
  record := bridge.pendingTransfer
  ids := bridge.pendingTransferIds
  completed := bridge.completedTransfers
  locked key := (bridge.lockedAsset key).toNat

section Maps
variable (bridge : ProtonBridge)

theorem pendingTransfer_update (transferId : Hash) (transfer : PendingTransfer) :
    (bridge.setPendingTransfer transferId transfer).pendingTransfer =
      Function.update bridge.pendingTransfer transferId transfer := by
  funext other
  rw [pendingTransfer_setPendingTransfer, Function.update_apply]

theorem lockedAsset_update (key : Hash) (amount : U256) :
    (fun other => ((bridge.setLockedAsset key amount).lockedAsset other).toNat) =
      Function.update (fun other => (bridge.lockedAsset other).toNat) key amount.toNat := by
  funext other
  rw [lockedAsset_setLockedAsset, Function.update_apply]
  split <;> rfl

end Maps

/-! ## Effects -/

section Effects
variable {World : Type}

def Input.governs : Input World → Bool
  | .call _ _ (.initiateTransfer _ _ _ _) => false
  | .call _ _ (.initiatePrivateTransfer _ _ _ _ _ _ _) => false
  | .call _ _ (.signTransfer _ _ _) => false
  | .call _ _ (.executeTransfer _) => false
  | .outside _ _ => false
  | _ => true

/-- What an input that goes through does to the books and the world. -/
inductive Effect (env : BridgeEnv World) (state : State World) :
    Input World → Books → World → Prop
  | initiated (caller : Address) (block : BlockContext) (targetChain : U256)
    (receiver asset : Address) (amount : U256) (transferId key : Hash) (world : World)
    (named : transferId = transferIdOf env.keccak256 targetChain caller receiver asset amount block)
    (keyed : key = assetKey env.keccak256 targetChain asset)
    (fresh : transferId ∉ state.bridge.books.completed)
    (paid : env.erc20.transferFrom state.world asset env.self caller env.self amount =
      some world) :
    Effect env state (.call caller block (.initiateTransfer targetChain receiver asset amount))
      (state.bridge.books.entered transferId
        ((state.bridge.books.record transferId).initiate transferId env.chainId targetChain caller
          receiver asset amount block) key amount.toNat) world
  | privatelyInitiated (caller : Address) (block : BlockContext) (targetChain : U256)
    (stealthReceiver : Hash) (asset : Address) (encryptedAmount amountCommitment nullifier : Hash)
    (zkProof : Bytes) (transferId key : Hash)
    (named : transferId = privateTransferIdOf env.keccak256 targetChain caller stealthReceiver asset
      encryptedAmount block)
    (keyed : key = assetKey env.keccak256 targetChain asset) :
    Effect env state
      (.call caller block (.initiatePrivateTransfer targetChain stealthReceiver asset
        encryptedAmount amountCommitment nullifier zkProof))
      (state.bridge.books.entered transferId
        { (state.bridge.books.record transferId).initiate transferId env.chainId targetChain caller
            Address.zero asset 0 block with
          encryptedAmount := encryptedAmount
          stealthReceiver := stealthReceiver } key 1) state.world
  | signed (caller : Address) (block : BlockContext) (transferId : Hash)
    (signature merkleProof : Bytes)
    (signs : Signs env state caller transferId signature merkleProof) :
    Effect env state (.call caller block (.signTransfer transferId signature merkleProof))
      (state.bridge.books.signed transferId caller state.bridge.validatorThreshold) state.world
  | minted (caller : Address) (block : BlockContext) (transferId : Hash) (world : World)
    (executable : Executable env state.bridge transferId)
    (wrapped : wrappedOf env state.bridge (state.bridge.books.record transferId) ≠ Address.zero)
    (done : env.mint state.world
      (wrappedOf env state.bridge (state.bridge.books.record transferId)) env.self
      (state.bridge.books.record transferId).receiver
      (state.bridge.books.record transferId).amount = some world) :
    Effect env state (.call caller block (.executeTransfer transferId))
      (state.bridge.books.finished transferId) world
  | released (caller : Address) (block : BlockContext) (transferId key : Hash) (world : World)
    (executable : Executable env state.bridge transferId)
    (unwrapped : wrappedOf env state.bridge (state.bridge.books.record transferId) = Address.zero)
    (keyed : key = assetKey env.keccak256 (state.bridge.books.record transferId).sourceChain
      (state.bridge.books.record transferId).asset)
    (covered : (state.bridge.books.record transferId).amount.toNat ≤
      state.bridge.books.locked key)
    (done : env.erc20.transfer state.world (state.bridge.books.record transferId).asset env.self
      (state.bridge.books.record transferId).receiver
      (state.bridge.books.record transferId).amount = some world) :
    Effect env state (.call caller block (.executeTransfer transferId))
      ((state.bridge.books.released key
        (state.bridge.books.record transferId).amount.toNat).finished transferId) world
  | governed (input : Input World) (governs : input.governs = true) :
    Effect env state input state.bridge.books state.world
  | outside (world : World) (owner : Address) :
    Effect env state (.outside world owner) state.bridge.books world

variable {env : BridgeEnv World} {state next : State World} {input : Input World}

theorem setParameter_ok {caller : Address} {change : ProtonBridge → ProtonBridge}
    (done : setParameter caller state change = .ok next) :
    next = { state with bridge := change state.bridge } := by
  simp only [setParameter, bind_eq_ok, ensure_eq_ok, pure_eq_ok] at done
  obtain ⟨-, -, rfl⟩ := done
  rfl

/-- Calls that configure the bridge keep the books and the world, and only a deactivation ends
the activity of a validator. -/
theorem perform_governed (governs : input.governs = true)
    (performed : perform env state input = .ok next) :
    next.bridge.books = state.bridge.books ∧ next.world = state.world ∧
      ∀ validator, (state.bridge.validator validator).isActive = true →
        (∀ caller block, input ≠ .call caller block (.deactivateValidator validator)) →
          (next.bridge.validator validator).isActive = true := by
  cases input with
  | outside world owner => cases governs
  | call caller block call =>
    cases call with
    | addChain chainId bridgeContract confirmationBlocks =>
      simp only [perform, addChain, bind_eq_ok, pure_eq_ok] at performed
      obtain ⟨-, -, -, -, rfl⟩ := performed
      exact ⟨rfl, rfl, fun validator active _ => active⟩
    | addValidator address stake =>
      simp only [perform, addValidator, bind_eq_ok, pure_eq_ok] at performed
      obtain ⟨-, -, -, -, _, -, rfl⟩ := performed
      refine ⟨rfl, rfl, fun validator active _ => ?_⟩
      change ((state.bridge.setValidator address _).validator validator).isActive = true
      rw [validator_setValidator]
      split
      · rfl
      · exact active
    | updateMerkleRoot chainId newRoot zkProof =>
      simp only [perform, updateMerkleRoot, bind_eq_ok, pure_eq_ok] at performed
      obtain ⟨-, -, -, -, rfl⟩ := performed
      exact ⟨rfl, rfl, fun validator active _ => active⟩
    | registerWrappedAsset chainId remoteAsset localAsset =>
      simp only [perform, registerWrappedAsset] at performed
      rw [setParameter_ok performed]
      exact ⟨rfl, rfl, fun validator active _ => active⟩
    | setValidatorThreshold newThreshold =>
      simp only [perform, setValidatorThreshold] at performed
      rw [setParameter_ok performed]
      exact ⟨rfl, rfl, fun validator active _ => active⟩
    | setZKVerifier newVerifier =>
      simp only [perform, setZKVerifier] at performed
      rw [setParameter_ok performed]
      exact ⟨rfl, rfl, fun validator active _ => active⟩
    | deactivateChain chainId =>
      simp only [perform, deactivateChain] at performed
      rw [setParameter_ok performed]
      exact ⟨rfl, rfl, fun validator active _ => active⟩
    | deactivateValidator address =>
      simp only [perform, deactivateValidator] at performed
      rw [setParameter_ok performed]
      refine ⟨rfl, rfl, fun validator active kept => ?_⟩
      rw [validator_setValidator, if_neg]
      · exact active
      · rintro rfl
        exact kept caller block rfl
    | initiateTransfer => cases governs
    | initiatePrivateTransfer => cases governs
    | signTransfer => cases governs
    | executeTransfer => cases governs

theorem books_entered {transferId key : Hash} {transfer : PendingTransfer} {locked : U256}
    {amount : Nat} {bridge after : ProtonBridge}
    (grown : locked.toNat = (bridge.lockedAsset key).toNat + amount)
    (same : after = { (bridge.setLockedAsset key locked).setPendingTransfer transferId transfer with
      pendingTransferIds := bridge.pendingTransferIds ++ [transferId] }) :
    after.books = bridge.books.entered transferId transfer key amount := by
  subst same
  apply Books.ext
  · exact pendingTransfer_update (bridge.setLockedAsset key locked) transferId transfer
  · rfl
  · rfl
  · refine (lockedAsset_update bridge key locked).trans ?_
    rw [grown]
    rfl

theorem books_sign (caller : Address) (block : BlockContext) (transferId : Hash) :
    (state.sign caller block transferId).bridge.books =
      state.bridge.books.signed transferId caller state.bridge.validatorThreshold := by
  apply Books.ext
  · exact pendingTransfer_update state.bridge transferId _
  · rfl
  · rfl
  · rfl

theorem books_finish (paid : State World) (transferId : Hash) (transfer : PendingTransfer)
    (kept : paid.bridge.pendingTransfer transferId = transfer) :
    (paid.finish transferId transfer).bridge.books = paid.bridge.books.finished transferId := by
  subst kept
  apply Books.ext
  · exact pendingTransfer_update paid.bridge transferId _
  · rfl
  · rfl
  · rfl

theorem books_release {bridge : ProtonBridge} {key : Hash} {locked : U256} {amount : Nat}
    (left : locked.toNat + amount = (bridge.lockedAsset key).toNat) :
    (bridge.setLockedAsset key locked).books = bridge.books.released key amount := by
  apply Books.ext
  · rfl
  · rfl
  · rfl
  · refine (lockedAsset_update bridge key locked).trans ?_
    rw [Nat.eq_sub_of_add_eq left]
    rfl

theorem books_finish_release {key : Hash} {locked : U256} (world : World) (transferId : Hash)
    (left : locked.toNat + (state.bridge.pendingTransfer transferId).amount.toNat =
      (state.bridge.lockedAsset key).toNat) :
    ((⟨state.bridge.setLockedAsset key locked, world⟩ : State World).finish transferId
        (state.bridge.pendingTransfer transferId)).bridge.books =
      (state.bridge.books.released key
        (state.bridge.pendingTransfer transferId).amount.toNat).finished transferId := by
  rw [← books_release left]
  exact books_finish ⟨state.bridge.setLockedAsset key locked, world⟩ transferId _ rfl

theorem perform_effect (performed : perform env state input = .ok next) :
    Effect env state input next.bridge.books next.world := by
  by_cases governs : input.governs = true
  · obtain ⟨books, world, -⟩ := perform_governed governs performed
    rw [books, world]
    exact .governed input governs
  · cases input with
    | outside world owner =>
      obtain rfl := Except.ok.inj performed
      exact .outside world owner
    | call caller block call =>
      cases call with
      | initiateTransfer targetChain receiver asset amount =>
        simp only [perform, bind_eq_ok, pure_eq_ok] at performed
        obtain ⟨⟨transferId, _⟩, done, rfl⟩ := performed
        obtain ⟨named, fresh, paid, locked, grown, same⟩ := initiateTransfer_ok done
        rw [books_entered grown same]
        exact .initiated caller block targetChain receiver asset amount transferId _ _ named rfl
          fresh paid
      | initiatePrivateTransfer targetChain stealthReceiver asset encryptedAmount amountCommitment
          nullifier zkProof =>
        simp only [perform, bind_eq_ok, pure_eq_ok] at performed
        obtain ⟨⟨transferId, _⟩, done, rfl⟩ := performed
        obtain ⟨named, world, locked, grown, same⟩ := initiatePrivateTransfer_ok done
        rw [books_entered grown same, world]
        exact .privatelyInitiated caller block targetChain stealthReceiver asset encryptedAmount
          amountCommitment nullifier zkProof transferId _ named rfl
      | signTransfer transferId signature merkleProof =>
        obtain ⟨signs, rfl⟩ := signTransfer_eq_ok.mp performed
        rw [books_sign]
        exact .signed caller block transferId signature merkleProof signs
      | executeTransfer transferId =>
        obtain ⟨executable, paid, pays, rfl⟩ := executeTransfer_eq_ok.mp performed
        cases pays with
        | minted world wrapped done =>
          rw [books_finish _ _ _ rfl]
          exact .minted caller block transferId world executable wrapped done
        | released locked world unwrapped left done =>
          rw [books_finish_release world transferId left]
          exact .released caller block transferId _ world executable unwrapped rfl
            ((Nat.le_add_left _ _).trans_eq left) done
      | _ => exact absurd rfl governs

end Effects

end ProtonChain.Solidity.ProtonBridge
