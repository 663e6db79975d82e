import ProtonChain.Solidity.ActiveValidators
import ProtonChain.Solidity.BridgeBooks

/-! What the views of the bridge say of a whole run.

A validator that is deactivated stays in the list, and the zero address, which no check finds,
can be put there any number of times. The list of pending transfers is never shortened.
-/

set_option autoImplicit false

namespace ProtonChain.Solidity.ProtonBridge

open Checked

/-! ## Views -/

section Views
variable (bridge : ProtonBridge)

def getTransferStatus (transferId : Hash) : TransferStatus :=
  (bridge.pendingTransfer transferId).status

end Views

/-! ## The validators -/

section Validators
variable {World : Type} {env : BridgeEnv World} {state next : State World} {input : Input World}

end Validators

/-! ## The transfers -/

/-- The listed ids are those with a record, and what is completed is among them. -/
structure Filed (books : Books) : Prop where
  named : ∀ transferId ∈ books.ids, (books.record transferId).transferId = transferId
  found : ∀ transferId, (books.record transferId).transferId ≠ Hash.zero →
    transferId ∈ books.ids
  completed : ∀ transferId ∈ books.completed, transferId ∈ books.ids

section Transfers
variable {books : Books}

theorem Filed.entered (filed : Filed books) {transferId key : Hash} {transfer : PendingTransfer}
    (named : transfer.transferId = transferId) (amount : Nat) :
    Filed (books.entered transferId transfer key amount) := by
  refine ⟨fun other member => ?_, fun other found => ?_, fun other member => ?_⟩
  · change (Function.update books.record transferId transfer other).transferId = other
    rw [Function.update_apply]
    split
    next own => rw [own, named]
    next apart =>
      rcases List.mem_append.mp member with before | last
      · exact filed.named other before
      · exact absurd (List.mem_singleton.mp last) apart
  · change (Function.update books.record transferId transfer other).transferId ≠ _ at found
    rw [Function.update_apply] at found
    refine List.mem_append.mpr ?_
    split at found
    next own => exact .inr (List.mem_singleton.mpr own)
    next => exact .inl (filed.found other found)
  · exact List.mem_append_left _ (filed.completed other member)

/-- Records that keep their ids, and completed ones that have one. -/
theorem Filed.congr {after : Books} (filed : Filed books) (ids : after.ids = books.ids)
    (records : ∀ transferId,
      (after.record transferId).transferId = (books.record transferId).transferId)
    (completed : ∀ transferId ∈ after.completed, transferId ∈ books.ids) : Filed after := by
  refine ⟨fun transferId member => ?_, fun transferId found => ?_, fun transferId member => ?_⟩
  · rw [records]
    exact filed.named transferId (ids ▸ member)
  · rw [ids]
    exact filed.found transferId (records transferId ▸ found)
  · rw [ids]
    exact completed transferId member

theorem Filed.finished (filed : Filed books) {transferId : Hash}
    (found : (books.record transferId).transferId ≠ Hash.zero) :
    Filed (books.finished transferId) := by
  refine filed.congr rfl (fun other => ?_) fun other member => ?_
  · have core := congrArg PendingTransfer.transferId (books.core_finished transferId other)
    exact core
  · rcases Finset.mem_insert.mp member with rfl | before
    · exact filed.found other found
    · exact filed.completed other before

theorem Effect.filed {World : Type} {env : BridgeEnv World} {state : State World}
    {input : Input World} {after : Books} {world : World}
    (effect : Effect env state input after world) (filed : Filed state.bridge.books) :
    Filed after ∧ state.bridge.books.ids <+: after.ids := by
  cases effect with
  | initiated caller block targetChain receiver asset amount transferId =>
    refine ⟨filed.entered ?_ _, List.prefix_append _ _⟩
    rfl
  | privatelyInitiated caller block targetChain stealthReceiver asset encryptedAmount
      amountCommitment nullifier zkProof transferId =>
    refine ⟨filed.entered ?_ _, List.prefix_append _ _⟩
    rfl
  | signed caller block transferId =>
    refine ⟨filed.congr rfl (fun other => ?_) filed.completed, List.prefix_refl _⟩
    have core := congrArg PendingTransfer.transferId
      (state.bridge.books.core_signed transferId caller state.bridge.validatorThreshold other)
    exact core
  | minted caller block transferId world executable =>
    exact ⟨filed.finished executable.found, List.prefix_refl _⟩
  | released caller block transferId key world executable =>
    have released : Filed (state.bridge.books.released key
        (state.bridge.books.record transferId).amount.toNat) :=
      filed.congr rfl (fun _ => rfl) filed.completed
    exact ⟨released.finished executable.found, List.prefix_refl _⟩
  | governed => exact ⟨filed, List.prefix_refl _⟩
  | outside => exact ⟨filed, List.prefix_refl _⟩

end Transfers

/-! ## Runs -/

section Runs
variable {World : Type} (env : BridgeEnv World)

def reached (deployer : Address) (validatorThreshold : U256) (zkVerifier : Address) (world : World)
    (inputs : List (Input World)) : State World :=
  (Runs.run (step env) ⟨ProtonBridge.new deployer validatorThreshold zkVerifier, world⟩ inputs).2

end Runs

end ProtonChain.Solidity.ProtonBridge
