import ProtonChain.Solidity.BridgeCalls

/-! A transfer that validators sign one after the other.

Valid signatures of active validators go through as long as the transfer is there and not
executed. The counter grows by the flags that are new.
-/

set_option autoImplicit false

namespace ProtonChain

/-- There are not more addresses than their bytes can tell apart. -/
theorem Address.card_le (addresses : Finset Address) : addresses.card ≤ 256 ^ 20 := by
  rw [← Finset.card_image_of_injective addresses Address.value_injective,
    ← Finset.card_range (256 ^ 20)]
  apply Finset.card_le_card
  intro value member
  obtain ⟨address, -, rfl⟩ := Finset.mem_image.mp member
  have small := Address.bigEndian_lt address.asBytes.toList
  rw [List.Vector.toList_length] at small
  exact Finset.mem_range.mpr small

namespace Solidity.ProtonBridge

open Checked

/-- What a validator sends to sign a transfer. -/
structure Signature where
  validator : Address
  block : BlockContext
  signature : Bytes
  merkleProof : Bytes

def Signature.input (World : Type) (transferId : Hash) (given : Signature) : Input World :=
  .call given.validator given.block
    (.signTransfer transferId given.signature given.merkleProof)

/-- The signature and the proof are valid, and the validator is registered and active. -/
structure Signature.Valid {World : Type} (env : BridgeEnv World) (state : State World)
    (transferId : Hash) (given : Signature) : Prop where
  registered : (state.bridge.validator given.validator).addr ≠ Address.zero
  active : (state.bridge.validator given.validator).isActive = true
  authentic : Authentic env given.validator transferId given.signature
  proved : verifyMerkleProof env state given.merkleProof transferId = .ok true

/-- The record is there and not executed, and no signature is counted without its flag. -/
structure PendingTransfer.Waiting (transfer : PendingTransfer) : Prop where
  found : transfer.transferId ≠ Hash.zero
  unexecuted : transfer.status ≠ .executed
  counted : transfer.signatureCount.toNat ≤ transfer.signatures.card

theorem PendingTransfer.Waiting.counts {transfer : PendingTransfer} (waiting : transfer.Waiting) :
    transfer.signatureCount.toNat + 1 < 2 ^ 256 := by
  -- there are far fewer addresses than values of the counter
  have most := Address.card_le transfer.signatures
  have counted := waiting.counted
  have room : 256 ^ 20 + 1 < 2 ^ 256 := by decide
  omega

/-- What signatures of the validators change: the record of the transfer, up to its flags, its
counter and its status, and when each validator has signed last. -/
structure Collected {World : Type} (transferId : Hash) (before after : State World)
    (signers : Finset Address) : Prop where
  world : after.world = before.world
  config : after.bridge = { before.bridge with
    pendingTransfers := after.bridge.pendingTransfers
    validators := after.bridge.validators }
  validators : ∀ address,
    (after.bridge.validator address).addr = (before.bridge.validator address).addr ∧
      (after.bridge.validator address).isActive = (before.bridge.validator address).isActive
  fields : (after.bridge.pendingTransfer transferId).core =
    (before.bridge.pendingTransfer transferId).core
  flags : (after.bridge.pendingTransfer transferId).signatures =
    (before.bridge.pendingTransfer transferId).signatures ∪ signers
  count : (after.bridge.pendingTransfer transferId).signatureCount.toNat +
      (before.bridge.pendingTransfer transferId).signatures.card =
    (before.bridge.pendingTransfer transferId).signatureCount.toNat +
      (after.bridge.pendingTransfer transferId).signatures.card

section Collected
variable {World : Type} {transferId : Hash} {before between after : State World}
  {signers later : Finset Address}

theorem Collected.refl (state : State World) : Collected transferId state state ∅ where
  world := rfl
  config := rfl
  validators _ := ⟨rfl, rfl⟩
  fields := rfl
  flags := (Finset.union_empty _).symm
  count := rfl

theorem Collected.trans (first : Collected transferId before between signers)
    (second : Collected transferId between after later) :
    Collected transferId before after (signers ∪ later) where
  world := second.world.trans first.world
  config := by
    rw [second.config, first.config]
  validators address :=
    ⟨(second.validators address).1.trans (first.validators address).1,
      (second.validators address).2.trans (first.validators address).2⟩
  fields := second.fields.trans first.fields
  flags := by
    rw [second.flags, first.flags, Finset.union_assoc]
  count := by
    have one := first.count
    have two := second.count
    omega

theorem record_sign (state : State World) (validator : Address) (block : BlockContext)
    (transferId : Hash) :
    (state.sign validator block transferId).bridge.pendingTransfer transferId =
      ((state.bridge.pendingTransfer transferId).signed validator).settled
        state.bridge.validatorThreshold :=
  (pendingTransfer_setPendingTransfer state.bridge transferId _ transferId).trans (if_pos rfl)

theorem collected_sign {state : State World} (validator : Address) (block : BlockContext)
    (counts : (state.bridge.pendingTransfer transferId).signatureCount.toNat + 1 < 2 ^ 256) :
    Collected transferId state (state.sign validator block transferId) {validator} where
  world := rfl
  config := rfl
  validators address := by
    have written := validator_setValidator (state.bridge.setPendingTransfer transferId
      (((state.bridge.pendingTransfer transferId).signed validator).settled
        state.bridge.validatorThreshold)) validator
          { state.bridge.validator validator with lastSignature := block.timestamp } address
    rw [State.sign, written]
    split
    next same =>
      subst same
      exact ⟨rfl, rfl⟩
    next => exact ⟨rfl, rfl⟩
  fields := by
    rw [record_sign, core_settled_signed]
  flags := by
    rw [record_sign, PendingTransfer.settled, signatures_signed, Finset.union_comm]
    rfl
  count := by
    rw [record_sign, PendingTransfer.settled, PendingTransfer.signed]
    split
    next => rfl
    next fresh =>
      rw [BitVec.toNat_add_of_lt counts, Finset.card_insert_of_notMem fresh]
      change _ + 1 + _ = _
      omega

variable {env : BridgeEnv World} {given : Signature}

theorem Collected.waiting (collected : Collected transferId before after signers)
    (unexecuted : (after.bridge.pendingTransfer transferId).status ≠ .executed)
    (waiting : (before.bridge.pendingTransfer transferId).Waiting) :
    (after.bridge.pendingTransfer transferId).Waiting where
  found := by
    have named := congrArg PendingTransfer.transferId collected.fields
    exact ne_of_eq_of_ne named waiting.found
  unexecuted := unexecuted
  counted := by
    have counted := waiting.counted
    have grown := collected.count
    omega

theorem Collected.valid (collected : Collected transferId before after signers)
    (valid : given.Valid env before transferId) : given.Valid env after transferId where
  registered := by
    rw [(collected.validators given.validator).1]
    exact valid.registered
  active := by
    rw [(collected.validators given.validator).2]
    exact valid.active
  authentic := valid.authentic
  proved := by
    rw [verifyMerkleProof, collected.world, collected.config]
    exact valid.proved

/-! ## Runs -/

def State.signAll (transferId : Hash) (state : State World) (signatures : List Signature) :
    State World :=
  signatures.foldl (fun state given => state.sign given.validator given.block transferId) state

theorem step_signature {state : State World} (valid : given.Valid env state transferId)
    (waiting : (state.bridge.pendingTransfer transferId).Waiting) :
    step env state (given.input World transferId) =
      (.ok (), state.sign given.validator given.block transferId) := by
  apply Transactions.step_of_ok
  refine signTransfer_eq_ok.mpr ⟨?_, rfl⟩
  exact ⟨valid.registered, valid.active, waiting.found, waiting.unexecuted, valid.authentic,
    valid.proved, .inr waiting.counts⟩

theorem waiting_sign {state : State World} (validator : Address) (block : BlockContext)
    (waiting : (state.bridge.pendingTransfer transferId).Waiting) :
    ((state.sign validator block transferId).bridge.pendingTransfer transferId).Waiting := by
  refine (collected_sign validator block waiting.counts).waiting ?_ waiting
  rw [record_sign, PendingTransfer.settled]
  split <;> simp

theorem run_signatures {state : State World} {signatures : List Signature}
    (valid : ∀ given ∈ signatures, given.Valid env state transferId)
    (waiting : (state.bridge.pendingTransfer transferId).Waiting) :
    Runs.run (step env) state (signatures.map (Signature.input World transferId)) =
      (signatures.map fun _ => .ok (), state.signAll transferId signatures) := by
  induction signatures generalizing state with
  | nil => rfl
  | cons given rest ih =>
    -- the first signature leaves the record waiting and the other signatures valid
    have collected := collected_sign given.validator given.block waiting.counts
    have later := @ih (state.sign given.validator given.block transferId)
      (fun other member => collected.valid (valid other (List.mem_cons_of_mem given member)))
      (waiting_sign given.validator given.block waiting)
    rw [List.map_cons, Runs.run_cons,
      step_signature (valid given List.mem_cons_self) waiting, later]
    rfl

theorem collected_signAll {state : State World}
    (waiting : (state.bridge.pendingTransfer transferId).Waiting) (signatures : List Signature) :
    Collected transferId state (state.signAll transferId signatures)
        (signatures.map Signature.validator).toFinset ∧
      ((state.signAll transferId signatures).bridge.pendingTransfer transferId).Waiting := by
  induction signatures generalizing state with
  | nil => exact ⟨.refl state, waiting⟩
  | cons given rest ih =>
    obtain ⟨collected, still⟩ := ih (waiting_sign given.validator given.block waiting)
    refine ⟨?_, still⟩
    have both := (collected_sign given.validator given.block waiting.counts).trans collected
    rw [List.map_cons, List.toFinset_cons, ← Finset.singleton_union]
    exact both

theorem status_signAll {state : State World}
    (waiting : (state.bridge.pendingTransfer transferId).Waiting) {signatures : List Signature}
    (some : signatures ≠ []) :
    ((state.signAll transferId signatures).bridge.pendingTransfer transferId).status =
        .signaturesComplete ↔
      state.bridge.validatorThreshold.toNat ≤
        ((state.signAll transferId signatures).bridge.pendingTransfer
          transferId).signatureCount.toNat := by
  induction signatures using List.reverseRecOn with
  | nil => exact absurd rfl some
  | append_singleton signatures last ih =>
    -- the signatures before the last leave the threshold as it is
    have threshold : (state.signAll transferId signatures).bridge.validatorThreshold =
        state.bridge.validatorThreshold := by
      rw [(collected_signAll waiting signatures).1.config]
    have signed : state.signAll transferId (signatures ++ [last]) =
        (state.signAll transferId signatures).sign last.validator last.block transferId := by
      rw [State.signAll, List.foldl_append]
      rfl
    rw [signed, record_sign, threshold, PendingTransfer.settled]
    simp [BitVec.le_def]

end Collected

end Solidity.ProtonBridge

end ProtonChain
