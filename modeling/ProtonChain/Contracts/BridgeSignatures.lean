import ProtonChain.Contracts.Bridge
import ProtonChain.Library.History

/-! Who has signed a transfer that counts as completely signed.

The list of signatures only grows, and nothing compares a new signature with those that
are there. The decision is taken when the list reaches the length of the threshold, and
the list does not change afterwards.
-/

set_option autoImplicit false

namespace ProtonChain.Contracts.ProtonBridge

open Checked

def PendingTransfer.signers (transfer : PendingTransfer) : List Address :=
  transfer.signatures.map Prod.fst

/-- As many different validators as the threshold asks for have signed. -/
def Attested (threshold : U16) (transfer : PendingTransfer) : Prop :=
  ∃ signers : Finset Address, threshold.toNat ≤ signers.card ∧
    ∀ validator ∈ signers, validator ∈ transfer.signers

theorem attested_iff (threshold : U16) (transfer : PendingTransfer) :
    Attested threshold transfer ↔ threshold.toNat ≤ transfer.signers.toFinset.card := by
  constructor
  · intro ⟨signers, enough, signed⟩
    apply enough.trans
    apply Finset.card_le_card
    intro validator member
    exact List.mem_toFinset.mpr (signed validator member)
  · intro enough
    exact ⟨transfer.signers.toFinset, enough, fun validator => List.mem_toFinset.mp⟩

/-- The list can still grow: it is empty or shorter than the threshold. -/
def Open (threshold : U16) (transfer : PendingTransfer) : Prop :=
  transfer.signatures.length = 0 ∨ transfer.signatures.length < threshold.toNat

theorem nodup_of_length_le_card {signers : List Address}
    (enough : signers.length ≤ signers.toFinset.card) : signers.Nodup := by
  have exact := Nat.le_antisymm (List.toFinset_card_le signers) enough
  rw [← Multiset.coe_card] at exact
  exact Multiset.toFinset_card_eq_card_iff_nodup.mp exact

section Push
variable {threshold : U16} {transfer : PendingTransfer} (room : Open threshold transfer)
  (validator : Address) (signature : Bytes)

@[simp] theorem signers_push :
    (transfer.push threshold validator signature).signers = transfer.signers ++ [validator] := by
  simp [PendingTransfer.signers, PendingTransfer.push]

@[simp] theorem length_signatures_push :
    (transfer.push threshold validator signature).signatures.length =
      transfer.signatures.length + 1 := by
  simp [PendingTransfer.push]

@[simp] theorem length_signers : transfer.signers.length = transfer.signatures.length := by
  simp [PendingTransfer.signers]

include room

/-- The length is not cut off: a list that can still grow is shorter than the threshold. -/
theorem status_push :
    (transfer.push threshold validator signature).status =
      if threshold.toNat ≤ transfer.signatures.length + 1 then .signaturesComplete
      else .sourceConfirmed := by
  have small := threshold.isLt
  have fits : transfer.signatures.length + 1 < 2 ^ 16 := by
    rcases room with empty | shorter <;> omega
  have whole : (transfer.signatures.length + 1) % 65536 = transfer.signatures.length + 1 :=
    Nat.mod_eq_of_lt fits
  simp [PendingTransfer.push, BitVec.le_def, whole]

/-- A list that has just reached the length of the threshold has so many signers if none is
listed twice. -/
theorem attested_push (complete : threshold.toNat ≤ transfer.signatures.length + 1) :
    Attested threshold (transfer.push threshold validator signature) ↔
      threshold = 0 ∨ (validator :: transfer.signers).Nodup := by
  have same : (transfer.push threshold validator signature).signers.toFinset =
      (validator :: transfer.signers).toFinset := by
    ext other
    simp
  rw [attested_iff, same]
  have zero : threshold = 0 ↔ threshold.toNat = 0 := (BitVec.toNat_inj (y := 0)).symm
  constructor
  · intro enough
    by_cases none : threshold = 0
    · exact .inl none
    · right
      rw [zero] at none
      -- the list has just reached the threshold, so as many signers as entries are asked for
      apply nodup_of_length_le_card
      rw [List.length_cons, length_signers]
      refine Nat.le_trans ?_ enough
      rcases room with empty | shorter <;> omega
  · rintro (none | distinct)
    · rw [zero.mp none]
      exact Nat.zero_le _
    · rw [List.toFinset_card_of_nodup distinct]
      simpa using complete

end Push

/-! ## What inputs do to the records -/

/-- Who signs which transfer. -/
def Input.signing {World : Type} : Input World → Option (Address × Hash)
  | .call context (.signTransfer transferId _ _) => some (context.caller, transferId)
  | _ => none

section Effects
variable {World : Type} (host : BridgeHost World)

def SignedBy (transferId : Hash) (validator : Address) (state : State World)
    (input : Input World) : Prop :=
  Transactions.Succeeds (perform host) state input ∧ ∃ context signature merkleProof,
    input = .call context (.signTransfer transferId signature merkleProof) ∧
      context.caller = validator ∧
      (∃ info, state.bridge.validators.lookup validator = some info ∧ info.isActive = true) ∧
      host.verifyValidatorSignature state.world validator transferId signature = true

/-- The pending transfers after an input that goes through. -/
inductive Effect (state : State World) (input : Input World) :
    HashMap Hash PendingTransfer → Prop
  | kept (quiet : input.signing = none) : Effect state input state.bridge.pendingTransfers
  | initiated (quiet : input.signing = none) (transferId : Hash) (transfer : PendingTransfer)
    (unsigned : transfer.signatures = []) (pending : transfer.status = .pending) :
    Effect state input (state.bridge.pendingTransfers.insert transferId transfer)
  | signed (transferId : Hash) (validator : Address) (signature : Bytes)
    (transfer : PendingTransfer) (signs : SignedBy host transferId validator state input)
    (found : state.bridge.pendingTransfers.lookup transferId = some transfer)
    (incomplete : transfer.status ≠ .signaturesComplete) :
    Effect state input (state.bridge.pendingTransfers.insert transferId
      (transfer.push state.bridge.validatorThreshold validator signature))
  | executed (quiet : input.signing = none) (transferId : Hash) :
    Effect state input (state.bridge.pendingTransfers.erase transferId)

variable {host} {state next : State World} {input : Input World}

theorem SignedBy.signing {transferId : Hash} {validator : Address}
    (signed : SignedBy host transferId validator state input) :
    input.signing = some (validator, transferId) := by
  obtain ⟨-, context, signature, merkleProof, rfl, rfl, -⟩ := signed
  rfl

theorem Effect.forall {after : HashMap Hash PendingTransfer}
    (effect : Effect host state input after) {P : Hash → PendingTransfer → Prop}
    (before : ∀ transferId transfer,
      state.bridge.pendingTransfers.lookup transferId = some transfer → P transferId transfer)
    (fresh : ∀ transferId transfer, transfer.signatures = [] → transfer.status = .pending →
      P transferId transfer)
    (pushed : ∀ transferId validator signature transfer,
      SignedBy host transferId validator state input →
        state.bridge.pendingTransfers.lookup transferId = some transfer →
          transfer.status ≠ .signaturesComplete →
            P transferId (transfer.push state.bridge.validatorThreshold validator signature)) :
    ∀ transferId transfer, after.lookup transferId = some transfer → P transferId transfer := by
  cases effect with
  | kept => exact before
  | initiated _ transferId transfer unsigned pending =>
    exact FiniteMap.forall_lookup_insert (fresh transferId transfer unsigned pending) before
  | signed transferId validator signature transfer signs found incomplete =>
    exact FiniteMap.forall_lookup_insert
      (pushed transferId validator signature transfer signs found incomplete) before
  | executed _ transferId => exact FiniteMap.forall_lookup_erase transferId before

theorem payOut_kept {transfer : PendingTransfer} (paid : payOut host state transfer = .ok next) :
    next.bridge.pendingTransfers = state.bridge.pendingTransfers ∧
      next.bridge.validatorThreshold = state.bridge.validatorThreshold := by
  simp only [payOut] at paid
  split at paid
  · simp only [bind_eq_ok, pure_eq_ok] at paid
    obtain ⟨world, -, rfl⟩ := paid
    exact ⟨rfl, rfl⟩
  · simp only [bind_eq_ok, pure_eq_ok] at paid
    obtain ⟨-, -, locked, -, world, -, rfl⟩ := paid
    exact ⟨rfl, rfl⟩

theorem perform_effect (performed : perform host state input = .ok next) :
    Effect host state input next.bridge.pendingTransfers ∧
      next.bridge.validatorThreshold = state.bridge.validatorThreshold := by
  have succeeds : Transactions.Succeeds (perform host) state input := ⟨next, performed⟩
  cases input with
  | outside world =>
    obtain rfl := Except.ok.inj performed
    exact ⟨.kept rfl, rfl⟩
  | call context call =>
    cases call with
    | addChain chainId bridgeContract confirmationBlocks =>
      simp only [perform, addChain, bind_eq_ok, pure_eq_ok] at performed
      obtain ⟨-, -, -, -, rfl⟩ := performed
      exact ⟨.kept rfl, rfl⟩
    | registerWrappedAsset chainId remoteAsset localAsset =>
      simp only [perform, registerWrappedAsset, bind_eq_ok, pure_eq_ok] at performed
      obtain ⟨-, -, rfl⟩ := performed
      exact ⟨.kept rfl, rfl⟩
    | addValidator validator stake =>
      simp only [perform, addValidator, bind_eq_ok, pure_eq_ok] at performed
      obtain ⟨-, -, rfl⟩ := performed
      exact ⟨.kept rfl, rfl⟩
    | initiateTransfer targetChain receiver asset amount =>
      simp only [perform, initiateTransfer, bind_eq_ok, pure_eq_ok] at performed
      obtain ⟨_, ⟨chain, -, -, -, -, -, world, -, locked, -, rfl⟩, rfl⟩ := performed
      exact ⟨.initiated rfl _ _ rfl rfl, rfl⟩
    | initiatePrivateTransfer targetChain stealthReceiver asset encryptedAmount amountCommitment
        zkProof =>
      simp only [perform, initiatePrivateTransfer, bind_eq_ok, pure_eq_ok] at performed
      obtain ⟨_, ⟨-, -, world, -, rfl⟩, rfl⟩ := performed
      exact ⟨.initiated rfl _ _ rfl rfl, rfl⟩
    | signTransfer transferId signature merkleProof =>
      simp only [perform, signTransfer, bind_eq_ok, ensure_eq_ok, demand_eq_ok, pure_eq_ok]
        at performed
      obtain ⟨info, registered, -, active, transfer, found, -, waiting, -, valid, -, -, rfl⟩ :=
        performed
      refine ⟨.signed transferId context.caller signature transfer ?_ found ?_, rfl⟩
      · exact ⟨succeeds, context, signature, merkleProof, rfl, rfl, ⟨info, registered, active⟩,
          valid⟩
      · rcases waiting with pending | confirmed <;> simp [*]
    | executeTransfer transferId =>
      simp only [perform, executeTransfer, bind_eq_ok, pure_eq_ok] at performed
      obtain ⟨transfer, -, -, -, -, -, -, -, paid, done, rfl⟩ := performed
      obtain ⟨transfers, threshold⟩ := payOut_kept done
      simp only [transfers]
      exact ⟨.executed rfl transferId, threshold⟩
    | updateMerkleRoot chainId newRoot zkProof =>
      simp only [perform, updateMerkleRoot, bind_eq_ok, pure_eq_ok] at performed
      obtain ⟨-, -, rfl⟩ := performed
      exact ⟨.kept rfl, rfl⟩

end Effects

/-! ## Runs -/

/-- As long as a transfer is not completely signed, its list can grow. -/
def Growing {World : Type} (state : State World) : Prop :=
  ∀ transferId transfer, state.bridge.pendingTransfers.lookup transferId = some transfer →
    transfer.status ≠ .signaturesComplete → Open state.bridge.validatorThreshold transfer

/-- Every completely signed transfer has as many different signers as the threshold. -/
def CompleteAttested {World : Type} (state : State World) : Prop :=
  ∀ transferId transfer, state.bridge.pendingTransfers.lookup transferId = some transfer →
    transfer.status = .signaturesComplete → Attested state.bridge.validatorThreshold transfer

/-- The signature that completes a transfer finds different signers, none of them its own. -/
def CompletesDistinct {World : Type} (state : State World) (input : Input World) : Prop :=
  ∀ validator transferId transfer, input.signing = some (validator, transferId) →
    state.bridge.pendingTransfers.lookup transferId = some transfer →
      state.bridge.validatorThreshold.toNat ≤ transfer.signatures.length + 1 →
        state.bridge.validatorThreshold = 0 ∨ (validator :: transfer.signers).Nodup

/-- Nobody signs a transfer that carries a signature of the same validator. -/
def SignsAnew {World : Type} (state : State World) (input : Input World) : Prop :=
  ∀ validator transferId transfer, input.signing = some (validator, transferId) →
    state.bridge.pendingTransfers.lookup transferId = some transfer →
      validator ∉ transfer.signers

section Runs
variable {World : Type} {host : BridgeHost World} {state next : State World}
  {input : Input World}

theorem perform_growing (growing : Growing state)
    (performed : perform host state input = .ok next) : Growing next := by
  obtain ⟨effect, threshold⟩ := perform_effect performed
  rw [Growing, threshold]
  apply effect.forall growing
  · intro transferId transfer unsigned _ _
    exact .inl (by rw [unsigned]; rfl)
  · intro transferId validator signature transfer _ found incomplete short
    have room := growing transferId transfer found incomplete
    -- a list that is not complete after the push is still shorter than the threshold
    rw [status_push room] at short
    right
    rw [length_signatures_push]
    by_contra long
    exact short (if_pos (Nat.le_of_not_lt long))

theorem attested_of_completesDistinct (growing : Growing state) (attested : CompleteAttested state)
    (distinct : CompletesDistinct state input) (performed : perform host state input = .ok next) :
    CompleteAttested next := by
  obtain ⟨effect, threshold⟩ := perform_effect performed
  rw [CompleteAttested, threshold]
  apply effect.forall attested
  · intro transferId transfer _ pending complete
    rw [pending] at complete
    cases complete
  · intro transferId validator signature transfer signs found incomplete complete
    have room := growing transferId transfer found incomplete
    rw [status_push room] at complete
    split at complete
    next enough =>
      exact (attested_push room validator signature enough).mpr
        (distinct validator transferId transfer signs.signing found enough)
    next => cases complete

theorem completesDistinct_of_attested (growing : Growing state)
    (performed : perform host state input = .ok next) (attested : CompleteAttested next) :
    CompletesDistinct state input := by
  obtain ⟨effect, threshold⟩ := perform_effect performed
  rw [CompleteAttested, threshold] at attested
  generalize next.bridge.pendingTransfers = after at effect attested
  intro validator transferId transfer signing found complete
  -- only a signature can complete a transfer
  cases effect with
  | kept quiet => simp [quiet] at signing
  | initiated quiet => simp [quiet] at signing
  | executed quiet => simp [quiet] at signing
  | signed written signer signature record signs present incomplete =>
    obtain ⟨rfl, rfl⟩ := Prod.mk.inj (Option.some.inj (signs.signing.symm.trans signing))
    obtain rfl := Option.some.inj (present.symm.trans found)
    have room := growing written record present incomplete
    apply (attested_push room signer signature complete).mp
    apply attested written _ (by rw [Finmap.lookup_insert])
    rw [status_push room, if_pos complete]

/-- No signer is listed twice. -/
def Separate (state : State World) : Prop :=
  ∀ transferId transfer, state.bridge.pendingTransfers.lookup transferId = some transfer →
    transfer.signers.Nodup

theorem perform_separate (separate : Separate state) (anew : SignsAnew state input)
    (performed : perform host state input = .ok next) : Separate next := by
  apply (perform_effect performed).1.forall separate
  · intro transferId transfer unsigned _
    rw [PendingTransfer.signers, unsigned]
    exact List.nodup_nil
  · intro transferId validator signature transfer signs found _
    rw [signers_push, List.nodup_append_comm]
    exact List.nodup_cons.mpr ⟨anew validator transferId transfer signs.signing found,
      separate transferId transfer found⟩

theorem SignsAnew.completesDistinct (anew : SignsAnew state input) (separate : Separate state) :
    CompletesDistinct state input := by
  intro validator transferId transfer signing found _
  right
  exact List.nodup_cons.mpr ⟨anew validator transferId transfer signing found,
    separate transferId transfer found⟩

/-- Whoever is listed has signed in the run. -/
def Traced (host : BridgeHost World) (start : State World) (inputs : List (Input World))
    (state : State World) : Prop :=
  ∀ transferId transfer, state.bridge.pendingTransfers.lookup transferId = some transfer →
    ∀ validator ∈ transfer.signers,
      Runs.Occurs (step host) (SignedBy host transferId validator) start inputs

theorem traced_run (host : BridgeHost World) {start : State World}
    (empty : start.bridge.pendingTransfers = ∅) (inputs : List (Input World)) :
    Traced host start inputs (Runs.run (step host) start inputs).2 := by
  refine @Runs.history _ _ _ (step host) (Traced host start) start ?_ ?_ inputs
  · intro transferId transfer found
    rw [empty, Finmap.lookup_empty] at found
    cases found
  · intro inputs last traced
    have kept : Traced host start (inputs ++ [last]) (Runs.run (step host) start inputs).2 := by
      intro transferId transfer found validator member
      exact (Runs.occurs_concat _ _ _ _ _).mpr
        (.inl (traced transferId transfer found validator member))
    apply Transactions.step_keeps kept
    intro next performed
    apply (perform_effect performed).1.forall kept
    · intro transferId transfer unsigned _ validator member
      rw [PendingTransfer.signers, unsigned] at member
      cases member
    · intro transferId signer signature transfer signs found _ validator member
      rw [signers_push] at member
      -- the entry was there before, or it is the one of this input
      rcases List.mem_append.mp member with earlier | last
      · exact kept transferId transfer found validator earlier
      · obtain rfl := List.mem_singleton.mp last
        exact (Runs.occurs_concat _ _ _ _ _).mpr (.inr signs)

end Runs

/-- In every run of a bridge whoever is listed with a transfer has signed it, and the completely
signed transfers have as many different signers as the threshold asks for exactly if each signature
that completes a transfer finds different signers, none of them its own. Where nobody signs a
transfer twice this is so. -/
theorem complete_attested_iff {World : Type} (host : BridgeHost World) (threshold : U16)
    (world : World) (inputs : List (Input World)) :
    Traced host ⟨new threshold, world⟩ inputs
        (Runs.run (step host) ⟨new threshold, world⟩ inputs).2 ∧
      (Runs.Visits (step host) CompleteAttested ⟨new threshold, world⟩ inputs ↔
        Runs.Meets (step host)
          (fun state input =>
            Transactions.Succeeds (perform host) state input → CompletesDistinct state input)
          ⟨new threshold, world⟩ inputs) ∧
      (Runs.Meets (step host)
          (fun state input =>
            Transactions.Succeeds (perform host) state input → SignsAnew state input)
          ⟨new threshold, world⟩ inputs →
        Runs.Visits (step host) CompleteAttested ⟨new threshold, world⟩ inputs) := by
  have growing : Growing (⟨new threshold, world⟩ : State World) := by
    intro transferId transfer found
    rw [new, Finmap.lookup_empty] at found
    cases found
  have attested : CompleteAttested (⟨new threshold, world⟩ : State World) := by
    intro transferId transfer found
    rw [new, Finmap.lookup_empty] at found
    cases found
  have separate : Separate (⟨new threshold, world⟩ : State World) := by
    intro transferId transfer found
    rw [new, Finmap.lookup_empty] at found
    cases found
  refine ⟨traced_run host rfl inputs, ?_, fun meets => ?_⟩
  · refine @Transactions.visits_iff_meets _ _ _ (perform host) CompleteAttested Growing
      (fun _ _ => True) CompletesDistinct ?_ ?_ _ attested growing inputs
        ((Runs.meets_const _ (fun _ => True) _ inputs).mpr fun _ _ => trivial)
    · intro state input next growing attested _ performed
      exact ⟨completesDistinct_of_attested growing performed,
        fun distinct => attested_of_completesDistinct growing attested distinct performed⟩
    · intro state input next growing _ performed
      exact perform_growing growing performed
  · let Kept (state : State World) : Prop :=
      Growing state ∧ CompleteAttested state ∧ Separate state
    have initial : Kept ⟨new threshold, world⟩ := ⟨growing, attested, separate⟩
    have visits : Runs.Visits (step host) Kept ⟨new threshold, world⟩ inputs := by
      refine Transactions.visits_of_keeps ?_ initial inputs meets
      intro state input next ⟨growing, attested, separate⟩ signs performed
      have anew := signs ⟨next, performed⟩
      exact ⟨perform_growing growing performed,
        attested_of_completesDistinct growing attested (anew.completesDistinct separate) performed,
        perform_separate separate anew performed⟩
    intro earlier later split
    exact (visits earlier later split).2.1

namespace Sample

/-- A chain with id 1 where every proof and every signature is taken. -/
def host : BridgeHost Unit where
  selfAddress := Sample.address 8
  chainId := 1
  sha3 := Sample.sha3
  callerIsOwner _ caller := caller = Sample.address 9
  transferFrom _ _ _ _ _ := some ()
  transfer _ _ _ _ := some ()
  mintWrappedTokens _ _ _ _ := some ()
  lockPrivateAssets _ _ _ _ := some ()
  verifyBridgeAmountProof _ _ _ _ := true
  verifyValidatorSignature _ _ _ _ := true
  verifyMerkleProof _ _ _ := true
  verifyMerkleUpdateProof _ _ _ _ := true

def call (caller : UInt8) (call : Call) : Input Unit :=
  .call ⟨Sample.address caller, 0, List.Vector.replicate 32 0⟩ call

def transferId : Hash :=
  generateTransferId host ⟨Sample.address 3, 0, List.Vector.replicate 32 0⟩ 1 (Sample.address 3)
    (Sample.address 6) (Sample.address 1) 100

/-- The only validator signs a transfer twice. -/
def signedTwice : List (Input Unit) :=
  [call 9 (.addChain 1 (Sample.address 8) 1), call 9 (.addValidator (Sample.address 4) 1),
    call 3 (.initiateTransfer 1 (Sample.address 6) (Sample.address 1) 100),
    call 4 (.signTransfer transferId [] []), call 4 (.signTransfer transferId [] [])]

def forged : Option PendingTransfer :=
  (Runs.run (step host) ⟨new 2, ()⟩ signedTwice).2.bridge.pendingTransfers.lookup transferId

end Sample

/-- With a threshold of two, one validator completes a transfer alone. -/
theorem one_validator_signs_twice :
    ¬ Runs.Visits (step Sample.host) CompleteAttested ⟨new 2, ()⟩ Sample.signedTwice := by
  intro visits
  have attested := visits Sample.signedTwice [] (List.append_nil _).symm
  have found : Sample.forged = some (Sample.forged.get (by decide +kernel)) := by simp
  have enough := attested Sample.transferId _ found (by decide +kernel)
  rw [attested_iff] at enough
  exact absurd enough (by decide +kernel)

end ProtonChain.Contracts.ProtonBridge
