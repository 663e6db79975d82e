import ProtonChain.Solidity.BridgeExecutions
import ProtonChain.Solidity.BridgeSigning

/-! A transfer that one bridge initiates and another one is to complete.

Signatures and executions look for the record of a transfer in their own contract, and only
an initiating call of this contract writes one. Nothing carries a record from one bridge to
the other.
-/

set_option autoImplicit false

namespace ProtonChain.Solidity.ProtonBridge

open Checked

/-- Two bridges of different chains that support each other's chain and have the same
validators. -/
structure Paired {Near Far : Type} (near : BridgeEnv Near) (far : BridgeEnv Far)
    (first second : ProtonBridge) : Prop where
  apart : near.chainId ≠ far.chainId
  there : (first.supportedChain far.chainId).isActive = true
  back : (second.supportedChain near.chainId).isActive = true
  shared : first.validators = second.validators

section Completion
variable {World : Type} (env : BridgeEnv World) (state : State World) (transferId : Hash)
  (receiver : Address) (amount : U256) (signatures : List Signature)

/-- All signatures go through and then the execution does, which mints or releases the amount
to the receiver. -/
def Completes : Prop :=
  ∃ final next, Runs.run (step env) state (signatures.map (Signature.input World transferId)) =
      (signatures.map fun _ => .ok (), final) ∧
    executeTransfer env final transferId = .ok next ∧
      ∃ transfer paid, transfer.receiver = receiver ∧ transfer.amount = amount ∧
        Paid env final transfer paid ∧ next = paid.finish transferId transfer

def Payable (transfer : PendingTransfer) : Prop :=
  (wrappedOf env state.bridge transfer ≠ Address.zero →
    ∃ world, env.mint state.world (wrappedOf env state.bridge transfer) env.self transfer.receiver
      transfer.amount = some world) ∧
  (wrappedOf env state.bridge transfer = Address.zero →
    transfer.amount.toNat ≤ (state.bridge.lockedAsset
        (assetKey env.keccak256 transfer.sourceChain transfer.asset)).toNat ∧
      ∃ world, env.erc20.transfer state.world transfer.asset env.self transfer.receiver
        transfer.amount = some world)

/-- The bridge has a record of its own under the id, of the same receiver and amount and for its
own chain, which waits for the signatures, becomes complete with them and can be paid. -/
structure Prepared : Prop where
  found : (state.bridge.pendingTransfer transferId).transferId ≠ Hash.zero
  unexecuted : (state.bridge.pendingTransfer transferId).status ≠ .executed
  here : (state.bridge.pendingTransfer transferId).targetChain = env.chainId
  fresh : transferId ∉ state.bridge.completedTransfers
  receiver : (state.bridge.pendingTransfer transferId).receiver = receiver
  amount : (state.bridge.pendingTransfer transferId).amount = amount
  complete : signatures = [] →
    (state.bridge.pendingTransfer transferId).status = .signaturesComplete
  enough : signatures ≠ [] → state.bridge.validatorThreshold.toNat ≤
    (state.bridge.pendingTransfer transferId).signatureCount.toNat +
      ((signatures.map Signature.validator).toFinset \
        (state.bridge.pendingTransfer transferId).signatures).card
  payable : Payable env state (state.bridge.pendingTransfer transferId)

end Completion

/-! ## Payments -/

section Payments
variable {World : Type} {env : BridgeEnv World} {state before after next : State World}
  {transfer : PendingTransfer} {transferId : Hash} {receiver : Address} {amount : U256}
  {signatures : List Signature} {signers : Finset Address}

theorem payable_iff : (∃ paid, Paid env state transfer paid) ↔ Payable env state transfer := by
  constructor
  · rintro ⟨paid, pays⟩
    cases pays with
    | minted world wrapped done => exact ⟨fun _ => ⟨world, done⟩, fun none => absurd none wrapped⟩
    | released locked world unwrapped left done =>
      exact ⟨fun wrapped => absurd unwrapped wrapped,
        fun _ => ⟨(Nat.le_add_left _ _).trans_eq left, world, done⟩⟩
  · intro payable
    by_cases wrapped : wrappedOf env state.bridge transfer = Address.zero
    · obtain ⟨covered, world, done⟩ := payable.2 wrapped
      refine ⟨_, .released (state.bridge.lockedAsset
        (assetKey env.keccak256 transfer.sourceChain transfer.asset) - transfer.amount) world
          wrapped ?_ done⟩
      rw [BitVec.toNat_sub_of_le covered]
      exact Nat.sub_add_cancel covered
    · obtain ⟨world, done⟩ := payable.1 wrapped
      exact ⟨_, .minted world wrapped done⟩

theorem Collected.payable (collected : Collected transferId before after signers) :
    Payable env after (after.bridge.pendingTransfer transferId) ↔
      Payable env before (before.bridge.pendingTransfer transferId) := by
  have wrapped (transfer : PendingTransfer) :
      wrappedOf env after.bridge transfer = wrappedOf env before.bridge transfer := by
    rw [collected.config]
    rfl
  have locked (key : Hash) : after.bridge.lockedAsset key = before.bridge.lockedAsset key := by
    rw [collected.config]
    rfl
  change Payable env after (after.bridge.pendingTransfer transferId).core ↔
    Payable env before (before.bridge.pendingTransfer transferId).core
  rw [collected.fields, Payable, Payable, wrapped, locked, collected.world]

theorem record_finish (paid : State World) (transferId : Hash) (transfer : PendingTransfer) :
    (paid.finish transferId transfer).bridge.pendingTransfer transferId =
      { transfer with status := .executed } :=
  (pendingTransfer_setPendingTransfer paid.bridge transferId _ transferId).trans (if_pos rfl)

theorem pays_iff :
    (∃ next, executeTransfer env state transferId = .ok next ∧
      ∃ transfer paid, transfer.receiver = receiver ∧ transfer.amount = amount ∧
        Paid env state transfer paid ∧ next = paid.finish transferId transfer) ↔
      Executable env state.bridge transferId ∧
        Payable env state (state.bridge.pendingTransfer transferId) ∧
        (state.bridge.pendingTransfer transferId).receiver = receiver ∧
        (state.bridge.pendingTransfer transferId).amount = amount := by
  constructor
  · rintro ⟨next, executed, transfer, paid, rfl, rfl, -, same⟩
    obtain ⟨executable, paid', pays, rfl⟩ := executeTransfer_eq_ok.mp executed
    -- the record that the execution leaves shows which transfer was paid
    have records := congrArg (fun state => state.bridge.pendingTransfer transferId) same
    rw [record_finish, record_finish] at records
    have receiver := congrArg PendingTransfer.receiver records
    have amount := congrArg PendingTransfer.amount records
    exact ⟨executable, payable_iff.mp ⟨paid', pays⟩, receiver, amount⟩
  · rintro ⟨executable, payable, receiver, amount⟩
    obtain ⟨paid, pays⟩ := payable_iff.mpr payable
    exact ⟨_, executeTransfer_eq_ok.mpr ⟨executable, paid, pays, rfl⟩, _, paid, receiver, amount,
      pays, rfl⟩

end Payments

/-! ## Completion -/

section Completion
variable {World : Type} {env : BridgeEnv World} {state : State World} {transferId : Hash}
  {receiver : Address} {amount : U256} {signatures : List Signature} {signers : Finset Address}

theorem Collected.count_eq {before after : State World}
    (collected : Collected transferId before after signers) :
    (after.bridge.pendingTransfer transferId).signatureCount.toNat =
      (before.bridge.pendingTransfer transferId).signatureCount.toNat +
        (signers \ (before.bridge.pendingTransfer transferId).signatures).card := by
  have count := collected.count
  have union := Finset.card_sdiff_add_card signers
    (before.bridge.pendingTransfer transferId).signatures
  rw [collected.flags, Finset.union_comm, ← union] at count
  omega

theorem Collected.receiver_amount {before after : State World}
    (collected : Collected transferId before after signers) :
    (after.bridge.pendingTransfer transferId).receiver =
        (before.bridge.pendingTransfer transferId).receiver ∧
      (after.bridge.pendingTransfer transferId).amount =
        (before.bridge.pendingTransfer transferId).amount := by
  have receivers := congrArg PendingTransfer.receiver collected.fields
  have amounts := congrArg PendingTransfer.amount collected.fields
  exact ⟨receivers, amounts⟩

theorem complete_signAll (waiting : (state.bridge.pendingTransfer transferId).Waiting) :
    ((state.signAll transferId signatures).bridge.pendingTransfer transferId).status =
        .signaturesComplete ↔
      (signatures = [] →
        (state.bridge.pendingTransfer transferId).status = .signaturesComplete) ∧
      (signatures ≠ [] → state.bridge.validatorThreshold.toNat ≤
        (state.bridge.pendingTransfer transferId).signatureCount.toNat +
          ((signatures.map Signature.validator).toFinset \
            (state.bridge.pendingTransfer transferId).signatures).card) := by
  by_cases none : signatures = []
  · subst none
    simp [State.signAll]
  · rw [status_signAll waiting none, (collected_signAll waiting signatures).1.count_eq]
    simp [none]

theorem executable_signAll (waiting : (state.bridge.pendingTransfer transferId).Waiting) :
    Executable env (state.signAll transferId signatures).bridge transferId ↔
      (state.bridge.pendingTransfer transferId).targetChain = env.chainId ∧
        transferId ∉ state.bridge.completedTransfers ∧
        ((state.signAll transferId signatures).bridge.pendingTransfer transferId).status =
          .signaturesComplete := by
  obtain ⟨collected, still⟩ := collected_signAll waiting signatures
  have target : ((state.signAll transferId signatures).bridge.pendingTransfer
      transferId).targetChain = (state.bridge.pendingTransfer transferId).targetChain := by
    have cores := congrArg PendingTransfer.targetChain collected.fields
    exact cores
  have completed : (state.signAll transferId signatures).bridge.completedTransfers =
      state.bridge.completedTransfers := by
    rw [collected.config]
  constructor
  · rintro ⟨-, complete, here, fresh⟩
    rw [target] at here
    rw [completed] at fresh
    exact ⟨here, fresh, complete⟩
  · rintro ⟨here, fresh, complete⟩
    exact ⟨still.found, complete, target.trans here, by rwa [completed]⟩

theorem Completes.found (completes : Completes env state transferId receiver amount signatures) :
    (state.bridge.pendingTransfer transferId).transferId ≠ Hash.zero ∧
      (state.bridge.pendingTransfer transferId).status ≠ .executed := by
  obtain ⟨final, next, ran, executed, -⟩ := completes
  cases signatures with
  | nil =>
    obtain ⟨-, rfl⟩ := Prod.mk.inj ran
    obtain ⟨executable, -⟩ := executeTransfer_eq_ok.mp executed
    exact ⟨executable.found, by rw [executable.complete]; simp⟩
  | cons given rest =>
    -- the first signature has gone through
    rw [List.map_cons, Runs.run_cons] at ran
    have first : (step env state (given.input World transferId)).1 = .ok () :=
      (List.cons.inj (congrArg Prod.fst ran)).1
    obtain ⟨signed, performed⟩ := Transactions.succeeds_of_step first
    have signs := (signTransfer_eq_ok.mp performed).1
    exact ⟨signs.found, signs.unexecuted⟩

theorem completes_iff_prepared
    (counted : (state.bridge.pendingTransfer transferId).signatureCount.toNat ≤
      (state.bridge.pendingTransfer transferId).signatures.card)
    (valid : ∀ given ∈ signatures, given.Valid env state transferId) :
    Completes env state transferId receiver amount signatures ↔
      Prepared env state transferId receiver amount signatures := by
  constructor
  · intro completes
    obtain ⟨found, unexecuted⟩ := completes.found
    have waiting : (state.bridge.pendingTransfer transferId).Waiting :=
      ⟨found, unexecuted, counted⟩
    have collected := (collected_signAll waiting signatures).1
    obtain ⟨final, next, ran, executed, pays⟩ := completes
    rw [run_signatures valid waiting] at ran
    obtain rfl := (Prod.mk.inj ran).2
    obtain ⟨executable, payable, receivers, amounts⟩ := pays_iff.mp ⟨next, executed, pays⟩
    obtain ⟨here, fresh, decided⟩ := (executable_signAll waiting).mp executable
    obtain ⟨complete, enough⟩ := (complete_signAll waiting).mp decided
    rw [collected.receiver_amount.1] at receivers
    rw [collected.receiver_amount.2] at amounts
    exact ⟨found, unexecuted, here, fresh, receivers, amounts, complete, enough,
      collected.payable.mp payable⟩
  · intro prepared
    have waiting : (state.bridge.pendingTransfer transferId).Waiting :=
      ⟨prepared.found, prepared.unexecuted, counted⟩
    have collected := (collected_signAll waiting signatures).1
    have executable := (@executable_signAll _ env _ _ signatures waiting).mpr
      ⟨prepared.here, prepared.fresh,
        (complete_signAll waiting).mpr ⟨prepared.complete, prepared.enough⟩⟩
    obtain ⟨next, executed, pays⟩ := pays_iff.mpr ⟨executable,
      collected.payable.mpr prepared.payable,
      collected.receiver_amount.1.trans prepared.receiver,
      collected.receiver_amount.2.trans prepared.amount⟩
    exact ⟨_, next, run_signatures valid waiting, executed, pays⟩

def Enters (env : BridgeEnv World) (transferId : Hash) (state : State World)
    (input : Input World) : Prop :=
  Transactions.Succeeds (perform env) state input ∧
    ((∃ caller block targetChain receiver asset amount,
      input = .call caller block (.initiateTransfer targetChain receiver asset amount) ∧
        transferId = transferIdOf env.keccak256 targetChain caller receiver asset amount block) ∨
    ∃ caller block targetChain stealthReceiver asset encryptedAmount amountCommitment nullifier
        zkProof,
      input = .call caller block (.initiatePrivateTransfer targetChain stealthReceiver asset
        encryptedAmount amountCommitment nullifier zkProof) ∧
        transferId = privateTransferIdOf env.keccak256 targetChain caller stealthReceiver asset
          encryptedAmount block)

theorem perform_named {next : State World} {input : Input World}
    (performed : perform env state input = .ok next) (transferId : Hash) :
    (next.bridge.books.record transferId).transferId =
        (state.bridge.books.record transferId).transferId ∨
      Enters env transferId state input := by
  have succeeds : Transactions.Succeeds (perform env) state input := ⟨next, performed⟩
  have effect := perform_effect performed
  generalize next.bridge.books = books at effect
  generalize next.world = world at effect
  cases effect with
  | initiated caller block targetChain receiver asset amount other key world named =>
    by_cases own : transferId = other
    · exact .inr ⟨succeeds, .inl ⟨caller, block, targetChain, receiver, asset, amount, rfl,
        own.trans named⟩⟩
    · simp only [Books.entered, Function.update_of_ne own, true_or]
  | privatelyInitiated caller block targetChain stealthReceiver asset encryptedAmount
      amountCommitment nullifier zkProof other key named =>
    by_cases own : transferId = other
    · exact .inr ⟨succeeds, .inr ⟨caller, block, targetChain, stealthReceiver, asset,
        encryptedAmount, amountCommitment, nullifier, zkProof, rfl, own.trans named⟩⟩
    · simp only [Books.entered, Function.update_of_ne own, true_or]
  | signed caller block other =>
    have cores := Books.core_signed state.bridge.books other caller
      state.bridge.validatorThreshold transferId
    have named := congrArg PendingTransfer.transferId cores
    exact .inl named
  | minted caller block other =>
    have named := congrArg PendingTransfer.transferId
      (Books.core_finished state.bridge.books other transferId)
    exact .inl named
  | released caller block other key =>
    have named := congrArg PendingTransfer.transferId
      (Books.core_finished (state.bridge.books.released key
        (state.bridge.books.record other).amount.toNat) other transferId)
    exact .inl named
  | governed => exact .inl rfl
  | outside => exact .inl rfl

theorem entered_run (env : BridgeEnv World) {start : State World}
    (empty : (start.bridge.books.record transferId).transferId = Hash.zero)
    (inputs : List (Input World)) :
    ((Runs.run (step env) start inputs).2.bridge.books.record transferId).transferId ≠ Hash.zero →
      Runs.Occurs (step env) (Enters env transferId) start inputs := by
  refine @Runs.history _ _ _ (step env)
    (fun inputs state => (state.bridge.books.record transferId).transferId ≠ Hash.zero →
      Runs.Occurs (step env) (Enters env transferId) start inputs) start ?_ ?_ inputs
  · intro found
    exact absurd empty found
  · intro inputs last earlier found
    rw [Runs.occurs_concat]
    by_cases succeeds : Transactions.Succeeds (perform env)
        (Runs.run (step env) start inputs).2 last
    · obtain ⟨next, performed⟩ := succeeds
      have moved : (step env (Runs.run (step env) start inputs).2 last).2 = next :=
        congrArg Prod.snd (Transactions.step_of_ok performed)
      rw [moved] at found
      rcases perform_named performed transferId with kept | enters
      · rw [kept] at found
        exact .inl (earlier found)
      · exact .inr enters
    · have stayed : (step env (Runs.run (step env) start inputs).2 last).2 = _ :=
        Transactions.step_of_not_succeeds succeeds
      rw [stayed] at found
      exact .inl (earlier found)

end Completion

/-- A transfer that one bridge initiates for the chain of another one is completed there by valid
signatures exactly if the other bridge has a record of its own under the id, and such a record was
written by a call of the other bridge. -/
theorem completes_iff {Near Far : Type} (near : BridgeEnv Near) (far : BridgeEnv Far)
    (caller receiver asset : Address) (block : BlockContext) (amount : U256)
    (state next : State Near) (transferId : Hash)
    (initiated : initiateTransfer near caller state block far.chainId receiver asset amount =
      .ok (transferId, next))
    (deployer : Address) (threshold : U256) (zkVerifier : Address) (world : Far)
    (inputs : List (Input Far)) (signatures : List Signature)
    (valid : ∀ given ∈ signatures, given.Valid far
      (Runs.run (step far) ⟨ProtonBridge.new deployer threshold zkVerifier, world⟩ inputs).2
      transferId) :
    (Completes far
        (Runs.run (step far) ⟨ProtonBridge.new deployer threshold zkVerifier, world⟩ inputs).2
        transferId (next.bridge.pendingTransfer transferId).receiver
        (next.bridge.pendingTransfer transferId).amount signatures ↔
      Prepared far
        (Runs.run (step far) ⟨ProtonBridge.new deployer threshold zkVerifier, world⟩ inputs).2
        transferId receiver amount signatures) ∧
    (Prepared far
        (Runs.run (step far) ⟨ProtonBridge.new deployer threshold zkVerifier, world⟩ inputs).2
        transferId receiver amount signatures →
      Runs.Occurs (step far) (Enters far transferId)
        ⟨ProtonBridge.new deployer threshold zkVerifier, world⟩ inputs) := by
  -- the record of the first bridge carries the receiver and the amount of the call
  obtain ⟨-, -, -, locked, -, same⟩ := initiateTransfer_ok initiated
  have record : next.bridge.pendingTransfer transferId =
      (state.bridge.pendingTransfer transferId).initiate transferId near.chainId far.chainId caller
        receiver asset amount block := by
    rw [same]
    exact (pendingTransfer_setPendingTransfer _ transferId _ transferId).trans (if_pos rfl)
  rw [record]
  have witnessed := witnessed_run far deployer threshold zkVerifier world transferId inputs
  refine ⟨completes_iff_prepared witnessed.counted valid, fun prepared => ?_⟩
  exact entered_run far rfl inputs prepared.found

namespace Sample

/-- The setup for the chains 1 and 2. -/
def both : List (Input Solidity.Sample.Ledger) :=
  setup ++ [call 9 (.addChain 2 (Sample.address 8) 1)]

/-- The bridge of chain 2, where the transfer is initiated. -/
def near : State Solidity.Sample.Ledger := (Runs.run (step (env 2)) (deployed 1) both).2

def nearAfter : State Solidity.Sample.Ledger := (step (env 2) near initiate).2

theorem initiated :
    initiateTransfer (env 2) (Sample.address 3) near ⟨0, 0⟩ 1 (Sample.address 6) (Sample.address 1)
      100 = .ok (transferId, nearAfter) := by
  rfl

def signature : Signature :=
  ⟨Sample.address 4, ⟨0, 0⟩, List.replicate 20 4 ++ List.replicate 45 0, []⟩

theorem authentic : Authentic (env 1) (Sample.address 4) transferId signature.signature :=
  ⟨_, _, _, rfl, rfl⟩

/-- The bridge of chain 1 before a call of its own, and after the same call was made there. -/
def far (inputs : List (Input Solidity.Sample.Ledger)) : State Solidity.Sample.Ledger :=
  (Runs.run (step (env 1)) (deployed 1) (both ++ inputs)).2

theorem paired : Paired (env 2) (env 1) near.bridge (far []).bridge where
  apart := by decide
  there := by decide +kernel
  back := by decide +kernel
  shared := by decide +kernel

theorem valid {inputs : List (Input Solidity.Sample.Ledger)}
    (registered : ((far inputs).bridge.validator (Sample.address 4)).addr ≠ Address.zero)
    (active : ((far inputs).bridge.validator (Sample.address 4)).isActive = true) :
    ∀ given ∈ [signature], given.Valid (env 1) (far inputs) transferId := by
  intro given member
  obtain rfl := List.mem_singleton.mp member
  exact ⟨registered, active, authentic, staticAnswer_trueWord⟩

theorem prepared :
    Prepared (env 1) (far [initiate]) transferId (Sample.address 6) 100 [signature] where
  found := by decide +kernel
  unexecuted := by decide +kernel
  here := by decide +kernel
  fresh := by decide +kernel
  receiver := by decide +kernel
  amount := by decide +kernel
  complete := by simp
  enough := by decide +kernel
  payable := by
    constructor
    · intro wrapped
      exact absurd (by decide +kernel) wrapped
    · intro _
      exact ⟨by decide +kernel, Option.isSome_iff_exists.mp (by decide +kernel)⟩

end Sample

/-- The same call was made on both chains in blocks of one number and time. -/
theorem completes_iff_sample :
    Completes (Sample.env 1) (Sample.far [Sample.initiate]) Sample.transferId
      (Sample.nearAfter.bridge.pendingTransfer Sample.transferId).receiver
      (Sample.nearAfter.bridge.pendingTransfer Sample.transferId).amount [Sample.signature] :=
  (completes_iff (Sample.env 2) (Sample.env 1) (Sample.address 3) (Sample.address 6)
    (Sample.address 1) ⟨0, 0⟩ 100 Sample.near Sample.nearAfter Sample.transferId Sample.initiated
    (Sample.address 9) 1 (Sample.address 7) Sample.ledger (Sample.both ++ [Sample.initiate])
    [Sample.signature] (Sample.valid (by decide +kernel) (by decide +kernel))).1.mpr
      Sample.prepared

/-- A transfer of which the other bridge has no record is not completed there, although one
signature is asked for and a valid one is given. -/
theorem transfer_is_not_completed :
    Paired (Sample.env 2) (Sample.env 1) Sample.near.bridge (Sample.far []).bridge ∧
      initiateTransfer (Sample.env 2) (Sample.address 3) Sample.near ⟨0, 0⟩ 1 (Sample.address 6)
        (Sample.address 1) 100 = .ok (Sample.transferId, Sample.nearAfter) ∧
      (∀ given ∈ [Sample.signature],
        given.Valid (Sample.env 1) (Sample.far []) Sample.transferId) ∧
      (Sample.far []).bridge.validatorThreshold.toNat ≤ [Sample.signature].length ∧
      ¬ Completes (Sample.env 1) (Sample.far []) Sample.transferId
        (Sample.nearAfter.bridge.pendingTransfer Sample.transferId).receiver
        (Sample.nearAfter.bridge.pendingTransfer Sample.transferId).amount
        [Sample.signature] := by
  refine ⟨Sample.paired, Sample.initiated,
    Sample.valid (by decide +kernel) (by decide +kernel), by decide +kernel, ?_⟩
  intro completes
  exact absurd completes.found.1 (by decide +kernel)

end ProtonChain.Solidity.ProtonBridge
