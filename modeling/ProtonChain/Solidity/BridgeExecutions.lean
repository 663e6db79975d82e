import ProtonChain.Library.History
import ProtonChain.Solidity.BridgeBooks

/-! When the bridge executes a transfer, and who has signed it before.

A transfer is executed once, whatever becomes of its record afterwards. The decision rests
on a counter that is kept next to the flags of the signers, and is taken when a signature
comes in; what the owner changes later is not looked at again.
-/

set_option autoImplicit false

namespace ProtonChain.Solidity.ProtonBridge

open Checked

section Events
variable {World : Type} (env : BridgeEnv World) (transferId : Hash)

def Executes (state : State World) (input : Input World) : Prop :=
  (∃ caller block, input = .call caller block (.executeTransfer transferId)) ∧
    Transactions.Succeeds (perform env) state input

/-- A registered and active validator signs the transfer with a valid signature. -/
def SignedBy (validator : Address) (state : State World) (input : Input World) : Prop :=
  Transactions.Succeeds (perform env) state input ∧ ∃ block signature merkleProof,
    input = .call validator block (.signTransfer transferId signature merkleProof) ∧
      (state.bridge.validator validator).addr ≠ Address.zero ∧
      (state.bridge.validator validator).isActive = true ∧
      Authentic env validator transferId signature

def Signed (state : State World) (input : Input World) : Prop :=
  ∃ validator, SignedBy env transferId validator state input

def Deactivates (validator : Address) (state : State World) (input : Input World) : Prop :=
  (∃ caller block, input = .call caller block (.deactivateValidator validator)) ∧
    Transactions.Succeeds (perform env) state input

variable {env transferId} {state next : State World} {input : Input World}

theorem SignedBy.unique {validator other : Address}
    (signed : SignedBy env transferId validator state input)
    (again : SignedBy env transferId other state input) : other = validator := by
  obtain ⟨-, block, signature, merkleProof, rfl, -⟩ := signed
  obtain ⟨-, block', signature', merkleProof', same, -⟩ := again
  cases same
  rfl

theorem Executes.executable (executes : Executes env transferId state input) :
    Executable env state.bridge transferId := by
  obtain ⟨⟨caller, block, rfl⟩, next, performed⟩ := executes
  exact (executeTransfer_eq_ok.mp performed).1

theorem signedBy_of_succeeds {validator : Address} {block : BlockContext}
    {signature merkleProof : Bytes}
    (succeeds : Transactions.Succeeds (perform env) state
      (.call validator block (.signTransfer transferId signature merkleProof))) :
    SignedBy env transferId validator state
      (.call validator block (.signTransfer transferId signature merkleProof)) := by
  obtain ⟨next, performed⟩ := succeeds
  have signs := (signTransfer_eq_ok.mp performed).1
  exact ⟨⟨next, performed⟩, block, signature, merkleProof, rfl, signs.registered, signs.active,
    signs.authentic⟩

/-! ## Executed once -/

theorem perform_completed (performed : perform env state input = .ok next) :
    state.bridge.books.completed ⊆ next.bridge.books.completed := by
  have effect := perform_effect performed
  generalize next.bridge.books = books at effect
  generalize next.world = world at effect
  cases effect with
  | initiated => exact Finset.Subset.refl _
  | privatelyInitiated => exact Finset.Subset.refl _
  | signed => exact Finset.Subset.refl _
  | minted => exact Finset.subset_insert _ _
  | released => exact Finset.subset_insert _ _
  | governed => exact Finset.Subset.refl _
  | outside => exact Finset.Subset.refl _

variable (env) in
theorem completed_run (completed : transferId ∈ state.bridge.books.completed)
    (inputs : List (Input World)) :
    transferId ∈ (Runs.run (step env) state inputs).2.bridge.books.completed := by
  refine @Transactions.run_keeps _ _ _ (perform env)
    (fun state : State World => transferId ∈ state.bridge.books.completed) ?_ state completed inputs
  intro state input next before performed
  exact perform_completed performed before

theorem Executes.completed (executes : Executes env transferId state input) :
    transferId ∈ (step env state input).2.bridge.books.completed := by
  obtain ⟨⟨caller, block, rfl⟩, next, performed⟩ := executes
  rw [step, Transactions.step_of_ok performed]
  obtain ⟨-, paid, -, rfl⟩ := executeTransfer_eq_ok.mp performed
  exact Finset.mem_insert_self _ _

end Events

/-- Where an input executes a transfer, no later one of the run executes it again. -/
theorem executed_once {World : Type} (env : BridgeEnv World) (deployer : Address)
    (threshold : U256) (zkVerifier : Address) (world : World) (transferId : Hash)
    (earlier between : List (Input World)) (first second : Input World)
    (executes : Executes env transferId
      (Runs.run (step env) ⟨ProtonBridge.new deployer threshold zkVerifier, world⟩ earlier).2
      first) :
    ¬ Executes env transferId
      (Runs.run (step env) ⟨ProtonBridge.new deployer threshold zkVerifier, world⟩
        (earlier ++ first :: between)).2 second := by
  intro again
  have completed := completed_run env executes.completed between
  rw [Runs.run_append, Runs.run_cons] at again
  exact again.executable.fresh completed

namespace Sample

/-- Up to the signature that completes the transfer. -/
def signed : List (Input Solidity.Sample.Ledger) := setup ++ [initiate, sign 4]

theorem executes (threshold : U256) {inputs : List (Input Solidity.Sample.Ledger)}
    (succeeds : Transactions.Succeeds (perform (env 1))
      (Runs.run (step (env 1)) (deployed threshold) inputs).2 execute) :
    Executes (env 1) transferId (Runs.run (step (env 1)) (deployed threshold) inputs).2 execute :=
  ⟨⟨_, _, rfl⟩, succeeds⟩

end Sample

/-- A late signature does not open an executed transfer again. -/
theorem executed_once_sample :
    ¬ Executes (Sample.env 1) Sample.transferId
      (Runs.run (step (Sample.env 1)) (Sample.deployed 1)
        (Sample.signed ++ Sample.execute :: [Sample.initiate, Sample.sign 5])).2
      Sample.execute :=
  executed_once (Sample.env 1) (Sample.address 9) 1 (Sample.address 7) Sample.ledger
    Sample.transferId Sample.signed [Sample.initiate, Sample.sign 5] Sample.execute Sample.execute
    (Sample.executes 1 (by decide +kernel))

/-! ## Signed before -/

section Signatures
variable {World : Type} {env : BridgeEnv World} {transferId : Hash} {state next : State World}
  {input : Input World}

theorem counted_signed {transfer : PendingTransfer} (validator : Address)
    (counted : transfer.signatureCount.toNat ≤ transfer.signatures.card) :
    (transfer.signed validator).signatureCount.toNat ≤
      (transfer.signed validator).signatures.card := by
  rw [PendingTransfer.signed]
  split
  next => exact counted
  next fresh =>
    have grown : (transfer.signatureCount + 1).toNat ≤ transfer.signatureCount.toNat + 1 := by
      rw [BitVec.toNat_add]
      exact Nat.mod_le _ _
    rw [Finset.card_insert_of_notMem fresh]
    exact grown.trans (Nat.succ_le_succ counted)

/-- What an input does to the record of one transfer, and whether it signs it. -/
inductive RecordEffect (env : BridgeEnv World) (transferId : Hash) (state : State World)
    (input : Input World) : PendingTransfer → Prop
  | kept (quiet : ¬ Signed env transferId state input) :
    RecordEffect env transferId state input (state.bridge.books.record transferId)
  | initiated (transfer : PendingTransfer) (quiet : ¬ Signed env transferId state input)
    (flags : transfer.signatures = (state.bridge.books.record transferId).signatures)
    (count : transfer.signatureCount = 0) (status : transfer.status = .pending) :
    RecordEffect env transferId state input transfer
  | signed (validator : Address) (signs : SignedBy env transferId validator state input) :
    RecordEffect env transferId state input
      (((state.bridge.books.record transferId).signed validator).settled
        state.bridge.validatorThreshold)
  | executed (quiet : ¬ Signed env transferId state input) :
    RecordEffect env transferId state input
      { state.bridge.books.record transferId with status := .executed }

theorem not_signed (other : ∀ validator block signature merkleProof,
      input ≠ .call validator block (.signTransfer transferId signature merkleProof)) :
    ¬ Signed env transferId state input := by
  rintro ⟨validator, -, block, signature, merkleProof, same, -⟩
  exact other validator block signature merkleProof same

/-- A record that is entered, this one or another. -/
theorem RecordEffect.of_entered (quiet : ¬ Signed env transferId state input) {other : Hash}
    {transfer : PendingTransfer}
    (flags : transfer.signatures = (state.bridge.books.record other).signatures)
    (count : transfer.signatureCount = 0) (status : transfer.status = .pending) (key : Hash)
    (amount : Nat) :
    RecordEffect env transferId state input
      ((state.bridge.books.entered other transfer key amount).record transferId) := by
  by_cases own : transferId = other
  · subst own
    simp only [Books.entered, Function.update_self]
    exact .initiated transfer quiet flags count status
  · simp only [Books.entered, Function.update_of_ne own]
    exact .kept quiet

theorem RecordEffect.of_finished (quiet : ¬ Signed env transferId state input) (other : Hash)
    {books : Books} (paid : books.record = state.bridge.books.record) :
    RecordEffect env transferId state input ((books.finished other).record transferId) := by
  by_cases own : transferId = other
  · subst own
    simp only [Books.finished, Function.update_self, paid]
    exact .executed quiet
  · simp only [Books.finished, Function.update_of_ne own, paid]
    exact .kept quiet

theorem perform_record (performed : perform env state input = .ok next) (transferId : Hash) :
    RecordEffect env transferId state input (next.bridge.books.record transferId) := by
  have effect := perform_effect performed
  have succeeds : Transactions.Succeeds (perform env) state input := ⟨next, performed⟩
  generalize next.bridge.books = books at effect
  generalize next.world = world at effect
  cases effect with
  | initiated =>
    apply RecordEffect.of_entered
    · exact not_signed (by simp)
    all_goals rfl
  | privatelyInitiated =>
    apply RecordEffect.of_entered
    · exact not_signed (by simp)
    all_goals rfl
  | signed caller block other signature merkleProof signs =>
    by_cases own : transferId = other
    · subst own
      simp only [Books.signed, Function.update_self]
      exact .signed caller ⟨succeeds, block, signature, merkleProof, rfl, signs.registered,
        signs.active, signs.authentic⟩
    · -- another transfer is signed
      simp only [Books.signed, Function.update_of_ne own]
      exact .kept (not_signed (by simp [Ne.symm own]))
  | minted =>
    apply RecordEffect.of_finished
    · exact not_signed (by simp)
    · rfl
  | released =>
    apply RecordEffect.of_finished
    · exact not_signed (by simp)
    · rfl
  | governed _ governs =>
    apply RecordEffect.kept
    apply not_signed
    rintro validator block signature merkleProof rfl
    cases governs
  | outside => exact .kept (not_signed (by simp))

theorem step_record (state : State World) (input : Input World) (transferId : Hash) :
    RecordEffect env transferId state input
      ((step env state input).2.bridge.books.record transferId) := by
  by_cases succeeds : Transactions.Succeeds (perform env) state input
  · obtain ⟨next, performed⟩ := succeeds
    rw [step, Transactions.step_of_ok performed]
    exact perform_record performed transferId
  · rw [step, Transactions.step_of_not_succeeds succeeds]
    exact .kept fun ⟨validator, signed⟩ => succeeds signed.1

/-- The counter, the flags and the status of a record, against the run that led to them. -/
structure Witnessed (env : BridgeEnv World) (start : State World) (transferId : Hash)
    (inputs : List (Input World)) (transfer : PendingTransfer) : Prop where
  counted : transfer.signatureCount.toNat ≤ transfer.signatures.card
  signers : ∀ validator, validator ∈ transfer.signatures ↔
    Runs.Occurs (step env) (SignedBy env transferId validator) start inputs
  complete : transfer.status = .signaturesComplete →
    Runs.Since (step env)
      (fun state input => Signed env transferId state input ∧
        state.bridge.validatorThreshold.toNat ≤ transfer.signatureCount.toNat)
      (fun state input => ¬ Signed env transferId state input) start inputs

variable {start : State World} {inputs : List (Input World)} {transfer : PendingTransfer}

theorem Witnessed.signers_of_quiet (witnessed : Witnessed env start transferId inputs transfer)
    (quiet : ¬ Signed env transferId (Runs.run (step env) start inputs).2 input)
    (validator : Address) :
    validator ∈ transfer.signatures ↔
      Runs.Occurs (step env) (SignedBy env transferId validator) start (inputs ++ [input]) := by
  rw [Runs.occurs_concat, witnessed.signers]
  exact (or_iff_left fun signed => quiet ⟨validator, signed⟩).symm

/-- Whoever has signed has a flag. -/
theorem Witnessed.card_le (witnessed : Witnessed env start transferId inputs transfer)
    {signers : Finset Address}
    (signed : ∀ validator ∈ signers,
      Runs.Occurs (step env) (SignedBy env transferId validator) start inputs) :
    signers.card ≤ transfer.signatures.card :=
  Finset.card_le_card fun validator member =>
    (witnessed.signers validator).mpr (signed validator member)

theorem Witnessed.step
    (witnessed : Witnessed env start transferId inputs
      ((Runs.run (step env) start inputs).2.bridge.books.record transferId))
    (input : Input World) :
    Witnessed env start transferId (inputs ++ [input])
      ((ProtonBridge.step env (Runs.run (ProtonBridge.step env) start inputs).2
        input).2.bridge.books.record transferId) := by
  have effect : RecordEffect env transferId (Runs.run (ProtonBridge.step env) start inputs).2
      input _ := step_record _ input transferId
  generalize (ProtonBridge.step env (Runs.run (ProtonBridge.step env) start inputs).2
    input).2.bridge.books.record transferId = after at effect
  cases effect with
  | kept quiet =>
    refine ⟨witnessed.counted, witnessed.signers_of_quiet quiet, fun complete => ?_⟩
    exact (Runs.since_concat _ _ _ _ _ _).mpr (.inr ⟨witnessed.complete complete, quiet⟩)
  | initiated _ quiet flags count status =>
    refine ⟨?_, fun validator => ?_, fun complete => ?_⟩
    · rw [count]
      exact Nat.zero_le _
    · rw [flags]
      exact witnessed.signers_of_quiet quiet validator
    · rw [status] at complete
      cases complete
  | signed validator signed =>
    refine ⟨counted_signed validator witnessed.counted, fun other => ?_, fun complete => ?_⟩
    · rw [Runs.occurs_concat, PendingTransfer.settled, signatures_signed, Finset.mem_insert,
        witnessed.signers, or_comm]
      refine or_congr_right ⟨?_, fun again => signed.unique again⟩
      rintro rfl
      exact signed
    · -- the status says that the counter has reached the threshold
      refine (Runs.since_concat _ _ _ _ _ _).mpr (.inl ⟨⟨validator, signed⟩, ?_⟩)
      simp only [PendingTransfer.settled, ite_eq_left_iff, reduceCtorEq, imp_false, not_not]
        at complete
      exact BitVec.le_def.mp complete
  | executed quiet =>
    exact ⟨witnessed.counted, witnessed.signers_of_quiet quiet, fun complete => nomatch complete⟩

theorem witnessed_run (env : BridgeEnv World) (deployer : Address) (threshold : U256)
    (zkVerifier : Address) (world : World) (transferId : Hash) (inputs : List (Input World)) :
    Witnessed env ⟨ProtonBridge.new deployer threshold zkVerifier, world⟩ transferId inputs
      ((Runs.run (step env) ⟨ProtonBridge.new deployer threshold zkVerifier, world⟩
        inputs).2.bridge.books.record transferId) := by
  refine @Runs.history _ _ _ (step env)
    (fun inputs state => Witnessed env ⟨ProtonBridge.new deployer threshold zkVerifier, world⟩
      transferId inputs (state.bridge.books.record transferId)) _ ?_ ?_ inputs
  · refine ⟨Nat.zero_le _, fun validator => iff_of_false (Finset.notMem_empty _) ?_, nofun⟩
    rintro ⟨earlier, input, later, split, -⟩
    simp at split
  · intro inputs last witnessed
    exact witnessed.step last

end Signatures

/-- An execution in a run from the deployment on comes after a last signature of the transfer,
and as many validators as were needed then have signed it before, each registered and active
when it did so and with a valid signature. -/
theorem executed_signed {World : Type} (env : BridgeEnv World) (deployer : Address)
    (threshold : U256) (zkVerifier : Address) (world : World) (transferId : Hash)
    (inputs : List (Input World)) (input : Input World)
    (executes : Executes env transferId
      (Runs.run (step env) ⟨ProtonBridge.new deployer threshold zkVerifier, world⟩ inputs).2
      input) :
    Runs.Since (step env)
      (fun state last => Signed env transferId state last ∧
        ∃ signers : Finset Address, state.bridge.validatorThreshold.toNat ≤ signers.card ∧
          ∀ validator ∈ signers, Runs.Occurs (step env) (SignedBy env transferId validator)
            ⟨ProtonBridge.new deployer threshold zkVerifier, world⟩ inputs)
      (fun state later => ¬ Signed env transferId state later)
      ⟨ProtonBridge.new deployer threshold zkVerifier, world⟩ inputs := by
  have witnessed := witnessed_run env deployer threshold zkVerifier world transferId inputs
  have last := witnessed.complete executes.executable.complete
  refine last.mono (step env) fun state input event => ⟨event.1, _, ?_, fun validator member =>
    (witnessed.signers validator).mp member⟩
  exact event.2.trans witnessed.counted

theorem executed_signed_sample :
    Runs.Since (step (Sample.env 1))
      (fun state last => Signed (Sample.env 1) Sample.transferId state last ∧
        ∃ signers : Finset Address, state.bridge.validatorThreshold.toNat ≤ signers.card ∧
          ∀ validator ∈ signers, Runs.Occurs (step (Sample.env 1))
            (SignedBy (Sample.env 1) Sample.transferId validator) (Sample.deployed 1)
            Sample.signed)
      (fun state later => ¬ Signed (Sample.env 1) Sample.transferId state later)
      (Sample.deployed 1) Sample.signed :=
  executed_signed (Sample.env 1) (Sample.address 9) 1 (Sample.address 7) Sample.ledger
    Sample.transferId Sample.signed Sample.execute (Sample.executes 1 (by decide +kernel))

/-! ## Governance after signatures -/

section Governance
variable {World : Type} {env : BridgeEnv World} {state next : State World} {input : Input World}
  {validator : Address}

theorem perform_active (performed : perform env state input = .ok next)
    (active : (state.bridge.validator validator).isActive = true)
    (kept : ∀ caller block, input ≠ .call caller block (.deactivateValidator validator)) :
    (next.bridge.validator validator).isActive = true := by
  cases input with
  | outside world owner =>
    obtain rfl := Except.ok.inj performed
    exact active
  | call caller block call =>
    cases call with
    | initiateTransfer targetChain receiver asset amount =>
      simp only [perform, bind_eq_ok, pure_eq_ok] at performed
      obtain ⟨⟨transferId, _⟩, done, rfl⟩ := performed
      obtain ⟨-, -, -, locked, -, same⟩ := initiateTransfer_ok done
      rw [same]
      exact active
    | initiatePrivateTransfer targetChain stealthReceiver asset encryptedAmount amountCommitment
        nullifier zkProof =>
      simp only [perform, bind_eq_ok, pure_eq_ok] at performed
      obtain ⟨⟨transferId, _⟩, done, rfl⟩ := performed
      obtain ⟨-, -, locked, -, same⟩ := initiatePrivateTransfer_ok done
      rw [same]
      exact active
    | signTransfer transferId signature merkleProof =>
      obtain ⟨-, rfl⟩ := signTransfer_eq_ok.mp performed
      rw [State.sign, validator_setValidator]
      split
      next same => exact same ▸ active
      · exact active
    | executeTransfer transferId =>
      obtain ⟨-, paid, pays, rfl⟩ := executeTransfer_eq_ok.mp performed
      cases pays with
      | minted => exact active
      | released => exact active
    | _ => exact (perform_governed rfl performed).2.2 validator active kept

theorem step_active (active : (state.bridge.validator validator).isActive = true)
    (kept : ¬ Deactivates env validator state input) :
    ((step env state input).2.bridge.validator validator).isActive = true := by
  refine @Transactions.step_keeps _ _ _ _ _ _
    (fun state : State World => (state.bridge.validator validator).isActive = true) active ?_
  intro next performed
  refine perform_active performed active fun caller block same => kept ?_
  exact ⟨⟨caller, block, same⟩, next, performed⟩

/-- No validator is deactivated that has signed the transfer before. -/
def Undisturbed (env : BridgeEnv World) (transferId : Hash) (start : State World)
    (inputs : List (Input World)) : Prop :=
  ∀ earlier input later, inputs = earlier ++ input :: later → ∀ validator,
    Deactivates env validator (Runs.run (step env) start earlier).2 input →
      ¬ Runs.Occurs (step env) (SignedBy env transferId validator) start earlier

theorem Undisturbed.active {transferId : Hash} {start : State World}
    {inputs : List (Input World)} (undisturbed : Undisturbed env transferId start inputs)
    (signed : Runs.Occurs (step env) (SignedBy env transferId validator) start inputs) :
    ((Runs.run (step env) start inputs).2.bridge.validator validator).isActive = true := by
  induction inputs using List.reverseRecOn with
  | nil =>
    obtain ⟨earlier, input, later, split, -⟩ := signed
    simp at split
  | append_singleton inputs last ih =>
    rw [Runs.run_concat]
    rw [Runs.occurs_concat] at signed
    rcases signed with before | now
    · have rest : Undisturbed env transferId start inputs := by
        rintro earlier input later rfl
        exact undisturbed earlier input (later ++ [last]) (by simp)
      exact step_active (ih rest before) fun deactivates =>
        undisturbed inputs last [] rfl validator deactivates before
    · -- a signature is no deactivation
      obtain ⟨-, block, signature, merkleProof, rfl, -, active, -⟩ := now
      refine step_active active ?_
      rintro ⟨⟨caller, block, same⟩, -⟩
      cases same

end Governance

/-- Where no signer of the transfer was deactivated after it had signed, and the threshold is
not above the one in force at the last signature, an execution finds as many active signers as
are needed at that moment. Signatures are not looked at again when the owner changes either. -/
theorem executed_with_active_signers {World : Type} (env : BridgeEnv World) (deployer : Address)
    (threshold : U256) (zkVerifier : Address) (world : World) (transferId : Hash)
    (inputs : List (Input World)) (input : Input World)
    (executes : Executes env transferId
      (Runs.run (step env) ⟨ProtonBridge.new deployer threshold zkVerifier, world⟩ inputs).2
      input)
    (undisturbed : Undisturbed env transferId
      ⟨ProtonBridge.new deployer threshold zkVerifier, world⟩ inputs)
    (kept : Runs.Since (step env)
      (fun state last => Signed env transferId state last ∧
        (Runs.run (step env) ⟨ProtonBridge.new deployer threshold zkVerifier, world⟩
          inputs).2.bridge.validatorThreshold.toNat ≤ state.bridge.validatorThreshold.toNat)
      (fun state later => ¬ Signed env transferId state later)
      ⟨ProtonBridge.new deployer threshold zkVerifier, world⟩ inputs) :
    ∃ signers : Finset Address,
      (Runs.run (step env) ⟨ProtonBridge.new deployer threshold zkVerifier, world⟩
        inputs).2.bridge.validatorThreshold.toNat ≤ signers.card ∧
      ∀ validator ∈ signers,
        Runs.Occurs (step env) (SignedBy env transferId validator)
          ⟨ProtonBridge.new deployer threshold zkVerifier, world⟩ inputs ∧
        ((Runs.run (step env) ⟨ProtonBridge.new deployer threshold zkVerifier, world⟩
          inputs).2.bridge.validator validator).isActive = true := by
  have witnessed := witnessed_run env deployer threshold zkVerifier world transferId inputs
  have last := witnessed.complete executes.executable.complete
  -- the two thresholds are those of one signature, the last
  have both := Runs.Since.and (step env) (fun _ _ event => event.1) (fun _ _ event => event.1)
    last kept
  obtain ⟨earlier, signature, later, -, ⟨⟨-, reached⟩, -, below⟩, -⟩ := both
  refine ⟨_, (below.trans reached).trans witnessed.counted, fun validator member => ?_⟩
  have signed := (witnessed.signers validator).mp member
  exact ⟨signed, undisturbed.active signed⟩

namespace Sample

/-- Two signatures are needed from the last input on. -/
def raised : List (Input Solidity.Sample.Ledger) := signed ++ [call 9 (.setValidatorThreshold 2)]

theorem undisturbed (start : State Solidity.Sample.Ledger) :
    Undisturbed (env 1) transferId start signed := by
  rintro earlier input later split validator ⟨⟨caller, block, rfl⟩, -⟩
  have member : Input.call caller block (.deactivateValidator validator) ∈ signed := by
    rw [split]
    simp
  simp [signed, setup, initiate, sign, call] at member

end Sample

theorem executed_with_active_signers_sample :
    ∃ signers : Finset Address,
      (Runs.run (step (Sample.env 1)) (Sample.deployed 1)
        Sample.signed).2.bridge.validatorThreshold.toNat ≤ signers.card ∧
      ∀ validator ∈ signers,
        Runs.Occurs (step (Sample.env 1))
          (SignedBy (Sample.env 1) Sample.transferId validator) (Sample.deployed 1)
          Sample.signed ∧
        ((Runs.run (step (Sample.env 1)) (Sample.deployed 1)
          Sample.signed).2.bridge.validator validator).isActive = true := by
  unfold Sample.deployed
  refine executed_with_active_signers (Sample.env 1) (Sample.address 9) 1 (Sample.address 7)
    Sample.ledger Sample.transferId Sample.signed Sample.execute
    (Sample.executes 1 (by decide +kernel)) (Sample.undisturbed _) ?_
  refine ⟨Sample.setup ++ [Sample.initiate], Sample.sign 4, [], rfl, ⟨⟨Sample.address 4, ?_⟩, ?_⟩,
    trivial⟩
  · have succeeds : Transactions.Succeeds (perform (Sample.env 1))
        (Runs.run (step (Sample.env 1)) (Sample.deployed 1) (Sample.setup ++ [Sample.initiate])).2
        (Sample.sign 4) := by decide +kernel
    exact signedBy_of_succeeds succeeds
  · decide +kernel

/-- With one signature under a threshold of one, the transfer is executed under one of two. -/
theorem raised_threshold_is_not_applied :
    Executes (Sample.env 1) Sample.transferId
        (Runs.run (step (Sample.env 1)) (Sample.deployed 1) Sample.raised).2 Sample.execute ∧
      ∀ signers : Finset Address,
        (∀ validator ∈ signers,
          Runs.Occurs (step (Sample.env 1))
            (SignedBy (Sample.env 1) Sample.transferId validator) (Sample.deployed 1)
            Sample.raised ∧
          ((Runs.run (step (Sample.env 1)) (Sample.deployed 1)
            Sample.raised).2.bridge.validator validator).isActive = true) →
        signers.card < (Runs.run (step (Sample.env 1)) (Sample.deployed 1)
          Sample.raised).2.bridge.validatorThreshold.toNat := by
  refine ⟨Sample.executes 1 (by decide +kernel), fun signers all => ?_⟩
  unfold Sample.deployed at all ⊢
  have witnessed := witnessed_run (Sample.env 1) (Sample.address 9) 1 (Sample.address 7)
    Sample.ledger Sample.transferId Sample.raised
  exact (witnessed.card_le fun validator member => (all validator member).1).trans_lt
    (by decide +kernel)

end ProtonChain.Solidity.ProtonBridge
