import ProtonChain.Multichain.Conservation
import ProtonChain.Vm.Transfer

/-! The two ledgers of a shard.

Cross-chain calls write the accounts of the shard state, transactions those of
the shard's machine. Nothing carries a balance from one to the other.
-/

set_option autoImplicit false

namespace ProtonChain.Multichain

open ProtonChain.Consensus ProtonChain.Vm

section Machine
variable (sha3 : Sha3)

def ShardManager.executeOn (manager : ShardManager) (shardId : U16) (tx : Transaction) :
    Option ExecutionResult × ShardManager :=
  match manager.shards.lookup shardId with
  | none => (none, manager)
  | some shard =>
    let (result, vm) := executeTransaction sha3 shard.config.vm tx
    (some result,
      { manager with
        shards := manager.shards.insert shardId
          { shard with config := { shard.config with vm := vm } } })

inductive ShardOperation where
  | execute (shardId : U16) (tx : Transaction)
  | cross (call : CrossCall)

def ShardManager.operate (manager : ShardManager) :
    ShardOperation → (Option ExecutionResult ⊕ Except String Unit) × ShardManager
  | .execute shardId tx =>
    let (result, after) := manager.executeOn sha3 shardId tx
    (.inl result, after)
  | .cross call =>
    let (answer, after) := manager.call call
    (.inr answer, after)

end Machine

/-- At every address the shard state and the machine of the shard hold the same balance. -/
def LedgersAgree (shardId : U16) (manager : ShardManager) : Prop :=
  ∀ shard ∈ manager.shards.lookup shardId, ∀ address,
    shard.state.balanceOf address = balanceOf shard.config.vm.state address

/-- An operation that moves no balance on a shard whose accounts are all empty. -/
def MovesNothing (shardId : U16) : ShardOperation → Prop
  | .execute target tx => target = shardId →
      (IsTransfer tx → tx.value = 0 ∨ totalCost tx ≠ 0) ∧
        (tx.txType = .contractDeploy → tx.value = 0)
  | .cross (.process _) => True
  | .cross (.receive tx) => tx.targetShard = shardId → tx.amount = 0

instance (shardId : U16) : DecidablePred (MovesNothing shardId)
  | .execute target tx => inferInstanceAs (Decidable (target = shardId →
      (IsTransfer tx → tx.value = 0 ∨ totalCost tx ≠ 0) ∧
        (tx.txType = .contractDeploy → tx.value = 0)))
  | .cross (.process _) => inferInstanceAs (Decidable True)
  | .cross (.receive tx) => inferInstanceAs (Decidable (tx.targetShard = shardId → tx.amount = 0))

/-- An operation leaves the ledgers it does not own as they are, on every shard. -/
def KeepsOther (before after : ShardManager) : ShardOperation → Prop
  | .execute _ _ => ∀ shardId, (after.shards.lookup shardId).map Shard.state =
      (before.shards.lookup shardId).map Shard.state
  | .cross _ => ∀ shardId, (after.shards.lookup shardId).map (fun shard => shard.config.vm) =
      (before.shards.lookup shardId).map fun shard => shard.config.vm

/-! ## Initialized shards -/

theorem initializeShards_lookup (sha3 : Sha3) (manager : ShardManager)
    (validatorSet : ValidatorSet) (committee : U64 → List Address) {shardId : U16}
    (created : shardId.toNat < manager.config.shardCount.toNat) :
    (manager.initializeShards sha3 validatorSet committee).shards.lookup shardId =
      some (ShardManager.initialShard sha3 manager.config validatorSet committee shardId) := by
  have bound : manager.config.shardCount.toNat ≤ 2 ^ 16 :=
    Nat.le_of_lt manager.config.shardCount.isLt
  rw [ShardManager.initializeShards]
  generalize manager.config.shardCount.toNat = count at created bound
  induction count with
  | zero => omega
  | succ count ih =>
    simp only [List.range_succ, List.foldl_append, List.foldl_cons, List.foldl_nil,
      FiniteMap.lookup_insert]
    split
    next last => rw [last]
    next other =>
      -- an id below the bound is not the last one
      have apart : shardId.toNat ≠ count := by
        rintro rfl
        exact other (by rw [BitVec.ofNat_toNat, BitVec.setWidth_eq])
      exact ih (by omega) (by omega)

/-! ## What one operation does to a shard without balances -/

/-- No account of the shard holds anything, in either ledger. -/
structure Penniless (shard : Shard) : Prop where
  state : ∀ address, (shard.state.account address).balance = 0
  machine : ∀ address, (shard.config.vm.state.account address).balance = 0

def PennilessAt (shardId : U16) (manager : ShardManager) : Prop :=
  ∃ shard, manager.shards.lookup shardId = some shard ∧ Penniless shard

theorem ledgersAgree_of_lookup {shardId : U16} {manager : ShardManager} {shard : Shard}
    (found : manager.shards.lookup shardId = some shard) :
    LedgersAgree shardId manager ↔ ∀ address,
      (shard.state.account address).balance = (shard.config.vm.state.account address).balance := by
  simp only [LedgersAgree, found, Option.mem_some_iff, forall_eq', ShardState.balanceOf,
    balanceOf, BitVec.toNat_inj]

theorem pennilessAt_of_lookup {shardId : U16} {manager : ShardManager} {shard : Shard}
    (found : manager.shards.lookup shardId = some shard) :
    PennilessAt shardId manager ↔ Penniless shard := by
  simp only [PennilessAt, found, Option.some.injEq, exists_eq_left']

/-- Where one ledger is empty, agreement means that the other is empty too. -/
theorem ledgersAgree_iff_penniless {shardId : U16} {manager : ShardManager} {shard : Shard}
    (found : manager.shards.lookup shardId = some shard)
    (empty : (∀ address, (shard.state.account address).balance = 0) ∨
      ∀ address, (shard.config.vm.state.account address).balance = 0) :
    LedgersAgree shardId manager ↔ PennilessAt shardId manager := by
  rw [ledgersAgree_of_lookup found, pennilessAt_of_lookup found]
  constructor
  · intro agree
    rcases empty with state | machine
    · exact ⟨state, fun address => (agree address).symm.trans (state address)⟩
    · exact ⟨fun address => (agree address).trans (machine address), machine⟩
  · intro penniless address
    rw [penniless.state, penniless.machine]

section Execute
variable {sha3 : Sha3} {vm : ProtonVM} {tx : Transaction}
  (penniless : ∀ address, (vm.state.account address).balance = 0)
include penniless

theorem affordable_penniless_iff : Affordable vm.state tx ↔ totalCost tx = 0 := by
  rw [Affordable, penniless]
  exact BitVec.le_zero_iff

/-- Without balances a paid transfer costs nothing, and credits its value all the same. -/
theorem transferred_penniless_iff (free : totalCost tx = 0) :
    (∀ address, ((transferred vm tx).state.account address).balance = 0) ↔ tx.value = 0 := by
  constructor
  · intro empty
    have credited := empty (receiverAddr tx)
    rw [transferred_receiver] at credited
    change (vm.state.account (receiverAddr tx)).balance + tx.value = 0 at credited
    simpa only [penniless, BitVec.ofNat_eq_ofNat, BitVec.zero_add] using credited
  · intro nothing address
    by_cases own : address = receiverAddr tx
    · rw [own, transferred_receiver]
      change (vm.state.account (receiverAddr tx)).balance + tx.value = 0
      rw [penniless, nothing]
      rfl
    · by_cases sender : address = tx.sender
      · rw [sender, transferred_sender vm tx fun same => own (sender.trans same.symm)]
        change (vm.state.account tx.sender).balance + -totalCost tx = 0
        rw [penniless, free]
        rfl
      · rw [VMState.account, transferred_frame vm tx sender own]
        exact penniless address

theorem deployed_penniless_iff :
    (∀ address, ((deployed sha3 vm tx).state.account address).balance = 0) ↔ tx.value = 0 := by
  constructor
  · intro empty
    have written := empty (contractAddr sha3 tx)
    rwa [VMState.account, deployed_lookup, if_pos rfl] at written
  · intro nothing address
    rw [VMState.account, deployed_lookup]
    split
    · exact nothing
    · exact penniless address

theorem execute_penniless_iff :
    (∀ address, ((executeTransaction sha3 vm tx).2.state.account address).balance = 0) ↔
      (IsTransfer tx → tx.value = 0 ∨ totalCost tx ≠ 0) ∧
        (tx.txType = .contractDeploy → tx.value = 0) := by
  rcases kind_cases tx with transfer | deploy | inert
  · have notDeploy : tx.txType ≠ .contractDeploy := fun deploy =>
      not_transfer_of_deploy deploy transfer
    rw [forall_prop_of_true transfer, forall_prop_of_false notDeploy, and_true]
    by_cases free : totalCost tx = 0
    · rw [execute_paid sha3 vm tx transfer ((affordable_penniless_iff penniless).mpr free),
        transferred_penniless_iff penniless free, or_iff_left (not_not_intro free)]
    · rw [execute_short sha3 vm tx transfer (mt (affordable_penniless_iff penniless).mp free)]
      exact iff_of_true penniless (.inr free)
  · have notTransfer : ¬ IsTransfer tx := not_transfer_of_deploy deploy
    rw [execute_deploy sha3 vm tx deploy, deployed_penniless_iff penniless,
      forall_prop_of_false notTransfer, true_and, forall_prop_of_true deploy]
  · rw [(execute_inert sha3 vm tx inert).1]
    exact iff_of_true penniless
      ⟨fun transfer => absurd transfer inert.1, fun deploy => absurd deploy inert.2⟩

end Execute

theorem setBalance_account (state : ShardState) (address : Address) (balance : U128)
    (other : Address) :
    ((state.setBalance address balance).account other).balance =
      if other = address then balance else (state.account other).balance := by
  rw [ShardState.account, ShardState.setBalance, FiniteMap.lookup_insert]
  split <;> rfl

theorem setBalance_penniless_iff {state : ShardState}
    (penniless : ∀ address, (state.account address).balance = 0) (owner : Address)
    (balance : U128) :
    (∀ address, ((state.setBalance owner balance).account address).balance = 0) ↔
      balance = 0 := by
  constructor
  · intro empty
    have written := empty owner
    rwa [setBalance_account, if_pos rfl] at written
  · intro nothing address
    rw [setBalance_account]
    split
    · exact nothing
    · exact penniless address

section Step
variable (sha3 : Sha3) {shardId : U16} {manager : ShardManager}

theorem executeOn_shards (target : U16) (tx : Transaction) {shard : Shard}
    (found : manager.shards.lookup target = some shard) :
    (manager.executeOn sha3 target tx).2.shards =
      manager.shards.insert target { shard with config := { shard.config with
        vm := (executeTransaction sha3 shard.config.vm tx).2 } } := by
  simp only [ShardManager.executeOn, found]

theorem executeOn_missing (target : U16) (tx : Transaction)
    (missing : manager.shards.lookup target = none) :
    (manager.executeOn sha3 target tx).2 = manager := by
  simp only [ShardManager.executeOn, missing]

theorem receive_shards (tx : CrossChainTransaction) {shard : Shard}
    (found : manager.shards.lookup tx.targetShard = some shard) :
    (manager.receiveCrossChainTx tx).2.shards = (manager.writeBalance tx.targetShard shard
      tx.receiver ((shard.state.account tx.receiver).balance + tx.amount)).shards := by
  simp only [ShardManager.receiveCrossChainTx, found]

/-- A balance written to an empty shard leaves agreeing ledgers only if it is zero. -/
theorem written_iff {shard : Shard} (penniless : Penniless shard) {after : ShardManager}
    {owner : Address} {balance : U128}
    (written : after.shards =
      (manager.writeBalance shardId shard owner balance).shards) :
    (LedgersAgree shardId after ↔ PennilessAt shardId after) ∧
      (PennilessAt shardId after ↔ balance = 0) := by
  have found := congrArg (Finmap.lookup shardId) written
  rw [ShardManager.writeBalance, Finmap.lookup_insert] at found
  refine ⟨ledgersAgree_iff_penniless found (.inr penniless.machine), ?_⟩
  rw [pennilessAt_of_lookup found, ← setBalance_penniless_iff penniless.state owner]
  exact ⟨Penniless.state, fun state => ⟨state, penniless.machine⟩⟩

theorem untouched_iff {shard : Shard} (penniless : Penniless shard) {after : ShardManager}
    (same : after.shards.lookup shardId = some shard) :
    (LedgersAgree shardId after ↔ PennilessAt shardId after) ∧ PennilessAt shardId after :=
  ⟨ledgersAgree_iff_penniless same (.inl penniless.state),
    (pennilessAt_of_lookup same).mpr penniless⟩

section Operations
variable {shard : Shard} (found : manager.shards.lookup shardId = some shard)
  (penniless : Penniless shard)
include found penniless

theorem execute_iff (target : U16) (tx : Transaction) :
    (LedgersAgree shardId (manager.executeOn sha3 target tx).2 ↔
        PennilessAt shardId (manager.executeOn sha3 target tx).2) ∧
      (PennilessAt shardId (manager.executeOn sha3 target tx).2 ↔
        MovesNothing shardId (.execute target tx)) := by
  by_cases here : target = shardId
  · subst here
    have after := congrArg (Finmap.lookup target) (executeOn_shards sha3 target tx found)
    rw [Finmap.lookup_insert] at after
    refine ⟨ledgersAgree_iff_penniless after (.inl penniless.state), ?_⟩
    rw [pennilessAt_of_lookup after, MovesNothing, forall_prop_of_true rfl,
      ← execute_penniless_iff penniless.machine]
    exact ⟨Penniless.machine, fun machine => ⟨penniless.state, machine⟩⟩
  · have same : (manager.executeOn sha3 target tx).2.shards.lookup shardId = some shard := by
      cases there : manager.shards.lookup target with
      | none => rw [executeOn_missing sha3 target tx there, found]
      | some other =>
        rw [executeOn_shards sha3 target tx there, Finmap.lookup_insert_of_ne _ (Ne.symm here),
          found]
    obtain ⟨agree, still⟩ := untouched_iff penniless same
    exact ⟨agree, iff_of_true still fun own => absurd own here⟩

theorem process_iff (tx : CrossChainTransaction) :
    (LedgersAgree shardId (manager.processCrossChainTx tx).2 ↔
        PennilessAt shardId (manager.processCrossChainTx tx).2) ∧
      PennilessAt shardId (manager.processCrossChainTx tx).2 := by
  rcases process_cases manager tx with same | ⟨source, there, paid, after⟩
  · rw [same]
    exact untouched_iff penniless found
  · have written := congrArg ShardManager.shards after
    by_cases here : tx.sourceShard = shardId
    · -- an empty account pays nothing but zero
      rw [here] at there written
      obtain rfl := Option.some.inj (there.symm.trans found)
      rw [penniless.state] at paid written
      have nothing : 0 - tx.amount = 0 := by rw [BitVec.le_zero_iff.mp paid]; rfl
      obtain ⟨agree, still⟩ := written_iff penniless written
      exact ⟨agree, still.mpr nothing⟩
    · apply untouched_iff penniless
      rw [written, ShardManager.writeBalance, Finmap.lookup_insert_of_ne _ (Ne.symm here), found]

theorem receive_iff (tx : CrossChainTransaction) :
    (LedgersAgree shardId (manager.receiveCrossChainTx tx).2 ↔
        PennilessAt shardId (manager.receiveCrossChainTx tx).2) ∧
      (PennilessAt shardId (manager.receiveCrossChainTx tx).2 ↔
        MovesNothing shardId (.cross (.receive tx))) := by
  by_cases here : tx.targetShard = shardId
  · subst here
    have written := receive_shards tx found
    rw [penniless.state, BitVec.ofNat_eq_ofNat, BitVec.zero_add] at written
    rw [MovesNothing, forall_prop_of_true rfl]
    exact written_iff penniless written
  · have same : (manager.receiveCrossChainTx tx).2.shards.lookup shardId = some shard := by
      cases there : manager.shards.lookup tx.targetShard with
      | none => rw [receive_missing manager tx there, found]
      | some other =>
        rw [receive_shards tx there, ShardManager.writeBalance,
          Finmap.lookup_insert_of_ne _ (Ne.symm here), found]
    obtain ⟨agree, still⟩ := untouched_iff penniless same
    exact ⟨agree, iff_of_true still fun own => absurd own here⟩

end Operations

/-- The step law: from empty ledgers an operation leaves agreeing ledgers exactly if
it leaves empty ones, and that is if it moves nothing. -/
theorem operate_iff (empty : PennilessAt shardId manager) (operation : ShardOperation) :
    (LedgersAgree shardId (manager.operate sha3 operation).2 ↔
        PennilessAt shardId (manager.operate sha3 operation).2) ∧
      (PennilessAt shardId (manager.operate sha3 operation).2 ↔
        MovesNothing shardId operation) := by
  obtain ⟨shard, found, penniless⟩ := empty
  cases operation with
  | execute target tx => exact execute_iff sha3 found penniless target tx
  | cross call =>
    cases call with
    | process tx =>
      obtain ⟨agree, still⟩ := process_iff found penniless tx
      exact ⟨agree, iff_of_true still trivial⟩
    | receive tx => exact receive_iff found penniless tx

theorem operate_keepsOther (operation : ShardOperation) :
    KeepsOther manager (manager.operate sha3 operation).2 operation := by
  cases operation with
  | execute target tx =>
    intro other
    change ((manager.executeOn sha3 target tx).2.shards.lookup other).map _ = _
    cases there : manager.shards.lookup target with
    | none => rw [executeOn_missing sha3 target tx there]
    | some shard =>
      rw [executeOn_shards sha3 target tx there, FiniteMap.lookup_insert]
      split
      next same => rw [same, there]; rfl
      next => rfl
  | cross call =>
    -- a written balance leaves the machine of its shard in place
    have writes : ∀ target shard owner balance, manager.shards.lookup target = some shard →
        ∀ other, ((manager.writeBalance target shard owner balance).shards.lookup other).map
            (fun shard => shard.config.vm) =
          (manager.shards.lookup other).map fun shard => shard.config.vm := by
      intro target shard owner balance found other
      rw [ShardManager.writeBalance, FiniteMap.lookup_insert]
      split
      next same => rw [same, found]; rfl
      next => rfl
    intro other
    cases call with
    | process tx =>
      change ((manager.processCrossChainTx tx).2.shards.lookup other).map _ = _
      rcases process_cases manager tx with same | ⟨source, there, -, after⟩
      · rw [same]
      · rw [after]
        exact writes _ _ _ _ there other
    | receive tx =>
      change ((manager.receiveCrossChainTx tx).2.shards.lookup other).map _ = _
      cases there : manager.shards.lookup tx.targetShard with
      | none => rw [receive_missing manager tx there]
      | some shard =>
        rw [receive_shards tx there]
        exact writes _ _ _ _ there other

end Step

theorem initialized_penniless (sha3 : Sha3) (manager : ShardManager)
    (validatorSet : ValidatorSet) (committee : U64 → List Address) {shardId : U16}
    (created : shardId.toNat < manager.config.shardCount.toNat) :
    PennilessAt shardId (manager.initializeShards sha3 validatorSet committee) := by
  refine ⟨_, initializeShards_lookup sha3 manager validatorSet committee created, ?_, ?_⟩
  · exact fun _ => rfl
  · exact fun _ => rfl

/-- The ledgers of a shard are written apart. From initialized shards on they agree all
along a run exactly if no operation of the run moves a balance on the shard. -/
theorem ledgers_iff (sha3 : Sha3) (manager : ShardManager) (validatorSet : ValidatorSet)
    (committee : U64 → List Address) (shardId : U16)
    (created : shardId.toNat < manager.config.shardCount.toNat)
    (operations : List ShardOperation) :
    (∀ (state : ShardManager) operation,
        KeepsOther state (state.operate sha3 operation).2 operation) ∧
      (Runs.Visits (ShardManager.operate sha3) (LedgersAgree shardId)
          (manager.initializeShards sha3 validatorSet committee) operations ↔
        ∀ operation ∈ operations, MovesNothing shardId operation) := by
  refine ⟨fun state => operate_keepsOther sha3, ?_⟩
  rw [← Runs.meets_const (ShardManager.operate sha3) _
    (manager.initializeShards sha3 validatorSet committee)]
  have sound : ∀ state, PennilessAt shardId state → LedgersAgree shardId state := by
    rintro state ⟨shard, found, penniless⟩
    exact (untouched_iff penniless found).1.mpr ⟨shard, found, penniless⟩
  have keep : ∀ state operation, PennilessAt shardId state → MovesNothing shardId operation →
      PennilessAt shardId (ShardManager.operate sha3 state operation).2 :=
    fun state operation empty idle => (operate_iff sha3 empty operation).2.mpr idle
  have guarded : ∀ state operation, PennilessAt shardId state →
      LedgersAgree shardId (ShardManager.operate sha3 state operation).2 →
        MovesNothing shardId operation := by
    intro state operation empty agree
    obtain ⟨stronger, idle⟩ := operate_iff sha3 empty operation
    exact idle.mp (stronger.mp agree)
  exact Runs.visits_iff_meets_of_stronger _ sound keep guarded
    (initialized_penniless sha3 manager validatorSet committee created) operations

namespace Sample

def initialized : ShardManager :=
  ShardManager.initializeShards Sample.sha3
    (ShardManager.new { ChainConfig.default with shardCount := 2 } CrossChainRouter.new)
    ValidatorSet.new fun _ => []

end Sample

theorem ledgers_sample :
    Runs.Visits (ShardManager.operate Sample.sha3) (LedgersAgree 1) Sample.initialized
      [.cross (.process Sample.payment), .cross (.receive { Sample.payment with amount := 0 })] :=
  (ledgers_iff Sample.sha3
    (ShardManager.new { ChainConfig.default with shardCount := 2 } CrossChainRouter.new)
    ValidatorSet.new (fun _ => []) 1 (by decide)
    [.cross (.process Sample.payment),
      .cross (.receive { Sample.payment with amount := 0 })]).2.mpr (by decide)

/-- A credit from another shard is in the shard state and not in the machine. -/
theorem credit_splits_ledgers :
    ¬ Runs.Visits (ShardManager.operate Sample.sha3) (LedgersAgree 1) Sample.initialized
      [.cross (.receive Sample.payment)] := by
  intro visits
  have agree := visits _ [] (List.append_nil _).symm
  have receiver : ∀ shard ∈ (Runs.run (ShardManager.operate Sample.sha3) Sample.initialized
      [.cross (.receive Sample.payment)]).2.shards.lookup 1,
      shard.state.balanceOf (Sample.address 2) =
        balanceOf shard.config.vm.state (Sample.address 2) :=
    fun shard found => agree shard found _
  exact absurd receiver (by decide)

end ProtonChain.Multichain
