import ProtonChain.Vm.ParallelExecutor

/-! When the order of a block does not matter.

The block executor has no conflict detection. Whether its orders agree is decided by the
amounts of the transfers against the balances that the block starts from, and by what the
deployments of the block install.
-/

set_option autoImplicit false

namespace ProtonChain.Vm

open Runs (Schedule)

/-! ## Conditions on the block and the state it starts from -/

/-- What a paid transfer adds to the balance at an address; a debit wraps below zero. -/
def amountAt (tx : Transaction) (address : Address) : U128 :=
  if address = receiverAddr tx then tx.value
  else if address = tx.sender then -totalCost tx
  else 0

def Payable (state : VMState) (tx : Transaction) : Prop :=
  IsTransfer tx ∧ Affordable state tx

instance (state : VMState) (tx : Transaction) : Decidable (Payable state tx) :=
  inferInstanceAs (Decidable (_ ∧ _))

def payable (state : VMState) (txs : List Transaction) (selection : List (Fin txs.length)) :
    List (Fin txs.length) :=
  selection.filter fun index => Payable state (txs.get index)

/-- The balance at an address at the start, together with the amounts of some transfers. -/
def balanceWith (state : VMState) (txs : List Transaction) (address : Address)
    (paid : List (Fin txs.length)) : U128 :=
  paid.foldl (fun balance index => balance + amountAt (txs.get index) address)
    (state.account address).balance

/-- A sender covers value and gas of its transfer at the start exactly if it still does with
the amounts of any other payable transfers, and with the value of a deployment that installs
its account. -/
structure BalancesDecide (sha3 : Sha3) (state : VMState) (txs : List Transaction) : Prop where
  transfers : ∀ index, IsTransfer (txs.get index) →
    ∀ paid, paid.Sublist (payable state txs (List.finRange txs.length)) → index ∉ paid →
      (totalCost (txs.get index) ≤ balanceWith state txs (txs.get index).sender paid ↔
        Affordable state (txs.get index))
  deployments : ∀ index, IsTransfer (txs.get index) →
    ∀ deploy, (txs.get deploy).txType = .contractDeploy →
      contractAddr sha3 (txs.get deploy) = (txs.get index).sender →
        (totalCost (txs.get index) ≤ (txs.get deploy).value ↔ Affordable state (txs.get index))

/-- Where a deployment installs the contract of a call, the start has one that costs the
same gas. -/
def CallsDecided (sha3 : Sha3) (vm : ProtonVM) (txs : List Transaction) : Prop :=
  ∀ index, (txs.get index).txType = .contractCall →
    ∀ deploy, (txs.get deploy).txType = .contractDeploy →
      contractAddr sha3 (txs.get deploy) = receiverAddr (txs.get index) →
        ∃ contract, vm.state.contracts.lookup (receiverAddr (txs.get index)) = some contract ∧
          codeGas vm.gasSchedule contract =
            codeGas vm.gasSchedule (deployedCode (txs.get deploy))

/-! ## The machine after some effects of the block -/

section Effects
variable (sha3 : Sha3) (vm : ProtonVM) (txs : List Transaction)

def withEffects (selection : List (Fin txs.length)) : ProtonVM :=
  selection.foldl (fun machine index => effectFrom sha3 vm (txs.get index) machine) vm

theorem withEffects_concat (selection : List (Fin txs.length)) (last : Fin txs.length) :
    withEffects sha3 vm txs (selection ++ [last]) =
      effectFrom sha3 vm (txs.get last) (withEffects sha3 vm txs selection) := by
  simp [withEffects]

end Effects

section Tables
variable {sha3 : Sha3} {vm : ProtonVM}

theorem effectFrom_deploy {tx : Transaction} (kind : tx.txType = .contractDeploy)
    (machine : ProtonVM) : effectFrom sha3 vm tx machine = deployed sha3 machine tx := by
  rw [effectFrom, execute_deploy sha3 vm tx kind, effectOf_deploy kind]
  rfl

theorem effectFrom_other {tx : Transaction} (other : tx.txType ≠ .contractDeploy)
    (machine : ProtonVM) :
    effectFrom sha3 vm tx machine =
      if Payable vm.state tx then transferred machine tx else machine := by
  by_cases transfer : IsTransfer tx
  · by_cases paid : Affordable vm.state tx
    · rw [effectFrom, (transfer_success_iff sha3 vm tx transfer).mpr paid,
        effectOf_transfer transfer, if_pos rfl, if_pos ⟨transfer, paid⟩]
    · have short : ¬ Payable vm.state tx := fun pays => paid pays.2
      rw [effectFrom, execute_short sha3 vm tx transfer paid, if_neg short]
      rfl
  · have short : ¬ Payable vm.state tx := fun pays => transfer pays.1
    rw [if_neg short, effectFrom, effectOf_inert ⟨transfer, other⟩, ite_self]

theorem effectFrom_schedule (tx : Transaction) (machine : ProtonVM) :
    (effectFrom sha3 vm tx machine).gasSchedule = machine.gasSchedule := by
  by_cases kind : tx.txType = .contractDeploy
  · rw [effectFrom_deploy kind]
    rfl
  · rw [effectFrom_other kind]
    split <;> rfl

theorem amountAt_eq (tx : Transaction) (address : Address) :
    amountAt tx address =
      ((transferChanges tx).lookup address).elim 0 AccountChange.balanceDelta := by
  rw [lookup_transferChanges, amountAt]
  split
  · rfl
  · split <;> rfl

theorem transferred_balance (machine : ProtonVM) (tx : Transaction) (address : Address) :
    ((transferred machine tx).state.account address).balance =
      (machine.state.account address).balance + amountAt tx address := by
  rw [VMState.account, transferred_lookup, amountAt_eq]
  cases (transferChanges tx).lookup address with
  | none => exact (BitVec.add_zero _).symm
  | some change => rfl

variable {txs : List Transaction}

theorem withEffects_schedule (selection : List (Fin txs.length)) :
    (withEffects sha3 vm txs selection).gasSchedule = vm.gasSchedule := by
  induction selection using List.reverseRecOn with
  | nil => rfl
  | append_singleton earlier last ih => rw [withEffects_concat, effectFrom_schedule, ih]

def Uninstalled (sha3 : Sha3) (txs : List Transaction) (selection : List (Fin txs.length))
    (address : Address) : Prop :=
  ∀ deploy ∈ selection, (txs.get deploy).txType = .contractDeploy →
    contractAddr sha3 (txs.get deploy) ≠ address

theorem Uninstalled.split {selection : List (Fin txs.length)} {last : Fin txs.length}
    {address : Address} (free : Uninstalled sha3 txs (selection ++ [last]) address) :
    Uninstalled sha3 txs selection address ∧
      ((txs.get last).txType = .contractDeploy →
        contractAddr sha3 (txs.get last) ≠ address) :=
  ⟨fun deploy member => free deploy (List.mem_append_left _ member),
    free last (List.mem_append_right _ (List.mem_singleton_self last))⟩

theorem contracts_uninstalled {selection : List (Fin txs.length)} {address : Address}
    (free : Uninstalled sha3 txs selection address) :
    (withEffects sha3 vm txs selection).state.contracts.lookup address =
      vm.state.contracts.lookup address := by
  induction selection using List.reverseRecOn with
  | nil => rfl
  | append_singleton earlier last ih =>
    obtain ⟨before, apart⟩ := free.split
    rw [withEffects_concat]
    by_cases kind : (txs.get last).txType = .contractDeploy
    · rw [effectFrom_deploy kind, deployed_contracts, if_neg (Ne.symm (apart kind)), ih before]
    · rw [effectFrom_other kind, ← ih before]
      split <;> rfl

theorem payable_concat (state : VMState) (selection : List (Fin txs.length))
    (last : Fin txs.length) :
    payable state txs (selection ++ [last]) =
      payable state txs selection ++ if Payable state (txs.get last) then [last] else [] := by
  rw [payable, List.filter_append, ← payable]
  by_cases pays : Payable state (txs.get last)
  · simp only [List.filter_cons, pays, decide_true, if_true, List.filter_nil]
  · simp only [List.filter_cons, pays, decide_false, Bool.false_eq_true, if_false,
      List.filter_nil]

theorem balance_uninstalled {selection : List (Fin txs.length)} {address : Address}
    (free : Uninstalled sha3 txs selection address) :
    ((withEffects sha3 vm txs selection).state.account address).balance =
      balanceWith vm.state txs address (payable vm.state txs selection) := by
  induction selection using List.reverseRecOn with
  | nil => simp [withEffects, balanceWith, payable]
  | append_singleton earlier last ih =>
    obtain ⟨before, apart⟩ := free.split
    rw [withEffects_concat, payable_concat]
    by_cases kind : (txs.get last).txType = .contractDeploy
    · have short : ¬ Payable vm.state (txs.get last) :=
        fun pays => not_transfer_of_deploy kind pays.1
      rw [effectFrom_deploy kind, VMState.account, deployed_lookup,
        if_neg (Ne.symm (apart kind)), ← VMState.account, ih before, if_neg short,
        List.append_nil]
    · rw [effectFrom_other kind]
      by_cases pays : Payable vm.state (txs.get last)
      · rw [if_pos pays, if_pos pays, transferred_balance, ih before]
        simp [balanceWith]
      · rw [if_neg pays, if_neg pays, ih before, List.append_nil]

/-- What is installed once stays, since the block keeps its deployments. -/
theorem installed_stays (kept : DeploymentsKept sha3 vm txs) {selection : List (Fin txs.length)}
    {deploy : Fin txs.length} (member : deploy ∈ selection)
    (kind : (txs.get deploy).txType = .contractDeploy) :
    let address := contractAddr sha3 (txs.get deploy)
    let machine := withEffects sha3 vm txs selection
    (machine.state.account address).balance = (txs.get deploy).value ∧
      machine.state.contracts.lookup address = some (deployedCode (txs.get deploy)) := by
  intro address machine
  induction selection using List.reverseRecOn with
  | nil => simp at member
  | append_singleton earlier last ih =>
    have concat : machine =
        effectFrom sha3 vm (txs.get last) (withEffects sha3 vm txs earlier) :=
      withEffects_concat sha3 vm txs earlier last
    rw [concat]
    by_cases same : last = deploy
    · subst same
      rw [effectFrom_deploy kind, VMState.account, deployed_lookup, deployed_contracts,
        if_pos rfl, if_pos rfl]
      exact ⟨rfl, rfl⟩
    · have before : deploy ∈ earlier := by
        rcases List.mem_append.mp member with found | found
        · exact found
        · exact absurd (List.mem_singleton.mp found).symm same
      obtain ⟨balance, code⟩ := ih before
      have keeps := kept deploy last (Ne.symm same) kind
      by_cases deploys : (txs.get last).txType = .contractDeploy
      · rw [effectFrom_deploy deploys, VMState.account, deployed_lookup, deployed_contracts]
        by_cases clash : address = contractAddr sha3 (txs.get last)
        · obtain ⟨data, value⟩ := keeps.redeploy deploys clash.symm
          rw [if_pos clash, if_pos clash]
          exact ⟨value, congrArg some (by simp only [deployedCode, data])⟩
        · rw [if_neg clash, if_neg clash]
          exact ⟨balance, code⟩
      · rw [effectFrom_other deploys]
        by_cases pays : Payable vm.state (txs.get last)
        · have nothing : amountAt (txs.get last) address = 0 := by
            rw [amountAt_eq]
            cases listed : (transferChanges (txs.get last)).lookup address with
            | none => rfl
            | some change => exact (keeps.transfer pays.1 pays.2 change listed).1
          rw [if_pos pays, transferred_balance, nothing, balance]
          exact ⟨BitVec.add_zero _, code⟩
        · rw [if_neg pays]
          exact ⟨balance, code⟩

end Tables

/-! ## Results after a selection of the block -/

section Results
variable {sha3 : Sha3} {vm : ProtonVM} {txs : List Transaction}

variable (sha3) in
theorem uninstalled_or (selection : List (Fin txs.length)) (address : Address) :
    Uninstalled sha3 txs selection address ∨
      ∃ deploy ∈ selection, (txs.get deploy).txType = .contractDeploy ∧
        contractAddr sha3 (txs.get deploy) = address := by
  by_cases free : Uninstalled sha3 txs selection address
  · exact .inl free
  · simp only [Uninstalled, not_forall, not_not] at free
    obtain ⟨deploy, member, kind, there⟩ := free
    exact .inr ⟨deploy, member, kind, there⟩

/-- Under the conditions a transaction answers after any selection as it does at the start. -/
theorem result_withEffects (balances : BalancesDecide sha3 vm.state txs)
    (calls : CallsDecided sha3 vm txs) (kept : DeploymentsKept sha3 vm txs)
    {selection : List (Fin txs.length)} (listed : selection.Sublist (List.finRange txs.length))
    {index : Fin txs.length} (apart : index ∉ selection) :
    (executeAt sha3 txs (withEffects sha3 vm txs selection) index).1 =
      (executeAt sha3 txs vm index).1 := by
  have schedule : (withEffects sha3 vm txs selection).gasSchedule = vm.gasSchedule :=
    withEffects_schedule selection
  rcases type_cases (txs.get index) with transfer | deploy | call | unsupported
  · apply transfer_result transfer schedule
    rw [Affordable]
    rcases uninstalled_or sha3 selection (txs.get index).sender with
      free | ⟨deploy, member, kind, there⟩
    · rw [balance_uninstalled free]
      refine balances.transfers index transfer _ (listed.filter _) ?_
      exact fun paid => apart (List.mem_filter.mp paid).1
    · have installed := (installed_stays kept member kind).1
      rw [there] at installed
      rw [installed]
      exact balances.deployments index transfer deploy kind there
  · rw [executeAt, executeAt, execute_deploy sha3 _ _ deploy, execute_deploy sha3 _ _ deploy,
      schedule]
  · rw [executeAt, executeAt]
    rcases uninstalled_or sha3 selection (receiverAddr (txs.get index)) with
      free | ⟨deploy, member, kind, there⟩
    · have same : (withEffects sha3 vm txs selection).state.contracts.lookup
          (receiverAddr (txs.get index)) =
            vm.state.contracts.lookup (receiverAddr (txs.get index)) :=
        contracts_uninstalled free
      cases found : vm.state.contracts.lookup (receiverAddr (txs.get index)) with
      | none =>
        rw [execute_call_missing call found, execute_call_missing call (same.trans found),
          schedule]
      | some contract =>
        rw [execute_call call found, execute_call call (same.trans found), schedule]
    · obtain ⟨contract, found, gas⟩ := calls index call deploy kind there
      have installed := (installed_stays kept member kind).2
      rw [there] at installed
      rw [execute_call call found, execute_call call installed, schedule, gas]
  · rw [executeAt, executeAt, execute_unsupported unsupported, execute_unsupported unsupported,
      schedule]

/-- A run in which each transaction answers as at the start has the effects of the start. -/
theorem run_eq_withEffects {selection : List (Fin txs.length)}
    (listed : selection.Sublist (List.finRange txs.length))
    (answered : ∀ earlier : List (Fin txs.length), ∀ last,
      (earlier ++ [last]).Sublist (List.finRange txs.length) →
        (Runs.run (executeAt sha3 txs) vm earlier).2 = withEffects sha3 vm txs earlier →
          (executeAt sha3 txs (withEffects sha3 vm txs earlier) last).1 =
            (executeAt sha3 txs vm last).1) :
    (Runs.run (executeAt sha3 txs) vm selection).2 = withEffects sha3 vm txs selection := by
  induction selection using List.reverseRecOn with
  | nil => rfl
  | append_singleton earlier last ih =>
    have before := ih ((List.sublist_append_left earlier [last]).trans listed)
    rw [Runs.run_concat, before, withEffects_concat]
    exact effectFrom_determined (answered earlier last listed before)

theorem fresh_of_listed {earlier : List (Fin txs.length)} {last : Fin txs.length}
    (listed : (earlier ++ [last]).Sublist (List.finRange txs.length)) : last ∉ earlier := by
  have distinct := listed.nodup (List.nodup_finRange txs.length)
  intro member
  exact (List.nodup_append.mp distinct).2.2 last member last (List.mem_singleton_self last) rfl

/-- Every transaction answers after any selection of the others as it does at the start. -/
abbrev AnswersStable (sha3 : Sha3) (vm : ProtonVM) (txs : List Transaction) : Prop :=
  Runs.Stable (executeAt sha3 txs) vm (List.finRange txs.length)
    (fun index => (executeAt sha3 txs vm index).1)

theorem stable_of_decided (balances : BalancesDecide sha3 vm.state txs)
    (calls : CallsDecided sha3 vm txs) (kept : DeploymentsKept sha3 vm txs) :
    AnswersStable sha3 vm txs := by
  intro selection listed index _ apart
  rw [run_eq_withEffects listed]
  · exact result_withEffects balances calls kept listed apart
  · intro earlier last sub _
    exact result_withEffects balances calls kept
      ((List.sublist_append_left earlier [last]).trans sub) (fresh_of_listed sub)

/-! ## What stable answers say about the start -/

theorem AnswersStable.withEffects (stable : AnswersStable sha3 vm txs)
    {selection : List (Fin txs.length)} (listed : selection.Sublist (List.finRange txs.length))
    {index : Fin txs.length} (apart : index ∉ selection) :
    (executeTransaction sha3 (withEffects sha3 vm txs selection) (txs.get index)).1 =
      (executeTransaction sha3 vm (txs.get index)).1 := by
  have reached : (Runs.run (executeAt sha3 txs) vm selection).2 =
      Vm.withEffects sha3 vm txs selection := by
    refine run_eq_withEffects listed ?_
    intro earlier last sub before
    rw [← before]
    exact stable earlier ((List.sublist_append_left earlier [last]).trans sub) last
      (List.mem_finRange last) (fresh_of_listed sub)
  rw [← reached]
  exact stable selection listed index (List.mem_finRange index) apart

theorem affordable_iff_of_result {machine : ProtonVM} {tx : Transaction} (kind : IsTransfer tx)
    (same : (executeTransaction sha3 machine tx).1 = (executeTransaction sha3 vm tx).1) :
    Affordable machine.state tx ↔ Affordable vm.state tx := by
  rw [← transfer_success_iff sha3 machine tx kind, same, transfer_success_iff sha3 vm tx kind]

theorem AnswersStable.balances (stable : AnswersStable sha3 vm txs) :
    BalancesDecide sha3 vm.state txs where
  transfers index kind paid sub apart := by
    have listed := sub.trans List.filter_sublist
    have pays : ∀ other ∈ paid, Payable vm.state (txs.get other) := by
      intro other member
      simpa using (List.mem_filter.mp (sub.subset member)).2
    have free : Uninstalled sha3 txs paid (txs.get index).sender := by
      intro other member deploy
      exact absurd (pays other member).1 (not_transfer_of_deploy deploy)
    have all : payable vm.state txs paid = paid :=
      List.filter_eq_self.mpr fun other member => decide_eq_true (pays other member)
    have same := affordable_iff_of_result kind (stable.withEffects listed apart)
    rw [Affordable, balance_uninstalled free, all] at same
    exact same
  deployments index kind deploy deploys there := by
    have apart : index ∉ [deploy] := by
      rw [List.mem_singleton]
      rintro rfl
      exact not_transfer_of_deploy deploys kind
    have listed := List.singleton_sublist.mpr (List.mem_finRange deploy)
    have same := affordable_iff_of_result kind (stable.withEffects listed apart)
    have installed : ((Vm.withEffects sha3 vm txs [deploy]).state.account
        (txs.get index).sender).balance = (txs.get deploy).value := by
      rw [Vm.withEffects, List.foldl_cons, List.foldl_nil, effectFrom_deploy deploys,
        VMState.account, deployed_lookup, if_pos there.symm]
      rfl
    rw [Affordable, installed] at same
    exact same

theorem AnswersStable.calls (stable : AnswersStable sha3 vm txs) : CallsDecided sha3 vm txs := by
  intro index call deploy deploys there
  have apart : index ∉ [deploy] := by
    rw [List.mem_singleton]
    rintro rfl
    rw [deploys] at call
    cases call
  have listed := List.singleton_sublist.mpr (List.mem_finRange deploy)
  have same := stable.withEffects listed apart
  have installed : (Vm.withEffects sha3 vm txs [deploy]).state.contracts.lookup
      (receiverAddr (txs.get index)) = some (deployedCode (txs.get deploy)) := by
    rw [Vm.withEffects, List.foldl_cons, List.foldl_nil, effectFrom_deploy deploys,
      deployed_contracts, if_pos there.symm]
  rw [execute_call call installed, withEffects_schedule] at same
  cases found : vm.state.contracts.lookup (receiverAddr (txs.get index)) with
  | none =>
    rw [execute_call_missing call found] at same
    exact absurd (congrArg ExecutionResult.success same) (by simp [ExecutionResult.completed,
      ExecutionResult.failure])
  | some contract =>
    rw [execute_call call found] at same
    have gas := congrArg ExecutionResult.gasUsed same
    exact ⟨contract, rfl, (BitVec.add_right_inj _).mp gas.symm⟩

end Results

/-! ## Parallel and sequential runs -/

section Agreement
variable (sha3 : Sha3) (vm : ProtonVM) (txs : List Transaction)

theorem sequential_eq_listed :
    executeBlockSequential sha3 vm txs =
      Runs.run (executeAt sha3 txs) vm (List.finRange txs.length) := by
  have names : (List.finRange txs.length).map txs.get = txs := by
    rw [← List.ofFn_eq_map, List.ofFn_get]
  rw [executeBlockSequential]
  conv_lhs => rw [← names]
  exact Runs.run_map (executeTransaction sha3) txs.get vm _

theorem agrees_iff_orderFree :
    AgreesWithSequential sha3 vm txs ↔
      ∃ out final, Runs.OrderFree (executeAt sha3 txs) vm (List.finRange txs.length) out final := by
  constructor
  · intro agrees
    let answers := (executeBlockSequential sha3 vm txs).1
    have answered : answers.length = txs.length := Runs.run_length _ _ _
    refine ⟨fun index => answers.get (Fin.cast answered.symm index),
      (executeBlockSequential sha3 vm txs).2, ?_⟩
    intro order perm
    obtain ⟨collected, state⟩ := Prod.ext_iff.mp (agrees ⟨order, perm⟩)
    refine Prod.ext ?_ state
    refine ((Schedule.mk order perm).collect_eq_iff _ (Runs.run_length _ _ _) _).mp ?_
    refine collected.trans (List.ext_getElem (by simp [answered, answers]) ?_)
    intro place bound _
    simp [answers]
  · rintro ⟨out, final, free⟩ schedule
    have listed := free _ (List.Perm.refl (List.finRange txs.length))
    obtain ⟨answers, state⟩ := Prod.ext_iff.mp (free _ schedule.complete)
    rw [sequential_eq_listed, listed]
    refine Prod.ext ?_ state
    exact (schedule.collect_eq_iff _ (Runs.run_length _ _ _) out).mpr answers

variable {sha3 vm txs}

theorem agrees_of_stable (stable : AnswersStable sha3 vm txs)
    (kept : DeploymentsKept sha3 vm txs) : AgreesWithSequential sha3 vm txs := by
  -- what an index does is fixed by its result at the start, which stability keeps
  have commute : Runs.Commute (fun index => effectFrom sha3 vm (txs.get index))
      (List.finRange txs.length) := by
    intro first _ second _ apart machine
    exact effectFrom_comm (kept first second apart) (kept second first (Ne.symm apart)) machine
  refine (agrees_iff_orderFree sha3 vm txs).mpr
    ⟨_, _, Runs.orderFree_of_commute commute stable ?_ (List.nodup_finRange _)⟩
  intro machine index _ same
  exact effectFrom_determined same

theorem stable_of_agrees (agrees : AgreesWithSequential sha3 vm txs) :
    AnswersStable sha3 vm txs := by
  obtain ⟨out, final, free⟩ := (agrees_iff_orderFree sha3 vm txs).mp agrees
  have stable := free.stable
  have answers : out = fun index => (executeAt sha3 txs vm index).1 := by
    funext index
    exact (stable [] (List.nil_sublist _) index (List.mem_finRange index) (by simp)).symm
  rw [answers] at stable
  exact stable

theorem kept_of_agrees (agrees : AgreesWithSequential sha3 vm txs) :
    DeploymentsKept sha3 vm txs := by
  obtain ⟨out, final, free⟩ := (agrees_iff_orderFree sha3 vm txs).mp agrees
  intro first second apart deploy
  obtain ⟨machine, same, _, secondAfter, secondBefore, _⟩ :=
    free.swap (List.mem_finRange first) (List.mem_finRange second) apart
  -- Both orders of the pair, from one state; the second one answers the same in both.
  have start := free.stable [] (List.nil_sublist _) second (List.mem_finRange second) (by simp)
  simp only [executeAt, Runs.run_nil] at same secondAfter secondBefore start
  rw [execute_deploy sha3 machine _ deploy] at same secondAfter
  rw [execute_deploy sha3 _ (txs.get first) deploy] at same
  constructor
  · intro deploy' clash
    rw [execute_deploy sha3 _ (txs.get second) deploy',
      execute_deploy sha3 _ (txs.get second) deploy'] at same
    exact redeploy_of_commute same clash
  · intro transfer paid change listed
    have succeeded := (transfer_success_iff sha3 vm _ transfer).mpr paid
    rw [start] at succeeded
    have paidAfter := (transfer_success_iff sha3 _ _ transfer).mp (secondAfter ▸ succeeded)
    have paidBefore := (transfer_success_iff sha3 _ _ transfer).mp (secondBefore ▸ succeeded)
    rw [execute_paid sha3 _ _ transfer paidAfter, execute_paid sha3 _ _ transfer paidBefore] at same
    exact zero_of_commute same listed

/-- The parallel executor agrees with the sequential one in every order exactly if the start
balances decide the checks of the transfers, no deployment changes what a call of the block
answers, and no other transaction changes what a deployment of the block installs. -/
theorem parallel_agrees_iff (sha3 : Sha3) (vm : ProtonVM) (txs : List Transaction) :
    AgreesWithSequential sha3 vm txs ↔
      BalancesDecide sha3 vm.state txs ∧ CallsDecided sha3 vm txs ∧
        DeploymentsKept sha3 vm txs := by
  constructor
  · intro agrees
    have stable := stable_of_agrees agrees
    exact ⟨stable.balances, stable.calls, kept_of_agrees agrees⟩
  · rintro ⟨balances, calls, kept⟩
    exact agrees_of_stable (stable_of_decided balances calls kept) kept

end Agreement

/-- Account 2 can pay account 3 only after account 1 has paid account 2. -/
theorem dependent_transfers_disagree :
    ¬ AgreesWithSequential Sample.sha3 Sample.funded
      [Sample.transaction .transfer 1 (some 2) 100 3,
        Sample.transaction .transfer 2 (some 3) 50 3] := by
  intro agrees
  have same := agrees ⟨[1, 0], by decide⟩
  exact absurd (congrArg Prod.fst same) (by decide)

end ProtonChain.Vm
