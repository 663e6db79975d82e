import ProtonChain.Vm.ParallelExecutor

/-! Transactions that touch different accounts.

The footprint of a transaction holds every address that its execution looks up or writes to.
Where footprints are disjoint no result depends on what ran before, and effects commute.
-/

set_option autoImplicit false

namespace ProtonChain.Vm

section Footprint
variable (sha3 : Sha3)

/-- Sender, receiver, and the contract that a deployment installs. -/
def footprint (tx : Transaction) : List Address :=
  tx.sender :: receiverAddr tx ::
    if tx.txType = .contractDeploy then [contractAddr sha3 tx] else []

def FootprintsDisjoint (txs : List Transaction) : Prop :=
  txs.Pairwise fun first second => (footprint sha3 first).Disjoint (footprint sha3 second)

instance (txs : List Transaction) : Decidable (FootprintsDisjoint sha3 txs) :=
  inferInstanceAs (Decidable (txs.Pairwise fun first second =>
    ∀ address ∈ footprint sha3 first, address ∉ footprint sha3 second))

theorem sender_mem_footprint (tx : Transaction) : tx.sender ∈ footprint sha3 tx :=
  List.mem_cons_self

theorem receiver_mem_footprint (tx : Transaction) : receiverAddr tx ∈ footprint sha3 tx :=
  List.mem_cons_of_mem _ List.mem_cons_self

theorem contract_mem_footprint {tx : Transaction} (kind : tx.txType = .contractDeploy) :
    contractAddr sha3 tx ∈ footprint sha3 tx := by
  simp [footprint, kind]

end Footprint

structure SameAt (addresses : List Address) (first second : ProtonVM) : Prop where
  accounts : ∀ address ∈ addresses,
    first.state.accounts.lookup address = second.state.accounts.lookup address
  contracts : ∀ address ∈ addresses,
    first.state.contracts.lookup address = second.state.contracts.lookup address
  schedule : first.gasSchedule = second.gasSchedule

theorem SameAt.refl (addresses : List Address) (vm : ProtonVM) : SameAt addresses vm vm :=
  ⟨fun _ _ => rfl, fun _ _ => rfl, rfl⟩

theorem SameAt.trans {addresses : List Address} {first second third : ProtonVM}
    (one : SameAt addresses first second) (two : SameAt addresses second third) :
    SameAt addresses first third where
  accounts address member := (one.accounts address member).trans (two.accounts address member)
  contracts address member := (one.contracts address member).trans (two.contracts address member)
  schedule := one.schedule.trans two.schedule

/-! ## Locality of one execution -/

section Locality
variable {sha3 : Sha3} {tx : Transaction}

theorem effectOf_sameAt {addresses : List Address}
    (disjoint : (footprint sha3 tx).Disjoint addresses) (vm : ProtonVM) :
    SameAt addresses (effectOf sha3 tx vm) vm := by
  rcases kind_cases tx with transfer | deploy | inert
  · rw [effectOf_transfer transfer]
    refine ⟨fun address member => ?_, fun _ _ => rfl, rfl⟩
    apply transferred_frame
    · rintro rfl
      exact disjoint (sender_mem_footprint sha3 tx) member
    · rintro rfl
      exact disjoint (receiver_mem_footprint sha3 tx) member
  · have elsewhere : ∀ address ∈ addresses, address ≠ contractAddr sha3 tx := by
      rintro address member rfl
      exact disjoint (contract_mem_footprint sha3 deploy) member
    rw [effectOf_deploy deploy]
    refine ⟨fun address member => ?_, fun address member => ?_, rfl⟩
    · rw [deployed_lookup, if_neg (elsewhere address member)]
    · rw [deployed_contracts, if_neg (elsewhere address member)]
  · rw [effectOf_inert inert]
    exact SameAt.refl addresses vm

theorem execute_sameAt {addresses : List Address}
    (disjoint : (footprint sha3 tx).Disjoint addresses) (vm : ProtonVM) :
    SameAt addresses (executeTransaction sha3 vm tx).2 vm := by
  cases succeeded : (executeTransaction sha3 vm tx).1.success with
  | true =>
    rw [execute_succeeded vm succeeded]
    exact effectOf_sameAt disjoint vm
  | false =>
    rw [execute_failed sha3 vm tx succeeded]
    exact SameAt.refl addresses vm

theorem transfer_result_of_sameAt {first second : ProtonVM} (kind : IsTransfer tx)
    (same : SameAt (footprint sha3 tx) first second) :
    (executeTransaction sha3 first tx).1 = (executeTransaction sha3 second tx).1 := by
  have account : first.state.account tx.sender = second.state.account tx.sender := by
    rw [VMState.account, same.accounts _ (sender_mem_footprint sha3 tx), VMState.account]
  have affordable : Affordable first.state tx ↔ Affordable second.state tx := by
    rw [Affordable, account, Affordable]
  exact transfer_result kind same.schedule affordable

theorem result_of_sameAt {first second : ProtonVM}
    (same : SameAt (footprint sha3 tx) first second) :
    (executeTransaction sha3 first tx).1 = (executeTransaction sha3 second tx).1 := by
  rcases type_cases tx with transfer | deploy | call | unsupported
  · exact transfer_result_of_sameAt transfer same
  · rw [execute_deploy sha3 first tx deploy, execute_deploy sha3 second tx deploy, same.schedule]
  · have contract := same.contracts _ (receiver_mem_footprint sha3 tx)
    cases found : second.state.contracts.lookup (receiverAddr tx) with
    | none =>
      rw [execute_call_missing call found, execute_call_missing call (contract.trans found),
        same.schedule]
    | some code =>
      rw [execute_call call found, execute_call call (contract.trans found), same.schedule]
  · rw [execute_unsupported unsupported, execute_unsupported unsupported, same.schedule]

/-- Transactions with other footprints leave the entries at some addresses alone. -/
theorem afterTransactions_sameAt {addresses : List Address} (txs : List Transaction)
    (disjoint : ∀ tx ∈ txs, (footprint sha3 tx).Disjoint addresses) (vm : ProtonVM) :
    SameAt addresses (afterTransactions sha3 vm txs) vm := by
  unfold afterTransactions
  induction txs generalizing vm with
  | nil => exact SameAt.refl addresses vm
  | cons tx rest ih =>
    obtain ⟨now, later⟩ := List.forall_mem_cons.mp disjoint
    rw [Runs.run_cons]
    exact (ih later (executeTransaction sha3 vm tx).2).trans (execute_sameAt now vm)

end Locality

/-! ## Any order -/

section Orders
variable {sha3 : Sha3} {txs : List Transaction} (disjoint : FootprintsDisjoint sha3 txs)
include disjoint

theorem footprints_disjoint {first second : Transaction} (firstIn : first ∈ txs)
    (secondIn : second ∈ txs) (apart : first ≠ second) :
    (footprint sha3 first).Disjoint (footprint sha3 second) := by
  have symmetric : Std.Symm fun left right : Transaction =>
      (footprint sha3 left).Disjoint (footprint sha3 right) := ⟨fun _ _ => List.Disjoint.symm⟩
  exact disjoint.forall firstIn secondIn apart

theorem nodup_of_footprints : txs.Nodup := by
  refine disjoint.imp ?_
  rintro first second apart rfl
  exact apart (sender_mem_footprint sha3 first) (sender_mem_footprint sha3 first)

theorem keepsDeployed_of_footprints {deploy other : Transaction} (deployIn : deploy ∈ txs)
    (otherIn : other ∈ txs) (apart : deploy ≠ other) (kind : deploy.txType = .contractDeploy)
    (state : VMState) : KeepsDeployed sha3 state deploy other := by
  have separate := footprints_disjoint disjoint deployIn otherIn apart
  have installed := contract_mem_footprint sha3 kind
  constructor
  · intro kind' clash
    exact absurd (clash ▸ contract_mem_footprint sha3 kind') (separate installed)
  · intro transfer paid change listed
    exfalso
    rw [lookup_transferChanges] at listed
    split at listed
    next receiver => exact separate installed (receiver ▸ receiver_mem_footprint sha3 other)
    next =>
      split at listed
      next sender => exact separate installed (sender ▸ sender_mem_footprint sha3 other)
      next => cases listed

theorem disjoint_orderFree (vm : ProtonVM) :
    ∃ final, Runs.OrderFree (executeTransaction sha3) vm txs
      (fun tx => (executeTransaction sha3 vm tx).1) final := by
  have commute : Runs.Commute (effectFrom sha3 vm) txs := by
    intro first firstIn second secondIn apart machine
    have firstKept := keepsDeployed_of_footprints disjoint firstIn secondIn apart
    have secondKept := keepsDeployed_of_footprints disjoint secondIn firstIn (Ne.symm apart)
    exact effectFrom_comm (fun kind => firstKept kind vm.state)
      (fun kind => secondKept kind vm.state) machine
  -- what ran before has left the footprint of the next one alone
  have stable : Runs.Stable (executeTransaction sha3) vm txs
      (fun tx => (executeTransaction sha3 vm tx).1) := by
    intro selection sub tx member others
    apply result_of_sameAt
    apply afterTransactions_sameAt
    intro other selected
    apply footprints_disjoint disjoint (sub.subset selected) member
    rintro rfl
    exact others selected
  refine ⟨_, Runs.orderFree_of_commute commute stable ?_ (nodup_of_footprints disjoint)⟩
  intro machine tx _ same
  exact effectFrom_determined same

end Orders

/-- Transactions with disjoint footprints give the same results and the same machine in every
order, and each of them the result that it has alone. -/
theorem disjoint_reorder (sha3 : Sha3) (vm : ProtonVM) (txs order : List Transaction)
    (disjoint : FootprintsDisjoint sha3 txs) (perm : order.Perm txs) :
    (executeBlockSequential sha3 vm order).2 = (executeBlockSequential sha3 vm txs).2 ∧
      (executeBlockSequential sha3 vm order).1 =
        order.map fun tx => (executeTransaction sha3 vm tx).1 := by
  obtain ⟨final, free⟩ := disjoint_orderFree disjoint vm
  have listed := free txs (List.Perm.refl txs)
  have reordered := free order perm
  rw [executeBlockSequential, executeBlockSequential, listed, reordered]
  exact ⟨rfl, rfl⟩

/-- A transfer, a deployment, a private transfer and a call with nothing in common. -/
def Sample.separate : List Transaction :=
  [Sample.transaction .transfer 1 (some 2) 100 3, Sample.transaction .contractDeploy 5 none 9 1,
    Sample.transaction .privateTransfer 6 (some 7) 0 0, Sample.transaction .contractCall 8 none 0 0]

theorem disjoint_reorder_sample :
    (executeBlockSequential Sample.sha3 Sample.funded Sample.separate.reverse).2 =
        (executeBlockSequential Sample.sha3 Sample.funded Sample.separate).2 ∧
      (executeBlockSequential Sample.sha3 Sample.funded Sample.separate.reverse).1 =
        Sample.separate.reverse.map fun tx =>
          (executeTransaction Sample.sha3 Sample.funded tx).1 :=
  disjoint_reorder Sample.sha3 Sample.funded Sample.separate Sample.separate.reverse (by decide)
    (List.reverse_perm Sample.separate)

end ProtonChain.Vm
