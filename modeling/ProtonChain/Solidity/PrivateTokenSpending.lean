import ProtonChain.Library.History
import ProtonChain.Solidity.PrivateToken

/-! Nullifiers are spent once.

A call spends the nullifiers of its own events, which are new and differ from each other. What
is spent is what the events name, and neither ever shrinks.
-/

set_option autoImplicit false

namespace ProtonChain.Solidity.ProtonPrivateToken

open Checked

/-- The entries that have been spent between two states, in their order. -/
structure Spends {World : Type} (before : State World) (entries : List PrivateTransfer)
    (next : State World) : Prop where
  events : next.events = before.events ++ entries
  spent : ∀ nullifier, nullifier ∈ next.token.nullifierSpent ↔
    nullifier ∈ before.token.nullifierSpent ∨ nullifier ∈ entries.map PrivateTransfer.nullifier
  fresh : ∀ entry ∈ entries, entry.nullifier ∉ before.token.nullifierSpent
  distinct : (entries.map PrivateTransfer.nullifier).Nodup

def Call.entries : Call → List PrivateTransfer
  | .privateTransfer nullifier commitment _ encryptedAmount _ =>
    [⟨nullifier, commitment, encryptedAmount⟩]
  | .batchPrivateTransfer nullifiers commitments _ encryptedAmounts _ =>
    ProtonPrivateToken.entries nullifiers commitments encryptedAmounts
  | _ => []

def Input.entries {World : Type} : Input World → List PrivateTransfer
  | .call _ request => request.entries
  | .outside _ _ => []

section Calls
variable {World : Type} {env : TokenEnv World} {caller : Address} {before middle next : State World}
  {first second : List PrivateTransfer}

theorem Spends.none (same : next.token.nullifierSpent = before.token.nullifierSpent)
    (quiet : next.events = before.events) : Spends before [] next where
  events := by rw [quiet, List.append_nil]
  spent nullifier := by simp [same]
  fresh := by simp
  distinct := List.nodup_nil

theorem Spends.trans (one : Spends before first middle) (two : Spends middle second next) :
    Spends before (first ++ second) next where
  events := by rw [two.events, one.events, List.append_assoc]
  spent nullifier := by
    rw [two.spent, one.spent, List.map_append, List.mem_append, or_assoc]
  fresh entry member := by
    rcases List.mem_append.mp member with member | member
    · exact one.fresh entry member
    · intro spent
      exact two.fresh entry member ((one.spent _).mpr (.inl spent))
  distinct := by
    rw [List.map_append]
    refine List.Nodup.append one.distinct two.distinct ?_
    intro nullifier spent again
    obtain ⟨entry, member, rfl⟩ := List.mem_map.mp again
    exact two.fresh entry member ((one.spent _).mpr (.inr spent))

theorem spends_spend {entry : PrivateTransfer}
    (fresh : entry.nullifier ∉ before.token.nullifierSpent) :
    Spends before [entry] (before.spend entry) where
  events := rfl
  spent nullifier := by
    rw [State.spend, Finset.mem_insert, List.map_singleton, List.mem_singleton, or_comm]
  fresh other member := by rwa [List.mem_singleton.mp member]
  distinct := List.nodup_singleton _

theorem spends_setRoot {entries : List PrivateTransfer} {root : Hash}
    (spends : Spends before entries next) : Spends before entries (next.setRoot root) :=
  ⟨spends.events, spends.spent, spends.fresh, spends.distinct⟩

theorem spends_spendEach {entries : List PrivateTransfer}
    (spent : spendEach entries before = .ok next) : Spends before entries next := by
  induction entries generalizing before with
  | nil =>
    obtain rfl := Except.ok.inj spent
    exact Spends.none rfl rfl
  | cons entry rest ih =>
    simp only [spendEach, bind_eq_ok, ensure_eq_ok] at spent
    obtain ⟨-, fresh, spent⟩ := spent
    exact (spends_spend fresh).trans (ih spent)

theorem privateTransfer_eq_ok {nullifier commitment root encryptedAmount : Hash} {proof : Bytes} :
    privateTransfer env before nullifier commitment root encryptedAmount proof = .ok next ↔
      verifyProof env before nullifier commitment root proof = .ok true ∧
        nullifier ∉ before.token.nullifierSpent ∧ root = before.token.merkleRoot ∧
        next = (before.spend ⟨nullifier, commitment, encryptedAmount⟩).setRoot
          (nextRoot env.keccak256 before.token.merkleRoot commitment) := by
  simp only [privateTransfer, bind_eq_ok, ensure_eq_ok, pure_eq_ok]
  constructor
  · rintro ⟨valid, verified, -, accepted, -, fresh, -, current, rfl⟩
    rw [accepted] at verified
    exact ⟨verified, fresh, current, rfl⟩
  · rintro ⟨verified, fresh, current, rfl⟩
    exact ⟨true, verified, (), rfl, (), fresh, (), current, rfl⟩

theorem privateTransfer_of_spent {nullifier commitment root : Hash} (encryptedAmount : Hash)
    {proof : Bytes} (spent : nullifier ∈ before.token.nullifierSpent)
    (verified : verifyProof env before nullifier commitment root proof = .ok true) :
    privateTransfer env before nullifier commitment root encryptedAmount proof =
      .error (.raised .nullifierAlreadySpent) := by
  have known : ¬ nullifier ∉ before.token.nullifierSpent := not_not.mpr spent
  rw [privateTransfer, verified, ensure, ensure, if_neg known]
  rfl

theorem batchPrivateTransfer_eq_ok {nullifiers commitments encryptedAmounts : List Hash}
    {root : Hash} {proof : Bytes} :
    batchPrivateTransfer env before nullifiers commitments root encryptedAmounts proof = .ok next ↔
      (nullifiers.length = commitments.length ∧ commitments.length = encryptedAmounts.length) ∧
        verifyBatchProof env before nullifiers commitments root proof = .ok true ∧
        ∃ spent, spendEach (entries nullifiers commitments encryptedAmounts) before = .ok spent ∧
          next = spent.setRoot (foldRoot env.keccak256 root commitments) := by
  simp only [batchPrivateTransfer, bind_eq_ok, ensure_eq_ok, pure_eq_ok]
  constructor
  · rintro ⟨-, lengths, valid, verified, -, accepted, spent, looped, rfl⟩
    rw [accepted] at verified
    exact ⟨lengths, verified, spent, looped, rfl⟩
  · rintro ⟨lengths, verified, spent, looped, rfl⟩
    exact ⟨(), lengths, true, verified, (), rfl, spent, looped, rfl⟩

theorem updateBalanceCommitment_eq_ok {account : Address} {newCommitment : Hash} :
    updateBalanceCommitment caller before account newCommitment = .ok next ↔
      caller = before.token.zkVerifier ∧ { before with
        token := { before.token with
          balanceCommitments := before.token.balanceCommitments.insert account newCommitment } } =
        next := by
  simp only [updateBalanceCommitment, bind_eq_ok, ensure_eq_ok, pure_eq_ok, exists_and_left,
    exists_const]

theorem updateMerkleRoot_eq_ok {newRoot : Hash} :
    updateMerkleRoot caller before newRoot = .ok next ↔
      caller = before.token.owner ∧ before.setRoot newRoot = next := by
  simp only [updateMerkleRoot, bind_eq_ok, ensure_eq_ok, pure_eq_ok, exists_and_left, exists_const]

theorem setZKVerifier_eq_ok {newVerifier : Address} :
    setZKVerifier caller before newVerifier = .ok next ↔
      caller = before.token.owner ∧
        { before with token := { before.token with zkVerifier := newVerifier } } = next := by
  simp only [setZKVerifier, bind_eq_ok, ensure_eq_ok, pure_eq_ok, exists_and_left, exists_const]

theorem perform_spends {input : Input World} (performed : perform env before input = .ok next) :
    Spends before input.entries next := by
  cases input with
  | outside world owner =>
    obtain rfl := Except.ok.inj performed
    exact Spends.none rfl rfl
  | call caller call =>
    cases call with
    | privateTransfer nullifier commitment root encryptedAmount proof =>
      obtain ⟨-, fresh, -, rfl⟩ := privateTransfer_eq_ok.mp performed
      exact spends_setRoot (spends_spend fresh)
    | batchPrivateTransfer nullifiers commitments root encryptedAmounts proof =>
      obtain ⟨-, -, spent, looped, rfl⟩ := batchPrivateTransfer_eq_ok.mp performed
      exact spends_setRoot (spends_spendEach looped)
    | registerViewKey viewKey =>
      obtain rfl := Except.ok.inj performed
      exact Spends.none rfl rfl
    | updateBalanceCommitment account newCommitment =>
      obtain ⟨-, rfl⟩ := updateBalanceCommitment_eq_ok.mp performed
      exact Spends.none rfl rfl
    | updateMerkleRoot newRoot =>
      obtain ⟨-, rfl⟩ := updateMerkleRoot_eq_ok.mp performed
      exact Spends.none rfl rfl
    | setZKVerifier newVerifier =>
      obtain ⟨-, rfl⟩ := setZKVerifier_eq_ok.mp performed
      exact Spends.none rfl rfl

end Calls

/-! ## Runs -/

section Runs
variable {World : Type} (env : TokenEnv World) (start : State World)

/-- The entries of a step, none where it reverts. -/
theorem step_spends (input : Input World) :
    ∃ entries, Spends start entries (step env start input).2 := by
  by_cases succeeds : Transactions.Succeeds (perform env) start input
  · obtain ⟨next, performed⟩ := succeeds
    rw [step, Transactions.step_of_ok performed]
    exact ⟨_, perform_spends performed⟩
  · rw [step, Transactions.step_of_not_succeeds succeeds]
    exact ⟨[], Spends.none rfl rfl⟩

theorem run_spends (inputs : List (Input World)) :
    ∃ entries, Spends start entries (Runs.run (step env) start inputs).2 := by
  induction inputs generalizing start with
  | nil => exact ⟨[], Spends.none rfl rfl⟩
  | cons input rest ih =>
    obtain ⟨now, spends⟩ := step_spends env start input
    obtain ⟨later, spends'⟩ := ih (step env start input).2
    exact ⟨now ++ later, spends.trans spends'⟩

theorem mem_nullifierSpent_run {nullifier : Hash} (spent : nullifier ∈ start.token.nullifierSpent)
    (inputs : List (Input World)) :
    nullifier ∈ (Runs.run (step env) start inputs).2.token.nullifierSpent := by
  obtain ⟨entries, spends⟩ := run_spends env start inputs
  exact (spends.spent nullifier).mpr (.inl spent)

end Runs

/-- Events of accepted calls name each nullifier once. A nullifier that an event has named is
spent from then on, and a call that reverts leaves everything as it was. -/
theorem spent_once {World : Type} (env : TokenEnv World) (deployer zkVerifier : Address)
    (world : World) (inputs : List (Input World)) :
    ((Runs.run (step env) (deployed deployer zkVerifier world) inputs).2.events.map
        PrivateTransfer.nullifier).Nodup ∧
    (∀ earlier later, inputs = earlier ++ later → ∀ event ∈
        (Runs.run (step env) (deployed deployer zkVerifier world) earlier).2.events,
      event ∈ (Runs.run (step env) (deployed deployer zkVerifier world) inputs).2.events ∧
        event.nullifier ∈ (Runs.run (step env)
          (deployed deployer zkVerifier world) inputs).2.token.nullifierSpent) ∧
    (∀ state input fault, (step env state input).1 = .error fault →
      (step env state input).2 = state) := by
  obtain ⟨entries, spends⟩ := run_spends env (deployed deployer zkVerifier world) inputs
  have events : (Runs.run (step env) (deployed deployer zkVerifier world) inputs).2.events =
      entries := spends.events
  refine ⟨?_, ?_, ?_⟩
  · rw [events]
    exact spends.distinct
  · rintro earlier later rfl event member
    rw [Runs.run_append] at spends events ⊢
    obtain ⟨entries', spends'⟩ := run_spends env
      (Runs.run (step env) (deployed deployer zkVerifier world) earlier).2 later
    have kept : event ∈ (Runs.run (step env) (Runs.run (step env)
        (deployed deployer zkVerifier world) earlier).2 later).2.events := by
      rw [spends'.events]
      exact List.mem_append_left _ member
    refine ⟨kept, (spends.spent _).mpr (.inr (List.mem_map_of_mem ?_))⟩
    rwa [← events]
  · intro state input fault failed
    exact Transactions.step_of_not_succeeds fun ⟨next, performed⟩ => by
      rw [step, Transactions.step_of_ok performed] at failed
      cases failed

end ProtonChain.Solidity.ProtonPrivateToken
