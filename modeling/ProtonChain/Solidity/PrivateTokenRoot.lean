import ProtonChain.Library.Codec
import ProtonChain.Solidity.PrivateTokenSpending

/-! The root as the chain over all commitments.

A single transfer is accepted on the current root only. A batch builds on the root that its
caller gives, so it may leave out commitments that were made before it.
-/

set_option autoImplicit false

namespace ProtonChain.Solidity

open Checked

/-- The same chain with a verifier that accepts every single transfer. -/
def TokenEnv.trusting {World : Type} (env : TokenEnv World) : TokenEnv World :=
  { env with verifyTransfer := fun _ _ _ _ _ _ => some trueWord }

namespace ProtonPrivateToken

section Chain
variable {World : Type} (env : TokenEnv World)

/-- The root is the chain over the commitments of all events. -/
def Folded (state : State World) : Prop :=
  state.token.merkleRoot =
    foldRoot env.keccak256 Hash.zero (state.events.map PrivateTransfer.commitment)

def Input.updatesRoot : Input World → Bool
  | .call _ (.updateMerkleRoot _) => true
  | _ => false

def OnCurrentRoot (state : State World) : Input World → Prop
  | .call _ (.batchPrivateTransfer _ _ root _ _) => root = state.token.merkleRoot
  | _ => True

/-- The commitments of a batch lead from the given root to where they lead from the current
one. -/
def SameRoot (state : State World) : Input World → Prop
  | .call _ (.batchPrivateTransfer _ commitments root _ _) =>
    foldRoot env.keccak256 root commitments =
      foldRoot env.keccak256 state.token.merkleRoot commitments
  | _ => True

/-- The strings that are hashed where commitments are chained onto a root. -/
def chained (keccak256 : Bytes → List.Vector UInt8 32) : Hash → List Hash → List Bytes
  | _, [] => []
  | root, commitment :: rest =>
    (root.asBytes.toList ++ commitment.asBytes.toList) ::
      chained keccak256 (nextRoot keccak256 root commitment) rest

def CollisionFree (keccak256 : Bytes → List.Vector UInt8 32) (messages : List Bytes) : Prop :=
  Set.InjOn keccak256 {message | message ∈ messages}

/-- No two strings collide that are hashed where a batch is chained onto the root it is given and
where it is chained onto the current one. -/
def ChainsApart (state : State World) : Input World → Prop
  | .call _ (.batchPrivateTransfer _ commitments root _ _) =>
    CollisionFree env.keccak256 (chained env.keccak256 root commitments ++
      chained env.keccak256 state.token.merkleRoot commitments)
  | _ => True

/-- The transfers of a batch as single calls, each on the root that the ones before it leave. -/
def singles (caller : Address) : Hash → List PrivateTransfer → List (Input World)
  | _, [] => []
  | root, entry :: rest =>
    .call caller
        (.privateTransfer entry.nullifier entry.commitment root entry.encryptedAmount []) ::
      singles caller (nextRoot env.keccak256 root entry.commitment) rest

/-- A batch that is accepted does what its transfers do one after another. -/
def AsSingles (state : State World) : Input World → Prop
  | .call caller (.batchPrivateTransfer nullifiers commitments root encryptedAmounts proof) =>
    ∀ next, batchPrivateTransfer env state nullifiers commitments root encryptedAmounts proof =
        .ok next →
      Runs.run (step env.trusting) state (singles env caller state.token.merkleRoot
          (entries nullifiers commitments encryptedAmounts)) =
        ((entries nullifiers commitments encryptedAmounts).map fun _ => .ok (), next)
  | _ => True

end Chain

section Calls
variable {World : Type} {env : TokenEnv World} {caller : Address} {state next : State World}

theorem entries_commitments {nullifiers commitments encryptedAmounts : List Hash}
    (first : nullifiers.length = commitments.length)
    (second : commitments.length = encryptedAmounts.length) :
    (entries nullifiers commitments encryptedAmounts).map PrivateTransfer.commitment =
      commitments := by
  induction commitments generalizing nullifiers encryptedAmounts with
  | nil =>
    obtain rfl := List.length_eq_zero_iff.mp first
    rfl
  | cons commitment rest ih =>
    cases nullifiers with
    | nil => cases first
    | cons nullifier nullifiers =>
      cases encryptedAmounts with
      | nil => cases second
      | cons encryptedAmount encryptedAmounts =>
        rw [entries, List.map_cons, ih (Nat.succ.inj first) (Nat.succ.inj second)]

theorem spendEach_setRoot {batch : List PrivateTransfer} (root : Hash)
    (spent : spendEach batch state = .ok next) :
    spendEach batch (state.setRoot root) = .ok (next.setRoot root) := by
  induction batch generalizing state with
  | nil =>
    obtain rfl := Except.ok.inj spent
    rfl
  | cons entry rest ih =>
    simp only [spendEach, bind_eq_ok, ensure_eq_ok] at spent ⊢
    obtain ⟨-, fresh, spent⟩ := spent
    exact ⟨(), fresh, ih spent⟩

theorem setRoot_inj {first second : Hash} :
    state.setRoot first = state.setRoot second ↔ first = second := by
  constructor
  · intro same
    exact congrArg (fun state => state.token.merkleRoot) same
  · rintro rfl
    rfl

theorem perform_single {entry : PrivateTransfer}
    (fresh : entry.nullifier ∉ state.token.nullifierSpent) :
    perform env.trusting state (.call caller (.privateTransfer entry.nullifier entry.commitment
        state.token.merkleRoot entry.encryptedAmount [])) =
      .ok ((state.spend entry).setRoot
        (nextRoot env.keccak256 state.token.merkleRoot entry.commitment)) :=
  privateTransfer_eq_ok.mpr ⟨staticAnswer_trueWord, fresh, rfl, rfl⟩

/-- Single calls go through where the loop of a batch does, and leave the root behind them that
a batch on the current root would. -/
theorem run_singles {batch : List PrivateTransfer} (spent : spendEach batch state = .ok next) :
    Runs.run (step env.trusting) state (singles env caller state.token.merkleRoot batch) =
      (batch.map fun _ => .ok (), next.setRoot (foldRoot env.keccak256 state.token.merkleRoot
        (batch.map PrivateTransfer.commitment))) := by
  induction batch generalizing state next with
  | nil =>
    obtain rfl := Except.ok.inj spent
    rfl
  | cons entry rest ih =>
    simp only [spendEach, bind_eq_ok, ensure_eq_ok] at spent
    obtain ⟨-, fresh, spent⟩ := spent
    have moved : step env.trusting state (.call caller (.privateTransfer entry.nullifier
        entry.commitment state.token.merkleRoot entry.encryptedAmount [])) = _ :=
      Transactions.step_of_ok (perform_single fresh)
    have later := ih (spendEach_setRoot
      (nextRoot env.keccak256 state.token.merkleRoot entry.commitment) spent)
    rw [singles, Runs.run_cons, moved]
    exact congrArg (fun run => (.ok () :: run.1, run.2)) later

theorem asSingles_iff {input : Input World}
    (succeeds : Transactions.Succeeds (perform env) state input) :
    AsSingles env state input ↔ SameRoot env state input := by
  cases input with
  | outside world owner => exact Iff.rfl
  | call caller call =>
    cases call with
    | batchPrivateTransfer nullifiers commitments root encryptedAmounts proof =>
      obtain ⟨after, performed⟩ := succeeds
      obtain ⟨⟨first, second⟩, -, spent, looped, rfl⟩ := batchPrivateTransfer_eq_ok.mp performed
      have singles : Runs.run (step env.trusting) state
          (ProtonPrivateToken.singles env caller state.token.merkleRoot
            (entries nullifiers commitments encryptedAmounts)) = _ := run_singles looped
      rw [entries_commitments first second] at singles
      rw [AsSingles, SameRoot]
      constructor
      · intro agrees
        have states := congrArg Prod.snd (singles.symm.trans (agrees _ performed))
        exact (setRoot_inj.mp states).symm
      · intro same next performed'
        obtain rfl := Except.ok.inj (performed.symm.trans performed')
        rw [singles, same]
    | _ => exact Iff.rfl

/-- Where the chain is exact before a call, it is so after it exactly if the call builds on it. -/
theorem perform_folded {input : Input World} (folded : Folded env state)
    (governed : input.updatesRoot = false) (performed : perform env state input = .ok next) :
    Folded env next ↔ SameRoot env state input := by
  have spends := perform_spends performed
  have kept (same : next.token.merkleRoot = state.token.merkleRoot) (none : input.entries = []) :
      Folded env next := by
    rw [Folded, spends.events, none, List.append_nil, same]
    exact folded
  cases input with
  | outside world owner =>
    obtain rfl := Except.ok.inj performed
    exact iff_of_true (kept rfl rfl) trivial
  | call caller call =>
    cases call with
    | privateTransfer nullifier commitment root encryptedAmount proof =>
      obtain ⟨-, -, -, rfl⟩ := privateTransfer_eq_ok.mp performed
      refine iff_of_true ?_ trivial
      rw [Folded, spends.events, List.map_append, foldRoot_append, ← folded]
      rfl
    | batchPrivateTransfer nullifiers commitments root encryptedAmounts proof =>
      obtain ⟨⟨first, second⟩, -, spent, -, rfl⟩ := batchPrivateTransfer_eq_ok.mp performed
      have commitments' := entries_commitments first second
      rw [Folded, spends.events, List.map_append, foldRoot_append, ← folded]
      exact (congrArg (fun commitments => foldRoot env.keccak256 root _ =
        foldRoot env.keccak256 state.token.merkleRoot commitments) commitments').to_iff
    | registerViewKey viewKey =>
      obtain rfl := Except.ok.inj performed
      exact iff_of_true (kept rfl rfl) trivial
    | updateBalanceCommitment account newCommitment =>
      obtain ⟨-, rfl⟩ := updateBalanceCommitment_eq_ok.mp performed
      exact iff_of_true (kept rfl rfl) trivial
    | updateMerkleRoot newRoot => cases governed
    | setZKVerifier newVerifier =>
      obtain ⟨-, rfl⟩ := setZKVerifier_eq_ok.mp performed
      exact iff_of_true (kept rfl rfl) trivial

theorem nextRoot_inj {keccak256 : Bytes → List.Vector UInt8 32} {messages : List Bytes}
    (free : CollisionFree keccak256 messages) {root other commitment : Hash}
    (first : root.asBytes.toList ++ commitment.asBytes.toList ∈ messages)
    (second : other.asBytes.toList ++ commitment.asBytes.toList ∈ messages)
    (same : nextRoot keccak256 root commitment = nextRoot keccak256 other commitment) :
    root = other := by
  have messages := free first second (Hash.mk.inj same)
  exact Hash.eq_of_bytes (List.append_cancel_right messages)

theorem foldRoot_inj {keccak256 : Bytes → List.Vector UInt8 32} {messages : List Bytes}
    (free : CollisionFree keccak256 messages) {root other : Hash} {commitments : List Hash}
    (first : chained keccak256 root commitments ⊆ messages)
    (second : chained keccak256 other commitments ⊆ messages)
    (same : foldRoot keccak256 root commitments = foldRoot keccak256 other commitments) :
    root = other := by
  induction commitments generalizing root other with
  | nil => exact same
  | cons commitment rest ih =>
    obtain ⟨own, later⟩ := List.cons_subset.mp first
    obtain ⟨own', later'⟩ := List.cons_subset.mp second
    exact nextRoot_inj free own own' (ih later later' same)

theorem SameRoot.onCurrentRoot {input : Input World} (apart : ChainsApart env state input)
    (same : SameRoot env state input) : OnCurrentRoot state input := by
  cases input with
  | outside world owner => trivial
  | call caller call =>
    cases call with
    | batchPrivateTransfer nullifiers commitments root encryptedAmounts proof =>
      exact foldRoot_inj apart (List.subset_append_left _ _) (List.subset_append_right _ _) same
    | _ => trivial

theorem OnCurrentRoot.same {input : Input World} (current : OnCurrentRoot state input) :
    SameRoot env state input := by
  cases input with
  | outside world owner => trivial
  | call caller call =>
    cases call with
    | batchPrivateTransfer nullifiers commitments root encryptedAmounts proof =>
      rw [SameRoot, current]
    | _ => trivial

end Calls

/-- The root is the chain over all commitments, and batches do what their transfers do one after
another, exactly if every accepted batch is given a root that its commitments lead on from as
from the current one. The current root is such a root, and the only one where the strings hashed
for the two do not collide. -/
theorem folded_iff {World : Type} (env : TokenEnv World) (deployer zkVerifier : Address)
    (world : World) (inputs : List (Input World))
    (governed : ∀ input ∈ inputs, input.updatesRoot = false) :
    (Runs.Visits (step env) (Folded env) (deployed deployer zkVerifier world) inputs ↔
      Runs.Meets (step env) (fun state input =>
          Transactions.Succeeds (perform env) state input → SameRoot env state input)
        (deployed deployer zkVerifier world) inputs) ∧
    (Runs.Meets (step env) (fun state input =>
          Transactions.Succeeds (perform env) state input → AsSingles env state input)
        (deployed deployer zkVerifier world) inputs ↔
      Runs.Meets (step env) (fun state input =>
          Transactions.Succeeds (perform env) state input → SameRoot env state input)
        (deployed deployer zkVerifier world) inputs) ∧
    (Runs.Meets (step env) (fun state input =>
          Transactions.Succeeds (perform env) state input → OnCurrentRoot state input)
        (deployed deployer zkVerifier world) inputs →
      Runs.Meets (step env) (fun state input =>
          Transactions.Succeeds (perform env) state input → SameRoot env state input)
        (deployed deployer zkVerifier world) inputs) ∧
    (Runs.Meets (step env) (fun state input =>
          Transactions.Succeeds (perform env) state input → ChainsApart env state input)
        (deployed deployer zkVerifier world) inputs →
      (Runs.Visits (step env) (Folded env) (deployed deployer zkVerifier world) inputs ↔
        Runs.Meets (step env) (fun state input =>
            Transactions.Succeeds (perform env) state input → OnCurrentRoot state input)
          (deployed deployer zkVerifier world) inputs)) := by
  have allowed : Runs.Meets (step env) (fun _ input => input.updatesRoot = false)
      (deployed deployer zkVerifier world) inputs :=
    (Runs.meets_const _ (fun input => input.updatesRoot = false) _ inputs).mpr governed
  have initial : Folded env (deployed deployer zkVerifier world) := rfl
  have exact_iff := @Transactions.visits_iff_meets _ _ _ (perform env) (Folded env) (fun _ => True)
    (fun _ input => input.updatesRoot = false) (SameRoot env)
    (fun state input next _ folded governed performed => perform_folded folded governed performed)
    (fun _ _ _ _ _ _ => trivial) _ initial trivial inputs allowed
  have current_same (meets : Runs.Meets (step env) (fun state input =>
      Transactions.Succeeds (perform env) state input → OnCurrentRoot state input)
      (deployed deployer zkVerifier world) inputs) : Runs.Meets (step env) (fun state input =>
      Transactions.Succeeds (perform env) state input → SameRoot env state input)
      (deployed deployer zkVerifier world) inputs :=
    meets.mono fun state input current succeeds => (current succeeds).same
  refine ⟨exact_iff, ⟨fun meets => ?_, fun meets => ?_⟩, current_same, fun apart =>
    exact_iff.trans ⟨fun meets => ?_, current_same⟩⟩
  · refine meets.mono fun state input agrees succeeds => ?_
    exact (asSingles_iff succeeds).mp (agrees succeeds)
  · refine meets.mono fun state input same succeeds => ?_
    exact (asSingles_iff succeeds).mpr (same succeeds)
  · refine ((Runs.meets_and _ _ _ _ _).mpr ⟨apart, meets⟩).mono fun state input both succeeds => ?_
    exact (both.2 succeeds).onCurrentRoot (both.1 succeeds)

/-! ## A stale root -/

namespace Sample

/-- A digest that tells the parts of its input apart. -/
def keccak256 (data : Bytes) : List.Vector UInt8 32 :=
  ⟨Codec.toBytes 32 (Address.bigEndian data % (2 ^ 256 - 189)), Codec.length_toBytes 32 _⟩

def env : TokenEnv Unit where
  keccak256 := keccak256
  verifyTransfer _ _ _ _ _ _ := some trueWord
  verifyBatchTransfer _ _ _ _ _ _ := some trueWord

def hash (byte : UInt8) : Hash := ⟨List.Vector.replicate 32 byte⟩

def deployed : State Unit :=
  ProtonPrivateToken.deployed (Sample.address 9) (Sample.address 7) ()

def first : Input Unit :=
  .call (Sample.address 3) (.privateTransfer (hash 1) (hash 11) Hash.zero (hash 0) [])

def batch (root : Hash) : Input Unit :=
  .call (Sample.address 4) (.batchPrivateTransfer [hash 2] [hash 12] root [hash 0] [])

def current : Hash := (step env deployed first).2.token.merkleRoot

/-- A batch of two transfers on the root that the transfer before it has left. -/
def pair : Input Unit :=
  .call (Sample.address 4) (.batchPrivateTransfer [hash 2, hash 3] [hash 12, hash 13] current
    [hash 0, hash 0] [])

end Sample

theorem folded_iff_sample :
    Runs.Visits (step Sample.env) (Folded Sample.env) Sample.deployed
        [Sample.first, Sample.pair] ∧
      Runs.Meets (step Sample.env) (fun state input =>
          Transactions.Succeeds (perform Sample.env) state input → OnCurrentRoot state input)
        Sample.deployed [Sample.first, Sample.pair] := by
  obtain ⟨folded, -, current, apart⟩ := folded_iff Sample.env (Sample.address 9)
    (Sample.address 7) () [Sample.first, Sample.pair] (by decide)
  have visits := folded.mpr (current ⟨fun _ => trivial, fun _ => rfl, trivial⟩)
  have free : CollisionFree Sample.env.keccak256
      (chained Sample.env.keccak256 Sample.current [Sample.hash 12, Sample.hash 13] ++
        chained Sample.env.keccak256 Sample.current [Sample.hash 12, Sample.hash 13]) := by
    have apart : ∀ first ∈ chained Sample.keccak256 Sample.current [Sample.hash 12, Sample.hash 13],
        ∀ second ∈ chained Sample.keccak256 Sample.current [Sample.hash 12, Sample.hash 13],
          Sample.keccak256 first = Sample.keccak256 second → first = second := by
      decide +kernel
    intro first one second other
    exact apart first ((List.mem_append.mp one).elim id id) second
      ((List.mem_append.mp other).elim id id)
  exact ⟨visits, (apart ⟨fun _ => trivial, fun _ => free, trivial⟩).mp visits⟩

/-- A batch on the first root is accepted after a transfer, and the commitment of the transfer is
gone from the chain. -/
theorem stale_root_drops_commitment :
    Transactions.Succeeds (perform Sample.env) (step Sample.env Sample.deployed Sample.first).2
        (Sample.batch Hash.zero) ∧
      ¬ Runs.Visits (step Sample.env) (Folded Sample.env) Sample.deployed
        [Sample.first, Sample.batch Hash.zero] := by
  constructor
  · exact Transactions.succeeds_of_step (by decide +kernel)
  · intro visits
    have folded := visits [Sample.first, Sample.batch Hash.zero] [] rfl
    exact absurd folded (by unfold Folded; decide +kernel)

end ProtonPrivateToken

end ProtonChain.Solidity
