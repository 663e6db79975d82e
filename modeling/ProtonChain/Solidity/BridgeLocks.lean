import ProtonChain.Solidity.BridgeBooks
import ProtonChain.Solidity.BridgeSigning

/-! What is locked against the records that it is locked for.

A transfer is entered under a hash of the call and its block. A second call with the same
hash locks its amount too, but writes over the record of the first one and leaves the flags
of the validators that have signed it.
-/

set_option autoImplicit false

namespace ProtonChain.Solidity.ProtonBridge

open Checked

/-! ## Released transfers -/

/-- A bridge, and the transfers that it has released. -/
structure Released (World : Type) where
  state : State World
  released : Finset Hash

section Machine
variable {World : Type} (env : BridgeEnv World)

/-- An execution releases where the asset has no wrapped token. -/
def releasedBy (state : State World) : Input World → Finset Hash
  | .call _ _ (.executeTransfer transferId) =>
    if wrappedOf env state.bridge (state.bridge.pendingTransfer transferId) = Address.zero then
      {transferId}
    else ∅
  | _ => ∅

def releasePerform (record : Released World) (input : Input World) :
    Outcome BridgeError (Released World) := do
  let next ← perform env record.state input
  return ⟨next, record.released ∪ releasedBy env record.state input⟩

def releaseStep : Released World → Input World →
    Except (Fault BridgeError) Unit × Released World :=
  Transactions.step (releasePerform env)

variable {env} {record next : Released World} {input : Input World}

theorem releasePerform_eq_ok :
    releasePerform env record input = .ok next ↔
      perform env record.state input = .ok next.state ∧
        next.released = record.released ∪ releasedBy env record.state input := by
  simp only [releasePerform, bind_eq_ok, pure_eq_ok]
  constructor
  · rintro ⟨state, performed, rfl⟩
    exact ⟨performed, rfl⟩
  · rintro ⟨performed, released⟩
    exact ⟨next.state, performed, by rw [← released]⟩

theorem succeeds_releasePerform :
    Transactions.Succeeds (releasePerform env) record input ↔
      Transactions.Succeeds (perform env) record.state input := by
  constructor
  · rintro ⟨next, performed⟩
    exact ⟨next.state, (releasePerform_eq_ok.mp performed).1⟩
  · rintro ⟨state, performed⟩
    exact ⟨⟨state, _⟩, releasePerform_eq_ok.mpr ⟨performed, rfl⟩⟩

theorem state_releaseStep (record : Released World) (input : Input World) :
    (releaseStep env record input).2.state = (step env record.state input).2 := by
  by_cases succeeds : Transactions.Succeeds (releasePerform env) record input
  · obtain ⟨next, performed⟩ := succeeds
    rw [releaseStep, step, Transactions.step_of_ok performed,
      Transactions.step_of_ok (releasePerform_eq_ok.mp performed).1]
  · rw [releaseStep, step, Transactions.step_of_not_succeeds succeeds,
      Transactions.step_of_not_succeeds (mt succeeds_releasePerform.mpr succeeds)]

end Machine

/-! ## Sums over records -/

section Books
variable {World : Type} (env : BridgeEnv World)

def PendingTransfer.holds (transfer : PendingTransfer) (key : Hash) : Nat :=
  if key = assetKey env.keccak256 transfer.targetChain transfer.asset then transfer.amount.toNat
  else 0

variable (books : Books) (released : Finset Hash)

def heldBy (key transferId : Hash) : Nat :=
  if transferId ∈ released then 0 else (books.record transferId).holds env key

def held (key : Hash) : Nat :=
  ∑ transferId ∈ books.ids.toFinset, heldBy env books released key transferId

/-- The locked assets are the amounts of the records that are not released. -/
def Balanced : Prop := ∀ key, books.locked key = held env books released key

/-- The records that are not listed are empty, the others are of this chain, and what is
released is completed. -/
structure Listed : Prop where
  unlisted : ∀ transferId, transferId ∉ books.ids →
    (books.record transferId).transferId = Hash.zero ∧ (books.record transferId).amount = 0
  home : ∀ transferId ∈ books.ids, (books.record transferId).sourceChain = env.chainId
  completed : released ⊆ books.completed

variable {env books released} {transferId key : Hash}

theorem holds_initiate (transfer : PendingTransfer) (transferId : Hash)
    (sourceChain targetChain : U256) (sender receiver asset : Address) (amount : U256)
    (block : BlockContext) (key : Hash) :
    (transfer.initiate transferId sourceChain targetChain sender receiver asset amount block).holds
        env key =
      if key = assetKey env.keccak256 targetChain asset then amount.toNat else 0 := by
  rfl

theorem holds_eq_zero {transfer : PendingTransfer} (empty : transfer.amount = 0) (key : Hash) :
    transfer.holds env key = 0 := by
  simp [PendingTransfer.holds, empty]

theorem held_entered (listed : Listed env books released) (transfer : PendingTransfer)
    (locked : Hash) (amount : Nat) (open_ : transferId ∉ released) :
    held env (books.entered transferId transfer locked amount) released key +
        (books.record transferId).holds env key =
      held env books released key + transfer.holds env key := by
  have grown : (books.entered transferId transfer locked amount).ids.toFinset =
      insert transferId books.ids.toFinset := by
    ext other
    simp [Books.entered]
  have empty : transferId ∉ books.ids.toFinset → heldBy env books released key transferId = 0 := by
    intro absent
    have zero := (listed.unlisted transferId (mt List.mem_toFinset.mpr absent)).2
    rw [heldBy, holds_eq_zero zero, ite_self]
  -- the sum before the entry does not change when the id is listed already
  have changed := @FiniteMap.sum_change Hash _ (insert transferId books.ids.toFinset)
    (heldBy env books released key)
    (heldBy env (books.entered transferId transfer locked amount) released key)
    transferId (Finset.mem_insert_self _ _) ?_
  · rw [Finset.sum_insert_of_eq_zero_if_notMem empty] at changed
    simpa [held, grown, heldBy, open_, Books.entered] using changed
  · intro other _ apart
    simp [heldBy, Books.entered, Function.update_of_ne apart]

theorem held_released (listed : transferId ∈ books.ids) (open_ : transferId ∉ released) :
    held env books (released ∪ {transferId}) key + (books.record transferId).holds env key =
      held env books released key := by
  have changed := @FiniteMap.sum_change Hash _ books.ids.toFinset
    (heldBy env books released key) (heldBy env books (released ∪ {transferId}) key)
    transferId (List.mem_toFinset.mpr listed) ?_
  · simpa [held, heldBy, open_] using changed
  · intro other _ apart
    simp [heldBy, apart]

theorem held_congr {after : Books} (ids : after.ids = books.ids)
    (same : ∀ other, (after.record other).core = (books.record other).core) :
    held env after released key = held env books released key := by
  have holds (other : Hash) :
      (after.record other).holds env key = (books.record other).holds env key :=
    congrArg (fun transfer => transfer.holds env key) (same other)
  simp only [held, heldBy, ids, holds]

theorem Balanced.congr {after : Books} (balanced : Balanced env books released)
    (ids : after.ids = books.ids) (locked : after.locked = books.locked)
    (same : ∀ other, (after.record other).core = (books.record other).core) :
    Balanced env after released := by
  intro key
  rw [held_congr ids same, locked]
  exact balanced key

theorem Listed.congr {after : Books} (listed : Listed env books released)
    (ids : after.ids = books.ids)
    (same : ∀ other, (after.record other).core = (books.record other).core)
    (completed : books.completed ⊆ after.completed) : Listed env after released where
  unlisted other absent := by
    rw [ids] at absent
    obtain ⟨unnamed, empty⟩ := listed.unlisted other absent
    exact ⟨(congrArg PendingTransfer.transferId (same other)).trans unnamed,
      (congrArg PendingTransfer.amount (same other)).trans empty⟩
  home other member := by
    rw [ids] at member
    exact (congrArg PendingTransfer.sourceChain (same other)).trans (listed.home other member)
  completed := listed.completed.trans completed

/-- An entry keeps the balance exactly if it does not write over an amount. -/
theorem balanced_entered (listed : Listed env books released)
    (balanced : Balanced env books released) {transfer : PendingTransfer} {locked : Hash}
    {amount : Nat} (open_ : transferId ∉ released)
    (holds : ∀ key, transfer.holds env key = if key = locked then amount else 0) :
    Balanced env (books.entered transferId transfer locked amount) released ↔
      (books.record transferId).amount = 0 := by
  have sum (key : Hash) := @held_entered _ env books released transferId key listed transfer locked
    amount open_
  simp only [holds] at sum
  constructor
  · intro after
    -- the amount would be held twice under its own key
    let own := assetKey env.keccak256 (books.record transferId).targetChain
      (books.record transferId).asset
    have now := after own
    have before := balanced own
    have changed := sum own
    rw [Books.locked_entered] at now
    have none : (books.record transferId).holds env own = 0 := by omega
    rw [PendingTransfer.holds, if_pos rfl] at none
    exact BitVec.eq_of_toNat_eq none
  · intro empty key
    have before := balanced key
    have changed := sum key
    rw [holds_eq_zero empty] at changed
    rw [Books.locked_entered]
    omega

/-- A transfer that is executed here was entered here for this chain itself. -/
theorem balanced_released (balanced : Balanced env books released)
    (listed : transferId ∈ books.ids) (open_ : transferId ∉ released)
    (here : (books.record transferId).sourceChain = (books.record transferId).targetChain)
    (keyed : key = assetKey env.keccak256 (books.record transferId).sourceChain
      (books.record transferId).asset)
    (covered : (books.record transferId).amount.toNat ≤ books.locked key) :
    Balanced env ((books.released key (books.record transferId).amount.toNat).finished transferId)
      (released ∪ {transferId}) := by
  have paid : Balanced env (books.released key (books.record transferId).amount.toNat)
      (released ∪ {transferId}) := by
    intro other
    have before := balanced other
    have sum := @held_released _ env books released transferId other listed open_
    have left := books.locked_released covered other
    rw [PendingTransfer.holds, ← here, ← keyed] at sum
    rw [@held_congr _ env books _ other (books.released key _) rfl fun _ => rfl]
    omega
  exact paid.congr rfl rfl (Books.core_finished _ transferId)

end Books

/-! ## Inputs -/

section Inputs
variable {World : Type} (env : BridgeEnv World)

def Input.initiating : Input World → Option Hash
  | .call caller block (.initiateTransfer targetChain receiver asset amount) =>
    some (transferIdOf env.keccak256 targetChain caller receiver asset amount block)
  | _ => none

def Input.isPrivate : Input World → Bool
  | .call _ _ (.initiatePrivateTransfer _ _ _ _ _ _ _) => true
  | _ => false

def Unfunded (state : State World) (input : Input World) : Prop :=
  ∀ transferId, input.initiating env = some transferId →
    (state.bridge.books.record transferId).amount = 0

/-- The record that a call writes over has no amount and no flags, and the new one is found
under its id. -/
def Vacant (state : State World) (input : Input World) : Prop :=
  ∀ transferId, input.initiating env = some transferId →
    (state.bridge.books.record transferId).amount = 0 ∧
      (state.bridge.books.record transferId).signatures = ∅ ∧ transferId ≠ Hash.zero

variable {env} {record next : Released World} {input : Input World}

theorem Unfunded.of_quiet {state : State World} (quiet : input.initiating env = none) :
    Unfunded env state input := by
  intro transferId initiating
  rw [quiet] at initiating
  cases initiating

theorem Vacant.of_quiet {state : State World} (quiet : input.initiating env = none) :
    Vacant env state input := by
  intro transferId initiating
  rw [quiet] at initiating
  cases initiating

theorem Vacant.unfunded {state : State World} (vacant : Vacant env state input) :
    Unfunded env state input :=
  fun transferId initiating => (vacant transferId initiating).1

theorem quiet_of_governs (governs : input.governs = true) (state : State World) :
    input.initiating env = none ∧ releasedBy env state input = ∅ := by
  cases input with
  | outside => cases governs
  | call caller block call =>
    cases call with
    | initiateTransfer => cases governs
    | executeTransfer => cases governs
    | _ => exact ⟨rfl, rfl⟩

/-- What a public input that goes through does: it enters a record, releases a transfer, or keeps
the records up to signatures and executions. -/
inductive Change (env : BridgeEnv World) (record : Released World) (input : Input World) :
    Books → Finset Hash → Prop
  | entered (transferId : Hash) (transfer : PendingTransfer) (key : Hash) (amount : Nat)
    (initiating : input.initiating env = some transferId)
    (fresh : transferId ∉ record.state.bridge.books.completed)
    (home : transfer.sourceChain = env.chainId)
    (holds : ∀ other, transfer.holds env other = if other = key then amount else 0) :
    Change env record input (record.state.bridge.books.entered transferId transfer key amount)
      record.released
  | released (transferId key : Hash) (quiet : input.initiating env = none)
    (executable : Executable env record.state.bridge transferId)
    (keyed : key = assetKey env.keccak256
      (record.state.bridge.books.record transferId).sourceChain
      (record.state.bridge.books.record transferId).asset)
    (covered : (record.state.bridge.books.record transferId).amount.toNat ≤
      record.state.bridge.books.locked key) :
    Change env record input ((record.state.bridge.books.released key
      (record.state.bridge.books.record transferId).amount.toNat).finished transferId)
        (record.released ∪ {transferId})
  | kept (after : Books) (quiet : input.initiating env = none)
    (ids : after.ids = record.state.bridge.books.ids)
    (locked : after.locked = record.state.bridge.books.locked)
    (same : ∀ other, (after.record other).core = (record.state.bridge.books.record other).core)
    (completed : record.state.bridge.books.completed ⊆ after.completed) :
    Change env record input after record.released

theorem perform_change (transparent : input.isPrivate = false)
    (performed : releasePerform env record input = .ok next) :
    Change env record input next.state.bridge.books next.released := by
  obtain ⟨performed, released⟩ := releasePerform_eq_ok.mp performed
  have effect := perform_effect performed
  rw [released]
  generalize next.state.bridge.books = books at effect
  generalize next.state.world = world at effect
  cases effect with
  | initiated caller block targetChain receiver asset amount transferId key world named keyed
      fresh =>
    simp only [releasedBy, Finset.union_empty]
    apply Change.entered
    · exact congrArg some named.symm
    · exact fresh
    · rfl
    · intro other
      rw [holds_initiate, keyed]
  | privatelyInitiated => cases transparent
  | signed caller block transferId signature merkleProof =>
    simp only [releasedBy, Finset.union_empty]
    exact .kept _ rfl rfl rfl (Books.core_signed _ transferId caller _) (Finset.Subset.refl _)
  | minted caller block transferId world executable wrapped =>
    -- what was locked stays locked behind the wrapped tokens
    have none : releasedBy env record.state
        (.call caller block (.executeTransfer transferId)) = ∅ := if_neg wrapped
    rw [none, Finset.union_empty]
    exact .kept _ rfl rfl rfl (Books.core_finished _ transferId) (Finset.subset_insert _ _)
  | released caller block transferId key world executable unwrapped keyed covered =>
    have own : releasedBy env record.state
        (.call caller block (.executeTransfer transferId)) = {transferId} := if_pos unwrapped
    rw [own]
    exact .released transferId key rfl executable keyed covered
  | governed _ governs =>
    obtain ⟨quiet, none⟩ := @quiet_of_governs _ env _ governs record.state
    rw [none, Finset.union_empty]
    exact .kept _ quiet rfl rfl (fun _ => rfl) (Finset.Subset.refl _)
  | outside =>
    simp only [releasedBy, Finset.union_empty]
    exact .kept _ rfl rfl rfl (fun _ => rfl) (Finset.Subset.refl _)

variable (listed : Listed env record.state.bridge.books record.released)
include listed

theorem perform_balanced (balanced : Balanced env record.state.bridge.books record.released)
    (transparent : input.isPrivate = false)
    (performed : releasePerform env record input = .ok next) :
    Balanced env next.state.bridge.books next.released ↔ Unfunded env record.state input := by
  have change := perform_change transparent performed
  generalize next.state.bridge.books = books at change
  generalize next.released = released at change
  cases change with
  | entered transferId transfer key amount initiating fresh home holds =>
    have open_ : transferId ∉ record.released := fun member => fresh (listed.completed member)
    rw [balanced_entered listed balanced open_ holds]
    constructor
    · intro empty other own
      obtain rfl := Option.some.inj (initiating.symm.trans own)
      exact empty
    · intro unfunded
      exact unfunded transferId initiating
  | released transferId key quiet executable keyed covered =>
    have member : transferId ∈ record.state.bridge.books.ids := by
      by_contra absent
      exact executable.found (listed.unlisted transferId absent).1
    have open_ : transferId ∉ record.released :=
      fun member => executable.fresh (listed.completed member)
    refine iff_of_true ?_ (.of_quiet quiet)
    exact balanced_released balanced member open_
      ((listed.home transferId member).trans executable.here.symm) keyed covered
  | kept _ quiet ids locked same =>
    exact iff_of_true (balanced.congr ids locked same) (.of_quiet quiet)

theorem perform_listed (transparent : input.isPrivate = false)
    (performed : releasePerform env record input = .ok next) :
    Listed env next.state.bridge.books next.released := by
  have change := perform_change transparent performed
  generalize next.state.bridge.books = books at change
  generalize next.released = released at change
  cases change with
  | entered transferId transfer key amount initiating fresh home =>
    refine ⟨fun other absent => ?_, fun other member => ?_, listed.completed⟩
    · have apart : other ≠ transferId := by
        rintro rfl
        exact absent (List.mem_append_right _ (List.mem_singleton_self other))
      simp only [Books.entered, Function.update_of_ne apart]
      exact listed.unlisted other fun member => absent (List.mem_append_left _ member)
    · by_cases own : other = transferId
      · subst own
        simp only [Books.entered, Function.update_self]
        exact home
      · simp only [Books.entered, Function.update_of_ne own]
        rcases List.mem_append.mp member with earlier | last
        · exact listed.home other earlier
        · exact absurd (List.mem_singleton.mp last) own
  | released transferId key =>
    have paid : Listed env (record.state.bridge.books.released key
        (record.state.bridge.books.record transferId).amount.toNat) record.released :=
      listed.congr rfl (fun _ => rfl) (Finset.Subset.refl _)
    have finished := @Listed.congr _ env _ _ (Books.finished _ transferId) paid rfl
      (Books.core_finished _ transferId) (Finset.subset_insert _ _)
    -- what is released now is completed with the same input
    refine ⟨finished.unlisted, finished.home, Finset.union_subset finished.completed ?_⟩
    exact Finset.singleton_subset_iff.mpr (Finset.mem_insert_self _ _)
  | kept _ _ ids _ same completed => exact listed.congr ids same completed

end Inputs

/-! ## Signatures to the threshold -/

/-- Valid signatures of as many different validators as the threshold asks for go through and
complete the transfer. -/
def Signable {World : Type} (env : BridgeEnv World) (state : State World) (transferId : Hash) :
    Prop :=
  ∀ signatures : List Signature, signatures ≠ [] → (signatures.map Signature.validator).Nodup →
    (∀ given ∈ signatures, given.Valid env state transferId) →
      state.bridge.validatorThreshold.toNat ≤ signatures.length →
        ∃ final, Runs.run (step env) state (signatures.map (Signature.input World transferId)) =
            (signatures.map fun _ => .ok (), final) ∧
          (final.bridge.pendingTransfer transferId).status = .signaturesComplete

/-- Every flag is counted, and the records that are listed are found. -/
structure Ready (books : Books) : Prop where
  counted : ∀ transferId,
    (books.record transferId).signatureCount.toNat = (books.record transferId).signatures.card
  named : ∀ transferId ∈ books.ids, (books.record transferId).transferId ≠ Hash.zero

section Signing
variable {World : Type} {env : BridgeEnv World} {state next : State World} {input : Input World}
  {transferId : Hash}

theorem Ready.signable (ready : Ready state.bridge.books)
    (listed : transferId ∈ state.bridge.books.ids)
    (unexecuted : (state.bridge.books.record transferId).status ≠ .executed) :
    Signable env state transferId := by
  intro signatures some distinct valid enough
  have waiting : (state.bridge.pendingTransfer transferId).Waiting :=
    ⟨ready.named transferId listed, unexecuted, (ready.counted transferId).le⟩
  refine ⟨_, run_signatures valid waiting, (status_signAll waiting some).mpr ?_⟩
  -- the counter is the number of flags, those of the new signers among them
  have collected := (collected_signAll waiting signatures).1
  have counted : (state.bridge.pendingTransfer transferId).signatureCount.toNat =
    (state.bridge.pendingTransfer transferId).signatures.card := ready.counted transferId
  have grown := collected.count
  have signers := Finset.card_le_card (Finset.subset_union_right.trans_eq collected.flags.symm)
  rw [List.toFinset_card_of_nodup distinct, List.length_map] at signers
  omega

theorem counted_eq_signed {transfer : PendingTransfer} (validator : Address)
    (counted : transfer.signatureCount.toNat = transfer.signatures.card) :
    (transfer.signed validator).signatureCount.toNat =
      (transfer.signed validator).signatures.card := by
  rw [PendingTransfer.signed]
  split
  next => exact counted
  next fresh =>
    have most := Address.card_le transfer.signatures
    have room : transfer.signatureCount.toNat + 1 < 2 ^ 256 := by omega
    rw [Finset.card_insert_of_notMem fresh, BitVec.toNat_add_of_lt room, counted]
    rfl

theorem Ready.congr {books after : Books} (ready : Ready books) (ids : after.ids = books.ids)
    (same : ∀ other, (after.record other).core = (books.record other).core)
    (counted : ∀ other,
      (after.record other).signatureCount.toNat = (after.record other).signatures.card) :
    Ready after := by
  refine ⟨counted, fun other member => ?_⟩
  rw [ids] at member
  have kept : (after.record other).core.transferId = (books.record other).core.transferId :=
    congrArg PendingTransfer.transferId (same other)
  exact ne_of_eq_of_ne kept (ready.named other member)

theorem Ready.signed {books : Books} (ready : Ready books) (validator : Address)
    (threshold : U256) : Ready (books.signed transferId validator threshold) := by
  refine ready.congr rfl (books.core_signed transferId validator threshold) fun other => ?_
  by_cases own : other = transferId
  · subst own
    simp only [Books.signed, Function.update_self]
    exact counted_eq_signed validator (ready.counted other)
  · simp only [Books.signed, Function.update_of_ne own]
    exact ready.counted other

theorem Ready.finished {books : Books} (ready : Ready books) (transferId : Hash) :
    Ready (books.finished transferId) := by
  refine ready.congr rfl (books.core_finished transferId) fun other => ?_
  by_cases own : other = transferId
  · subst own
    simp only [Books.finished, Function.update_self]
    exact ready.counted other
  · simp only [Books.finished, Function.update_of_ne own]
    exact ready.counted other

theorem Ready.entered {books : Books} (ready : Ready books) {transfer : PendingTransfer}
    (unsigned : transfer.signatures = ∅) (count : transfer.signatureCount = 0)
    (named : transfer.transferId ≠ Hash.zero) (key : Hash) (amount : Nat) :
    Ready (books.entered transferId transfer key amount) := by
  constructor
  · intro other
    by_cases own : other = transferId
    · subst own
      simp only [Books.entered, Function.update_self, unsigned, count]
      rfl
    · simp only [Books.entered, Function.update_of_ne own]
      exact ready.counted other
  · intro other member
    by_cases own : other = transferId
    · subst own
      simp only [Books.entered, Function.update_self]
      exact named
    · simp only [Books.entered, Function.update_of_ne own]
      rcases List.mem_append.mp member with earlier | last
      · exact ready.named other earlier
      · exact absurd (List.mem_singleton.mp last) own

theorem perform_ready (ready : Ready state.bridge.books) (vacant : Vacant env state input)
    (transparent : input.isPrivate = false) (performed : perform env state input = .ok next) :
    Ready next.bridge.books := by
  have effect := perform_effect performed
  generalize next.bridge.books = books at effect
  generalize next.world = world at effect
  cases effect with
  | initiated caller block targetChain receiver asset amount transferId key world named =>
    subst named
    obtain ⟨-, unsigned, nonzero⟩ := vacant _ rfl
    -- the counter is reset, and no flag is left over
    apply ready.entered
    · exact unsigned
    · rfl
    · exact nonzero
  | privatelyInitiated => cases transparent
  | signed caller block transferId => exact ready.signed caller _
  | minted caller block transferId => exact ready.finished transferId
  | released caller block transferId key =>
    have paid : Ready (state.bridge.books.released key
        (state.bridge.books.record transferId).amount.toNat) := ⟨ready.counted, ready.named⟩
    exact paid.finished transferId
  | governed => exact ready
  | outside => exact ready

end Signing

/-- The locked assets are accounted for by records that are not released, and those that are not
executed can be signed up to the threshold. -/
structure Accounted {World : Type} (env : BridgeEnv World) (record : Released World) : Prop where
  balanced : Balanced env record.state.bridge.books record.released
  signable : ∀ transferId ∈ record.state.bridge.books.ids,
    (record.state.bridge.books.record transferId).status ≠ .executed →
      Signable env record.state transferId

/-- In a run without private transfers the locked assets are the amounts of the records that are
not released exactly if no transfer is entered over an amount. If none is entered over flags or
under an id that is never found either, every record that is not executed can be signed up to the
threshold. -/
theorem locks_accounted {World : Type} (env : BridgeEnv World) (deployer : Address)
    (threshold : U256) (zkVerifier : Address) (world : World) (inputs : List (Input World))
    (transparent : ∀ input ∈ inputs, input.isPrivate = false) :
    (Runs.run (releaseStep env)
        ⟨⟨ProtonBridge.new deployer threshold zkVerifier, world⟩, ∅⟩ inputs).2.state =
      (Runs.run (step env) ⟨ProtonBridge.new deployer threshold zkVerifier, world⟩ inputs).2 ∧
    (Runs.Visits (releaseStep env)
        (fun record => Balanced env record.state.bridge.books record.released)
        ⟨⟨ProtonBridge.new deployer threshold zkVerifier, world⟩, ∅⟩ inputs ↔
      Runs.Meets (step env)
        (fun state input => Transactions.Succeeds (perform env) state input →
          Unfunded env state input)
        ⟨ProtonBridge.new deployer threshold zkVerifier, world⟩ inputs) ∧
    (Runs.Meets (step env)
        (fun state input => Transactions.Succeeds (perform env) state input →
          Vacant env state input)
        ⟨ProtonBridge.new deployer threshold zkVerifier, world⟩ inputs →
      Runs.Visits (releaseStep env) (Accounted env)
        ⟨⟨ProtonBridge.new deployer threshold zkVerifier, world⟩, ∅⟩ inputs) := by
  let Sound (record : Released World) : Prop :=
    Listed env record.state.bridge.books record.released
  let Even (record : Released World) : Prop :=
    Balanced env record.state.bridge.books record.released
  have listed : Sound ⟨⟨ProtonBridge.new deployer threshold zkVerifier, world⟩, ∅⟩ :=
    ⟨fun _ _ => ⟨rfl, rfl⟩, by simp [books, ProtonBridge.new], Finset.empty_subset _⟩
  have balanced : Even ⟨⟨ProtonBridge.new deployer threshold zkVerifier, world⟩, ∅⟩ :=
    fun _ => rfl
  have ready : Ready (ProtonBridge.new deployer threshold zkVerifier).books :=
    ⟨fun _ => rfl, by simp [books, ProtonBridge.new]⟩
  have allowed : Runs.Meets (releaseStep env) (fun _ input => input.isPrivate = false)
      ⟨⟨ProtonBridge.new deployer threshold zkVerifier, world⟩, ∅⟩ inputs :=
    (Runs.meets_const _ (fun input => input.isPrivate = false) _ inputs).mpr transparent
  have erased (guard : State World → Input World → Prop) := Runs.meets_erase (step env)
    (releaseStep env) Released.state state_releaseStep guard
    ⟨⟨ProtonBridge.new deployer threshold zkVerifier, world⟩, ∅⟩ inputs
  refine ⟨?_, ?_, fun meets => ?_⟩
  · exact Runs.run_erase (step env) (releaseStep env) Released.state state_releaseStep _ inputs
  · have rule := @Transactions.visits_iff_meets _ _ _ (releasePerform env) Even Sound
      (fun _ input => input.isPrivate = false) (fun record => Unfunded env record.state)
      (fun record input next listed balanced transparent performed =>
        perform_balanced listed balanced transparent performed)
      (fun record input next listed transparent performed =>
        perform_listed listed transparent performed)
      _ balanced listed inputs allowed
    simp only [succeeds_releasePerform] at rule
    have plain := erased fun state input =>
      Transactions.Succeeds (perform env) state input → Unfunded env state input
    exact rule.trans plain
  · rw [← erased] at meets
    let Kept (record : Released World) : Prop :=
      Sound record ∧ Even record ∧ Ready record.state.bridge.books
    have visits : Runs.Visits (releaseStep env) Kept
        ⟨⟨ProtonBridge.new deployer threshold zkVerifier, world⟩, ∅⟩ inputs := by
      refine Transactions.visits_of_keeps ?_ ⟨listed, balanced, ready⟩ inputs
        ((Runs.meets_and _ _ _ _ _).mpr ⟨allowed, meets⟩)
      intro record input next ⟨listed, balanced, ready⟩ ⟨transparent, guarded⟩ performed
      have vacant := guarded (succeeds_releasePerform.mp ⟨next, performed⟩)
      exact ⟨perform_listed listed transparent performed,
        (perform_balanced listed balanced transparent performed).mpr vacant.unfunded,
        perform_ready ready vacant transparent (releasePerform_eq_ok.mp performed).1⟩
    intro earlier later split
    obtain ⟨-, balanced, ready⟩ := visits earlier later split
    exact ⟨balanced, fun transferId listed unexecuted => ready.signable listed unexecuted⟩

namespace Sample

/-- One transfer up to its execution. -/
def finished : List (Input Solidity.Sample.Ledger) := setup ++ [initiate, sign 4, execute]

/-- The same transfer is initiated a second time in one block. -/
def initiatedTwice : List (Input Solidity.Sample.Ledger) := setup ++ [initiate, initiate]

end Sample

theorem locks_accounted_sample :
    (Runs.run (releaseStep (Sample.env 1)) ⟨Sample.deployed 1, ∅⟩ Sample.finished).2.state =
      (Runs.run (step (Sample.env 1)) (Sample.deployed 1) Sample.finished).2 ∧
    Runs.Meets (step (Sample.env 1))
      (fun state input => Transactions.Succeeds (perform (Sample.env 1)) state input →
        Unfunded (Sample.env 1) state input)
      (Sample.deployed 1) Sample.finished ∧
    Runs.Visits (releaseStep (Sample.env 1)) (Accounted (Sample.env 1))
      ⟨Sample.deployed 1, ∅⟩ Sample.finished := by
  have vacant : Runs.Meets (step (Sample.env 1))
      (fun state input => Transactions.Succeeds (perform (Sample.env 1)) state input →
        Vacant (Sample.env 1) state input)
      (Sample.deployed 1) Sample.finished := by
    refine ⟨fun _ => .of_quiet rfl, fun _ => .of_quiet rfl, fun _ => .of_quiet rfl, fun _ => ?_,
      fun _ => .of_quiet rfl, fun _ => .of_quiet rfl, trivial⟩
    -- the one transfer enters a record where there was none
    rintro transferId ⟨⟩
    decide +kernel
  unfold Sample.deployed at vacant ⊢
  obtain ⟨erased, balanced, accounted⟩ := locks_accounted (Sample.env 1) (Sample.address 9) 1
    (Sample.address 7) Sample.ledger Sample.finished (by decide +kernel)
  have visits := accounted vacant
  exact ⟨erased, balanced.mp fun earlier later split => (visits earlier later split).balanced,
    visits⟩

/-- Two calls lock 100 each, and one record is left for them. -/
theorem repeated_transfer_is_not_accounted :
    ¬ Runs.Visits (releaseStep (Sample.env 1)) (Accounted (Sample.env 1))
      ⟨Sample.deployed 1, ∅⟩ Sample.initiatedTwice := by
  intro visits
  have accounted := visits Sample.initiatedTwice [] (List.append_nil _).symm
  have balanced := accounted.balanced (assetKey Sample.keccak256 1 (Sample.address 1))
  exact absurd balanced (by decide +kernel)

end ProtonChain.Solidity.ProtonBridge
