import Mathlib.Data.Set.Function
import ProtonChain.Solidity.BridgeBooks

/-! What the bridge holds of an asset against what it has locked of it.

A public transfer locks what it takes. A private transfer locks one unit of an asset without
taking anything, and the unit is never released.
-/

set_option autoImplicit false

namespace ProtonChain.Solidity.ProtonBridge

open Checked

section Backing
variable {World : Type} (env : BridgeEnv World) (pairs : Finset (U256 × Address))

def pairKey (pair : U256 × Address) : Hash := assetKey env.keccak256 pair.1 pair.2

/-- No two pairs of a chain and an asset share a key. -/
def PairsApart : Prop := Set.InjOn (pairKey env) pairs

def lockedOf (books : Books) (asset : Address) : Nat :=
  ∑ pair ∈ pairs, if asset = pair.2 then books.locked (pairKey env pair) else 0

def heldOf (world : World) (asset : Address) : Nat :=
  (env.erc20.balanceOf world asset env.self).toNat

def Backed (state : State World) : Prop :=
  ∀ asset, lockedOf env pairs state.bridge.books asset ≤ heldOf env state.world asset

/-- A record that is found is of this chain and of one of the pairs. -/
def PendingTransfer.Inside (transfer : PendingTransfer) : Prop :=
  transfer.transferId ≠ Hash.zero →
    transfer.sourceChain = env.chainId ∧ (transfer.targetChain, transfer.asset) ∈ pairs

def Local (books : Books) : Prop := ∀ transferId, (books.record transferId).Inside env pairs

/-- Transfers are of the given pairs, the bridge does not call itself, and nobody else takes
tokens from it. -/
def Allowed (state : State World) : Input World → Prop
  | .call caller _ (.initiateTransfer targetChain _ asset _) =>
    caller ≠ env.self ∧ (targetChain, asset) ∈ pairs
  | .call _ _ (.initiatePrivateTransfer targetChain _ asset _ _ _ _) => (targetChain, asset) ∈ pairs
  | .call _ _ _ => True
  | .outside world _ => ∀ asset, heldOf env state.world asset ≤ heldOf env world asset

def MintsOnly : Prop :=
  ∀ before wrapped recipient amount after,
    env.mint before wrapped env.self recipient amount = some after →
      ∀ asset, heldOf env before asset ≤ heldOf env after asset

/-- The asset that an input locks without taking it. -/
def Input.privateAsset : Input World → Option Address
  | .call _ _ (.initiatePrivateTransfer _ _ asset _ _ _ _) => some asset
  | _ => none

/-- There is one unit of the asset that is not locked yet. -/
def UnitLeft (state : State World) (input : Input World) : Prop :=
  ∀ asset, input.privateAsset = some asset →
    lockedOf env pairs state.bridge.books asset + 1 ≤ heldOf env state.world asset

variable {env pairs} {state next : State World} {input : Input World}

theorem UnitLeft.of_public (transparent : input.privateAsset = none) :
    UnitLeft env pairs state input := by
  intro asset named
  rw [transparent] at named
  cases named

/-! ## Sums -/

theorem lockedOf_change (apart : PairsApart env pairs) {pair : U256 × Address}
    (member : pair ∈ pairs) {before after : Books} {more less : Nat}
    (changed : ∀ key, after.locked key + (if key = pairKey env pair then less else 0) =
      before.locked key + if key = pairKey env pair then more else 0) (asset : Address) :
    lockedOf env pairs after asset + (if asset = pair.2 then less else 0) =
      lockedOf env pairs before asset + if asset = pair.2 then more else 0 := by
  have sum := @FiniteMap.sum_change _ _ pairs
    (fun pair => if asset = pair.2 then before.locked (pairKey env pair) else 0)
    (fun pair => if asset = pair.2 then after.locked (pairKey env pair) else 0) pair member ?_
  · have own := changed (pairKey env pair)
    rw [if_pos rfl, if_pos rfl] at own
    by_cases same : asset = pair.2
    · rw [if_pos same, if_pos same] at sum
      rw [if_pos same, if_pos same, lockedOf, lockedOf]
      omega
    · rw [if_neg same, if_neg same] at sum
      rw [if_neg same, if_neg same]
      exact sum
  · intro other listed different
    have key : pairKey env other ≠ pairKey env pair :=
      fun same => different (apart listed member same)
    have same := changed (pairKey env other)
    rw [if_neg key, if_neg key] at same
    rw [Nat.add_right_cancel same]

theorem lockedOf_entered (apart : PairsApart env pairs) {targetChain : U256} {token : Address}
    (member : (targetChain, token) ∈ pairs) {key : Hash}
    (keyed : key = assetKey env.keccak256 targetChain token) (books : Books) (transferId : Hash)
    (transfer : PendingTransfer) (amount : Nat) (asset : Address) :
    lockedOf env pairs (books.entered transferId transfer key amount) asset =
      lockedOf env pairs books asset + if asset = token then amount else 0 := by
  subst keyed
  have changed := @lockedOf_change _ env pairs apart (targetChain, token) member books
    (books.entered transferId transfer (assetKey env.keccak256 targetChain token) amount) amount 0
    (fun key => by rw [Books.locked_entered, ite_self]; rfl) asset
  rwa [ite_self] at changed

theorem lockedOf_released (apart : PairsApart env pairs) {sourceChain : U256} {token : Address}
    (member : (sourceChain, token) ∈ pairs) {key : Hash}
    (keyed : key = assetKey env.keccak256 sourceChain token) {books : Books} (transferId : Hash)
    {amount : Nat} (covered : amount ≤ books.locked key) (asset : Address) :
    lockedOf env pairs ((books.released key amount).finished transferId) asset +
        (if asset = token then amount else 0) =
      lockedOf env pairs books asset := by
  subst keyed
  have changed := @lockedOf_change _ env pairs apart (sourceChain, token) member books
    ((books.released (assetKey env.keccak256 sourceChain token) amount).finished transferId) 0
    amount
    (fun key => by rw [ite_self]; exact books.locked_released covered key) asset
  rwa [ite_self] at changed

/-! ## Inputs -/

theorem Local.congr {books after : Books} (here : Local env pairs books)
    (same : ∀ other, (after.record other).core = (books.record other).core) :
    Local env pairs after := by
  intro transferId
  have inside : (books.record transferId).core.Inside env pairs := here transferId
  rw [← same transferId] at inside
  exact inside

theorem Local.entered {books : Books} (here : Local env pairs books) {transfer : PendingTransfer}
    (inside : transfer.Inside env pairs) (transferId key : Hash) (amount : Nat) :
    Local env pairs (books.entered transferId transfer key amount) := by
  intro other
  by_cases same : other = transferId
  · subst same
    simpa only [Books.entered, Function.update_self] using inside
  · simpa only [Books.entered, Function.update_of_ne same] using here other

theorem perform_local (here : Local env pairs state.bridge.books)
    (allowed : Allowed env pairs state input) (performed : perform env state input = .ok next) :
    Local env pairs next.bridge.books := by
  have effect := perform_effect performed
  generalize next.bridge.books = books at effect
  generalize next.world = world at effect
  cases effect with
  | initiated => exact here.entered (fun _ => ⟨rfl, allowed.2⟩) _ _ _
  | privatelyInitiated =>
    apply here.entered
    exact fun _ => ⟨rfl, allowed⟩
  | signed caller block transferId => exact here.congr (Books.core_signed _ transferId caller _)
  | minted caller block transferId => exact here.congr (Books.core_finished _ transferId)
  | released caller block transferId => exact here.congr (Books.core_finished _ transferId)
  | governed => exact here
  | outside => exact here

/-- An input keeps the books backed exactly if it leaves no private lock uncovered. -/
theorem perform_backed (apart : PairsApart env pairs)
    (standard : ∀ token, env.erc20.Standard token) (mints : MintsOnly env)
    (here : Local env pairs state.bridge.books) (backed : Backed env pairs state)
    (allowed : Allowed env pairs state input) (performed : perform env state input = .ok next) :
    Backed env pairs next ↔ UnitLeft env pairs state input := by
  have effect := perform_effect performed
  rw [Backed]
  generalize next.bridge.books = books at effect
  generalize next.world = world at effect
  cases effect with
  | initiated caller block targetChain receiver token amount transferId key world named keyed fresh
      paid =>
    obtain ⟨outsider, member⟩ := allowed
    refine iff_of_true (fun asset => ?_) (.of_public rfl)
    have moved := (standard token).transferFrom _ _ _ _ _ _ paid
    have received := moved.received env.self asset (Ne.symm outsider)
    have locked := lockedOf_entered apart member keyed state.bridge.books transferId
      ((state.bridge.books.record transferId).initiate transferId env.chainId targetChain caller
        receiver token amount block) amount.toNat asset
    have now := backed asset
    simp only [and_true] at received
    rw [heldOf] at now ⊢
    omega
  | privatelyInitiated caller block targetChain stealthReceiver token encryptedAmount
      amountCommitment nullifier zkProof transferId key named keyed =>
    -- the lock grows by one unit and the balance stays
    have locked := lockedOf_entered apart allowed keyed state.bridge.books transferId
      { (state.bridge.books.record transferId).initiate transferId env.chainId targetChain caller
          Address.zero token 0 block with
        encryptedAmount := encryptedAmount
        stealthReceiver := stealthReceiver } 1
    constructor
    · intro after asset private_
      obtain rfl := Option.some.inj private_
      have later := after token
      rw [locked token, if_pos rfl] at later
      exact later
    · intro left asset
      have now := backed asset
      rw [locked asset]
      split
      next same =>
        subst same
        exact left asset rfl
      next => exact now
  | signed caller block transferId => exact iff_of_true backed (.of_public rfl)
  | minted caller block transferId world executable wrapped done =>
    -- minting pays nothing out of the lock
    refine iff_of_true (fun asset => ?_) (.of_public rfl)
    exact (backed asset).trans (mints _ _ _ _ _ done asset)
  | released caller block transferId key world executable unwrapped keyed covered done =>
    refine iff_of_true (fun asset => ?_) (.of_public rfl)
    obtain ⟨own, member⟩ := here transferId executable.found
    have home : (state.bridge.books.record transferId).targetChain =
        (state.bridge.books.record transferId).sourceChain := executable.here.trans own.symm
    rw [home] at member
    -- lock and balance fall by the same amount, unless the bridge pays itself
    have locked := lockedOf_released apart member keyed transferId covered asset
    have moved := (standard _).transfer _ _ _ _ _ done
    have loses := moved.loses env.self asset
    have now := backed asset
    rw [heldOf] at now ⊢
    omega
  | governed _ governs =>
    refine iff_of_true backed (.of_public ?_)
    cases input with
    | outside => rfl
    | call caller block call =>
      cases call with
      | initiatePrivateTransfer => cases governs
      | _ => rfl
  | outside world owner =>
    refine iff_of_true (fun asset => ?_) (.of_public rfl)
    exact (backed asset).trans (allowed asset)

end Backing

/-- From the deployment on, for every asset the bridge holds what it has locked for all chains, in
every state of a run exactly if every private transfer that goes through finds a unit of its asset
that is not locked. -/
theorem backed_iff {World : Type} (env : BridgeEnv World) (pairs : Finset (U256 × Address))
    (apart : PairsApart env pairs) (standard : ∀ token, env.erc20.Standard token)
    (mints : MintsOnly env) (deployer : Address) (threshold : U256) (zkVerifier : Address)
    (world : World) (inputs : List (Input World))
    (allowed : Runs.Meets (step env) (Allowed env pairs)
      ⟨ProtonBridge.new deployer threshold zkVerifier, world⟩ inputs) :
    Runs.Visits (step env) (Backed env pairs)
        ⟨ProtonBridge.new deployer threshold zkVerifier, world⟩ inputs ↔
      Runs.Meets (step env)
        (fun state input => Transactions.Succeeds (perform env) state input →
          UnitLeft env pairs state input)
        ⟨ProtonBridge.new deployer threshold zkVerifier, world⟩ inputs := by
  let Inside (state : State World) : Prop := Local env pairs state.bridge.books
  have here : Inside ⟨ProtonBridge.new deployer threshold zkVerifier, world⟩ :=
    fun _ found => absurd rfl found
  have backed : Backed env pairs ⟨ProtonBridge.new deployer threshold zkVerifier, world⟩ := by
    intro asset
    have none : lockedOf env pairs (ProtonBridge.new deployer threshold zkVerifier).books asset =
        0 := Finset.sum_eq_zero fun pair _ => ite_self 0
    rw [none]
    exact Nat.zero_le _
  refine @Transactions.visits_iff_meets _ _ _ _ _ Inside _ _ ?_ ?_ _ backed here inputs allowed
  · intro state input next here backed allowed performed
    exact perform_backed apart standard mints here backed allowed performed
  · intro state input next here allowed performed
    exact perform_local here allowed performed

namespace Sample

def pairs : Finset (U256 × Address) := {(1, Sample.address 1)}

theorem pairsApart : PairsApart (env 1) pairs := by
  rw [PairsApart, pairs, Finset.coe_singleton]
  exact Set.injOn_singleton _ _

theorem mintsOnly : MintsOnly (env 1) := by
  intro before wrapped recipient amount after done asset
  simp only [env, mint, Option.ite_none_right_eq_some] at done
  obtain ⟨fits, same⟩ := done
  obtain rfl := Option.some.inj same
  simp only [heldOf, env, Solidity.Sample.erc20, Solidity.Sample.Ledger.balanceOf_setBalance]
  split
  next own =>
    obtain ⟨rfl, rfl⟩ := own
    rw [BitVec.toNat_add_of_lt fits]
    exact Nat.le_add_right _ _
  next => exact Nat.le_refl _

def publicly : List (Input Solidity.Sample.Ledger) := setup ++ [initiate]

def privately : List (Input Solidity.Sample.Ledger) :=
  setup ++ [call 3 (.initiatePrivateTransfer 1 Hash.zero (Sample.address 1) Hash.zero Hash.zero
    Hash.zero [])]

theorem allowed (state : State Solidity.Sample.Ledger) :
    Runs.Meets (step (env 1)) (Allowed (env 1) pairs) state publicly :=
  ⟨trivial, trivial, trivial, ⟨by decide, by decide⟩, trivial⟩

end Sample

/-- A public transfer is backed. -/
theorem backed_iff_sample :
    Runs.Visits (step (Sample.env 1)) (Backed (Sample.env 1) Sample.pairs) (Sample.deployed 1)
        Sample.publicly ↔
      Runs.Meets (step (Sample.env 1))
        (fun state input => Transactions.Succeeds (perform (Sample.env 1)) state input →
          UnitLeft (Sample.env 1) Sample.pairs state input)
        (Sample.deployed 1) Sample.publicly := by
  unfold Sample.deployed
  exact backed_iff (Sample.env 1) Sample.pairs Sample.pairsApart Solidity.Sample.erc20_standard
    Sample.mintsOnly (Sample.address 9) 1 (Sample.address 7) Sample.ledger Sample.publicly
    (Sample.allowed _)

/-- A private transfer locks a unit that the bridge does not hold. -/
theorem private_lock_is_not_backed :
    ¬ Runs.Visits (step (Sample.env 1)) (Backed (Sample.env 1) Sample.pairs) (Sample.deployed 1)
      Sample.privately := by
  intro visits
  have backed := visits Sample.privately [] (List.append_nil _).symm (Sample.address 1)
  exact absurd backed (by decide +kernel)

end ProtonChain.Solidity.ProtonBridge
