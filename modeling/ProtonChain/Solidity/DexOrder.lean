import ProtonChain.Solidity.DexCalls

/-! The order in which a call names the two tokens.

The tokens are sorted, but the amounts, the minima and the results keep their places. So
two orders agree only where the places do not matter.
-/

set_option autoImplicit false

namespace ProtonChain.Solidity.ProtonDEX

open Checked ConstantProduct

section Order
variable {World : Type} (env : Env World) (caller : Address) (state : State World)
  (tokenX tokenY : Address)

/-- A deposit has one effect in both orders: it reverts in both or returns and leaves the same. -/
def AddsAlike (amountX amountY minLiquidity : U256) : Prop :=
  ∀ liquidity next,
    addLiquidity env caller state tokenX tokenY amountX amountY minLiquidity =
        .ok (liquidity, next) ↔
      addLiquidity env caller state tokenY tokenX amountY amountX minLiquidity =
        .ok (liquidity, next)

/-- A withdrawal has one effect in both orders and returns the exchanged amounts. -/
def RemovesAlike (liquidity minX minY : U256) : Prop :=
  ∀ amountX amountY next,
    removeLiquidity env caller state tokenX tokenY liquidity minX minY =
        .ok ((amountX, amountY), next) ↔
      removeLiquidity env caller state tokenY tokenX liquidity minY minX =
        .ok ((amountY, amountX), next)

def ReservesAlike : Prop :=
  ∀ reserveX reserveY,
    getReserves env state.dex tokenX tokenY = .ok (reserveX, reserveY) ↔
      getReserves env state.dex tokenY tokenX = .ok (reserveY, reserveX)

variable {env caller state tokenX tokenY}

theorem hashOf_comm (apart : tokenX ≠ tokenY) :
    hashOf env tokenX tokenY = hashOf env tokenY tokenX := by
  rw [hashOf, hashOf, sorted_comm apart]

/-- An accepted deposit shows in the first reserve which amount it was given first. -/
theorem added_inj {hash : Hash} {first second first' second' liquidity : U256}
    (same : added caller state hash first second liquidity =
      added caller state hash first' second' liquidity) : first = first' := by
  have pairs := congrArg (fun dex => (dex.pair hash).reserveA) same
  simp only [pair_added, if_true, deposited] at pairs
  simpa using pairs

theorem addsAlike_iff (amountX amountY minLiquidity : U256) :
    AddsAlike env caller state tokenX tokenY amountX amountY minLiquidity ↔
      tokenX = tokenY ∨ amountX = amountY ∨
        ∀ liquidity world,
          ¬ Adds env caller state (sorted tokenX tokenY).1 (sorted tokenX tokenY).2 amountX amountY
              minLiquidity liquidity world ∧
            ¬ Adds env caller state (sorted tokenX tokenY).1 (sorted tokenX tokenY).2 amountY
              amountX minLiquidity liquidity world := by
  by_cases distinct : tokenX = tokenY
  · refine iff_of_true (fun liquidity next => ?_) (.inl distinct)
    rw [addLiquidity_eq_ok, addLiquidity_eq_ok]
    exact iff_of_false (fun both => both.1 distinct) fun both => both.1 distinct.symm
  · simp only [AddsAlike, addLiquidity_eq_ok, ← sorted_comm distinct, ← hashOf_comm distinct,
      ne_eq, distinct, Ne.symm distinct, not_false_iff, true_and, false_or]
    constructor
    · intro alike
      rw [or_iff_not_imp_left]
      intro differ liquidity world
      -- one accepted order puts one amount into the first reserve, the other order the other
      constructor
      · intro adds
        exact differ (added_inj ((alike liquidity ⟨_, world⟩).mp ⟨adds, rfl⟩).2)
      · intro adds
        exact differ (added_inj ((alike liquidity ⟨_, world⟩).mpr ⟨adds, rfl⟩).2).symm
    · rintro (rfl | refused) liquidity next
      · rfl
      · exact iff_of_false (fun both => (refused liquidity next.world).1 both.1)
          fun both => (refused liquidity next.world).2 both.1

theorem removesAlike_iff (liquidity minX minY : U256) :
    let pair := state.dex.pair (hashOf env tokenX tokenY)
    let paidA := paidOut pair liquidity pair.reserveA
    let paidB := paidOut pair liquidity pair.reserveB
    RemovesAlike env caller state tokenX tokenY liquidity minX minY ↔
      tokenX = tokenY ∨ paidA = paidB ∨
        (∀ amountA amountB world,
          ¬ Removes env caller state (sorted tokenX tokenY).1 (sorted tokenX tokenY).2 liquidity
              amountA amountB world) ∨
        (¬ (minX.toNat ≤ paidA ∧ minY.toNat ≤ paidB) ∧
          ¬ (minY.toNat ≤ paidA ∧ minX.toNat ≤ paidB)) := by
  intro pair paidA paidB
  by_cases distinct : tokenX = tokenY
  · refine iff_of_true (fun amountX amountY next => ?_) (.inl distinct)
    rw [removeLiquidity_eq_ok, removeLiquidity_eq_ok]
    exact iff_of_false (fun both => both.1 distinct) fun both => both.1 distinct.symm
  · -- both orders read the same pair, and an accepted withdrawal pays what the pair says
    have amounts : ∀ {amountA amountB world},
        Removes env caller state (sorted tokenX tokenY).1 (sorted tokenX tokenY).2 liquidity
          amountA amountB world → amountA.toNat = paidA ∧ amountB.toNat = paidB :=
      fun removes => removes.paidOut
    simp only [RemovesAlike, removeLiquidity_eq_ok, ← sorted_comm distinct,
      ← hashOf_comm distinct, ne_eq, distinct, Ne.symm distinct, not_false_iff, true_and,
      false_or]
    constructor
    · intro alike
      rw [or_iff_not_imp_left]
      intro differ
      rw [or_iff_not_imp_left]
      intro accepted
      obtain ⟨amountA, amountB, world, removes⟩ : ∃ amountA amountB world,
          Removes env caller state (sorted tokenX tokenY).1 (sorted tokenX tokenY).2 liquidity
            amountA amountB world := by simpa only [not_forall, not_not] using accepted
      obtain ⟨first, second⟩ := amounts removes
      -- the other order would pay the same two amounts in the same places
      constructor
      · intro enough
        rw [← first, ← second] at enough
        have other := (alike amountA amountB ⟨_, world⟩).mp ⟨removes, enough, rfl⟩
        exact differ ((amounts other.1).1.symm.trans second)
      · intro enough
        rw [← first, ← second] at enough
        have other := (alike amountB amountA ⟨_, world⟩).mpr ⟨removes, enough, rfl⟩
        exact differ ((amounts other.1).1.symm.trans second)
    · rintro (equal | refused | ⟨low, low'⟩) amountX amountY next
      · constructor
        · rintro ⟨removes, enough, books⟩
          obtain ⟨first, second⟩ := amounts removes
          obtain rfl : amountX = amountY :=
            BitVec.eq_of_toNat_eq (first.trans (equal.trans second.symm))
          exact ⟨removes, enough.symm, books⟩
        · rintro ⟨removes, enough, books⟩
          obtain ⟨first, second⟩ := amounts removes
          obtain rfl : amountY = amountX :=
            BitVec.eq_of_toNat_eq (first.trans (equal.trans second.symm))
          exact ⟨removes, enough.symm, books⟩
      · exact iff_of_false (fun both => refused _ _ _ both.1) fun both => refused _ _ _ both.1
      · constructor
        · rintro ⟨removes, enough, -⟩
          rw [(amounts removes).1, (amounts removes).2] at enough
          exact absurd enough low
        · rintro ⟨removes, enough, -⟩
          rw [(amounts removes).1, (amounts removes).2] at enough
          exact absurd enough low'

theorem getReserves_eq_ok {dex : ProtonDEX} {reserves : U256 × U256} :
    getReserves env dex tokenX tokenY = .ok reserves ↔
      tokenX ≠ tokenY ∧ ((dex.pair (hashOf env tokenX tokenY)).reserveA,
        (dex.pair (hashOf env tokenX tokenY)).reserveB) = reserves := by
  simp only [getReserves, bind_eq_ok, sortTokens_eq_ok, pure_eq_ok]
  constructor
  · rintro ⟨tokens, ⟨apart, rfl⟩, read⟩
    exact ⟨apart, read⟩
  · rintro ⟨apart, read⟩
    exact ⟨_, ⟨apart, rfl⟩, read⟩

theorem reservesAlike_iff :
    ReservesAlike env state tokenX tokenY ↔
      tokenX = tokenY ∨ (state.dex.pair (hashOf env tokenX tokenY)).reserveA =
        (state.dex.pair (hashOf env tokenX tokenY)).reserveB := by
  by_cases distinct : tokenX = tokenY
  · refine iff_of_true (fun reserveX reserveY => ?_) (.inl distinct)
    rw [getReserves_eq_ok, getReserves_eq_ok]
    exact iff_of_false (fun both => both.1 distinct) fun both => both.1 distinct.symm
  · simp only [ReservesAlike, getReserves_eq_ok, ← hashOf_comm distinct, ne_eq, distinct,
      Ne.symm distinct, not_false_iff, true_and, false_or, Prod.mk.injEq]
    constructor
    · intro alike
      exact ((alike _ _).mp ⟨rfl, rfl⟩).1
    · intro equal reserveX reserveY
      rw [equal, and_comm]

end Order

/-- For every state, two tokens and amounts: when the order of the tokens is immaterial to a
deposit, to a withdrawal and to the reading of the reserves. -/
theorem order_iff {World : Type} (env : Env World) (caller : Address) (state : State World)
    (tokenX tokenY : Address) :
    let pair := state.dex.pair (hashOf env tokenX tokenY)
    let sortedX := (sorted tokenX tokenY).1
    let sortedY := (sorted tokenX tokenY).2
    (∀ amountX amountY minLiquidity,
        AddsAlike env caller state tokenX tokenY amountX amountY minLiquidity ↔
          tokenX = tokenY ∨ amountX = amountY ∨
            ∀ liquidity world,
              ¬ Adds env caller state sortedX sortedY amountX amountY minLiquidity liquidity
                  world ∧
                ¬ Adds env caller state sortedX sortedY amountY amountX minLiquidity liquidity
                  world) ∧
      (∀ liquidity minX minY,
        RemovesAlike env caller state tokenX tokenY liquidity minX minY ↔
          tokenX = tokenY ∨
            paidOut pair liquidity pair.reserveA = paidOut pair liquidity pair.reserveB ∨
            (∀ amountA amountB world,
              ¬ Removes env caller state sortedX sortedY liquidity amountA amountB world) ∨
            (¬ (minX.toNat ≤ paidOut pair liquidity pair.reserveA ∧
                  minY.toNat ≤ paidOut pair liquidity pair.reserveB) ∧
              ¬ (minY.toNat ≤ paidOut pair liquidity pair.reserveA ∧
                  minX.toNat ≤ paidOut pair liquidity pair.reserveB))) ∧
      (ReservesAlike env state tokenX tokenY ↔
        tokenX = tokenY ∨ pair.reserveA = pair.reserveB) :=
  ⟨addsAlike_iff, removesAlike_iff, reservesAlike_iff⟩

/-- A pair that holds 1000 and 2000: a deposit of 10 of token 1 and 20 of token 2 is booked the
other way round if token 2 is named first, and what is returned stays in its place. -/
theorem token_order_matters :
    let opened := Sample.opened
    ¬ AddsAlike Sample.env (Sample.address 3) opened (Sample.address 1) (Sample.address 2) 10 20 0 ∧
      ¬ RemovesAlike Sample.env (Sample.address 3) opened (Sample.address 1) (Sample.address 2)
        707 0 0 ∧
      ¬ ReservesAlike Sample.env opened (Sample.address 1) (Sample.address 2) := by
  intro opened
  refine ⟨fun alike => ?_, fun alike => ?_, fun alike => ?_⟩
  · have accepted : Transactions.Succeeds (perform Sample.env) opened (.call (Sample.address 3)
        (.addLiquidity (Sample.address 1) (Sample.address 2) 10 20 0)) := by decide +kernel
    obtain ⟨next, performed⟩ := accepted
    obtain ⟨liquidity, -, adds, -⟩ := perform_addLiquidity performed
    rcases (addsAlike_iff _ _ _).mp alike with same | same | refused
    · exact absurd same (by decide)
    · exact absurd same (by decide)
    · exact (refused _ _).1 adds
  · have accepted : Transactions.Succeeds (perform Sample.env) opened (.call (Sample.address 3)
        (.removeLiquidity (Sample.address 1) (Sample.address 2) 707 0 0)) := by decide +kernel
    obtain ⟨next, performed⟩ := accepted
    obtain ⟨amountA, amountB, -, removes, -⟩ := perform_removeLiquidity performed
    rcases (removesAlike_iff _ _ _).mp alike with same | same | refused | low
    · exact absurd same (by decide)
    · exact absurd same (by decide +kernel)
    · exact refused _ _ _ removes
    · exact low.1 ⟨Nat.zero_le _, Nat.zero_le _⟩
  · rcases reservesAlike_iff.mp alike with same | same
    · exact absurd same (by decide)
    · exact absurd same (by decide +kernel)

end ProtonChain.Solidity.ProtonDEX
